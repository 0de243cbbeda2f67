import Enclave.Crypto.Aes

/-!
# The binary field of the authenticator

Authentication tags are computed in the ring of binary polynomials modulo
`x¹²⁸ + x⁷ + x² + x + 1`. An element is a bit vector of width 128 whose most
significant bit is the constant coefficient, which is how a block of 16 bytes
is read. Addition is exclusive or.

A product is a sum of multiples of its second factor by powers of `x`: the
coefficients of the first factor say which ones (`combine`). The multiples do
not depend on the first factor, so that who multiplies many elements by the
same one lists them once (`multiples`). Linearity in either factor is one
induction over that list.
-/

namespace Enclave

/-- **An element of the field**, as its 128 coefficients. -/
abbrev FieldElement := BitVec 128

namespace FieldElement

/-- The coefficients of `x⁷ + x² + x + 1`, to which `x¹²⁸` reduces. -/
def reduction : FieldElement := 0xe1 <<< 120

/-- **Multiplication by `x`**: every coefficient moves up, and the one that
leaves is reduced. -/
def timesX (v : FieldElement) : FieldElement :=
  if v.getLsbD 0 then (v >>> 1) ^^^ reduction else v >>> 1

/-- **The multiples of an element** by the first powers of `x`, in order. -/
def multiples (y : FieldElement) : Nat → List FieldElement
  | 0 => []
  | n + 1 => y :: multiples (timesX y) n

/-- **The sum of the elements of a list that are picked** by the coefficients
of an element, from a given one on. -/
def combine (x : FieldElement) (i : Nat) : List FieldElement → FieldElement
  | [] => 0
  | v :: rest => (if x.getMsbD i then v else 0) ^^^ combine x (i + 1) rest

/-- **The product of two elements.** -/
def mul (x y : FieldElement) : FieldElement :=
  combine x 0 (multiples y 128)

/-- **A block read as an element**, first byte in the lowest coefficients. -/
def ofBlock (b : Block) : FieldElement :=
  b.foldl (fun acc byte => (acc <<< 8) ^^^ byte.toBitVec.setWidth 128) 0

/-- **An element written as a block.** -/
def toBlock (x : FieldElement) : Block :=
  Vector.ofFn fun i => UInt8.ofBitVec (x.extractLsb' (8 * (15 - i.val)) 8)

end FieldElement

end Enclave
