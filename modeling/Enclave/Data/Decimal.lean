import Enclave.Data.Double

/-!
# Decimal numbers

A number that is not an integer is kept in decimal: a sign, digits, and a power
of ten. Only as many of the digits it is written with are kept as fit 64 bits.
It stands for a double-precision value, and it is shown as that value is.
-/

namespace Enclave

/-- **A decimal number**: a sign, digits, and a power of ten. -/
structure Decimal where
  negative : Bool
  digits : Nat
  exponent : Int
deriving DecidableEq, Repr

namespace Decimal

/-- The value of a digit. -/
def digitValue (d : Char) : Nat := d.toNat - 0x30

/-- **The leading digits that fit 64 bits**, put behind those that were read
before, and the digits that are left. -/
def fitting (n : Nat) : List Char → Nat × List Char
  | [] => (n, [])
  | d :: ds =>
    if 10 * n + digitValue d < UInt64.size then fitting (10 * n + digitValue d) ds
    else (n, d :: ds)

/-- **The number that digits around a point stand for**, times a power of ten.
Digits of the whole part that do not fit only raise the power, and those of the
fraction are dropped. -/
def ofDigits (negative : Bool) (whole fraction : List Char) (shift : Int) : Decimal :=
  let (n, excess) := fitting 0 whole
  let (digits, dropped) := fitting n fraction
  ⟨negative, digits, shift + excess.length - (fraction.length - dropped.length : Int)⟩

/-- **The double-precision value of a decimal**, without its sign: that of its
digits, scaled. A decimal may be too large to have one. -/
def toDouble? (d : Decimal) : Option Double :=
  (Double.ofNat? d.digits).bind (·.scale? d.exponent)

/-- **A decimal shown in full**, as the value it stands for. -/
def toText (d : Decimal) : String :=
  (if d.negative then "-" else "") ++ (d.toDouble?.map Double.toText).getD "inf"

end Decimal

end Enclave
