/-!
# Double-precision numbers

A double-precision value without its sign is a multiple `m · 2^q` of a power of
two with at most 53 bits in `m`. A quotient of natural numbers is rounded to
the nearest of these values, an even `m` winning between two that are equally
near, and products, quotients and powers of ten are rounded the same way.

A decimal stands for a value when it lies no farther away than half the
distance to the next value. The search for the shortest one goes through grids
of one, two, … significant digits and takes the first that has a point close
enough; both neighbours of the value on a grid are tried, the nearer one first
and the even one of two that are equally near.
-/

namespace Enclave

/-- **A double-precision value** `m · 2^q` without its sign. -/
structure Double where
  significand : Nat
  exponent : Int
deriving DecidableEq, Repr

namespace Double

/-- The value nought. -/
def zero : Double := ⟨0, -1074⟩

/-- The leading bit of a significand, which a double-precision value does not
store: the 52nd power of two. -/
def hidden : Nat := 1 <<< 52

/-- A power of ten. -/
def powerOfTen (n : Nat) : Nat := Nat.pow 10 n

/-- The nearest natural number to a quotient, the even one of two. -/
def nearest (numerator denominator : Nat) : Nat :=
  let floor := numerator / denominator
  let rest := 2 * (numerator % denominator)
  if rest < denominator || (rest = denominator && floor % 2 = 0) then floor else floor + 1

/-- **The value nearest to a quotient.** Its significand has 53 bits, or fewer
where the exponent is the least there is; there is none where the exponent
would be above the greatest. -/
def ofRatio? (numerator denominator : Nat) : Option Double :=
  let low : Int := (numerator.log2 : Int) - denominator.log2 - 53
  let fits : Bool :=
    numerator <<< (-(low + 53)).toNat < denominator <<< (low + 53).toNat
  let e : Int := max (-1074) (if fits then low else low + 1)
  let m := nearest (numerator <<< (-e).toNat) (denominator <<< e.toNat)
  let v : Double := if m = 2 * hidden then ⟨hidden, e + 1⟩ else ⟨m, e⟩
  if v.exponent ≤ 971 then some v else none

/-- The value nearest to a natural number. -/
def ofNat? (n : Nat) : Option Double := ofRatio? n 1

/-- The value nearest to a product of two values. -/
def mul? (v w : Double) : Option Double :=
  let e := v.exponent + w.exponent
  ofRatio? ((v.significand * w.significand) <<< e.toNat) (1 <<< (-e).toNat)

/-- The value nearest to a quotient of two values. -/
def div? (v w : Double) : Option Double :=
  let e := v.exponent - w.exponent
  ofRatio? (v.significand <<< e.toNat) (w.significand <<< (-e).toNat)

/-- **A value times a power of ten**, where the power is itself a rounded value
that is multiplied or divided by. The powers go up to the 308th, which is
divided by on its own for an exponent below that; what is left after two such
divisions is nought. -/
def scale? (v : Double) (e : Int) : Option Double :=
  let power (n : Nat) : Option Double := ofNat? (powerOfTen n)
  if v.significand = 0 then some zero
  else if 308 < e then none
  else if 0 ≤ e then (power e.toNat).bind v.mul?
  else if -308 ≤ e then (power (-e).toNat).bind v.div?
  else if -616 ≤ e then do
    let v ← (power 308).bind v.div?
    (power (-308 - e).toNat).bind v.div?
  else some zero

/-- **Whether a decimal `c · 10^e` stands for the value.** Above, half the
distance to the next value is allowed; below, half of the smaller distance to
the one before when the significand is the least of its power. Ends count when
the significand is even. -/
def admits (v : Double) (c : Nat) (e : Int) : Bool :=
  let scale := powerOfTen (-e).toNat <<< v.exponent.toNat
  let point := (4 * c * powerOfTen e.toNat) <<< (-v.exponent).toNat
  let below := if v.significand = hidden ∧ v.exponent > -1074 then 1 else 2
  let low := (4 * v.significand - below) * scale
  let high := (4 * v.significand + 2) * scale
  if v.significand % 2 = 0 then low ≤ point && point ≤ high else low < point && point < high

/-- The power of ten above the value: the least `k` with `v < 10^k`, searched
for upwards. -/
def powerAbove (v : Double) : Nat → Int → Int
  | 0, k => k
  | fuel + 1, k =>
    if (v.significand * powerOfTen (-k).toNat) <<< v.exponent.toNat
        < powerOfTen k.toNat <<< (-v.exponent).toNat then k
    else powerAbove v fuel (k + 1)

/-- **The shortest decimal that stands for the value**, tried with more and
more digits. -/
def search (v : Double) (top : Int) : (fuel digits : Nat) → Nat × Int
  | 0, _ => (v.significand, v.exponent)
  | fuel + 1, n =>
    let e := top - n
    let numerator := (v.significand * powerOfTen (-e).toNat) <<< v.exponent.toNat
    let denominator := powerOfTen e.toNat <<< (-v.exponent).toNat
    let near := nearest numerator denominator
    let floor := numerator / denominator
    let far := if near = floor then floor + 1 else floor
    if v.admits near e then (near, e)
    else if v.admits far e then (far, e)
    else search v top fuel (n + 1)

/-- **The decimal a value is shown as**: the shortest that stands for it, as
digits that do not end in a nought and a power of ten. -/
def shortest (v : Double) : Nat × Int :=
  let (c, e) := v.search (v.powerAbove 700 (-330)) 20 1
  let zeros := ((toString c).toList.reverse.takeWhile (· = '0')).length
  (c / powerOfTen zeros, e + zeros)

/-- Digits with a point behind the first `places` of them, filled up with
noughts on either side. -/
def pointed (digits : List Char) (places : Int) : List Char :=
  let whole := digits.take places.toNat ++ List.replicate (places.toNat - digits.length) '0'
  let fraction := List.replicate (-places).toNat '0' ++ digits.drop places.toNat
  (if whole = [] then ['0'] else whole) ++ '.' :: (if fraction = [] then ['0'] else fraction)

/-- The first digit, the others behind a point, and a power of ten with its
sign. -/
def scientific (digits : List Char) (power : Int) : List Char :=
  digits.take 1 ++ (if digits.drop 1 = [] then [] else '.' :: digits.drop 1)
    ++ 'e' :: (if power < 0 then '-' else '+') :: (toString power.natAbs).toList

/-- **A value shown in digits.** The point is written where it falls if that is
behind at most sixteen digits, or in front of the digits with at most four
noughts between; any other value is shown with a power of ten. -/
def toText (v : Double) : String :=
  if v.significand = 0 then "0.0"
  else
    let (c, e) := v.shortest
    let digits := (toString c).toList
    let places := digits.length + e
    String.ofList <|
      if -5 < places && places ≤ 16 then pointed digits places
      else scientific digits (places - 1)

end Double

end Enclave
