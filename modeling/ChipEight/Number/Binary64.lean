import ChipEight.Number.Decimal

namespace ChipEight

-- A finite number is `significand * 2 ^ exponent`. The significand has at most 53 bits, and all of
-- them unless the exponent is the least one, which is -1074.
inductive Binary64
  | finite (negative : Bool) (significand : Nat) (exponent : Int)
  | infinite (negative : Bool)
  | nan
  deriving DecidableEq

namespace Binary64

def precision : Nat := 53

-- The least number that is too large for a significand.
def significandBound : Nat := 1 <<< precision

def leastExponent : Int := -1074

def greatestExponent : Int := 971

-- The nearest natural number to a quotient; a half goes to the even neighbour.
def roundDiv (num den : Nat) : Nat :=
  let q := num / den
  let r := 2 * (num % den)
  if den < r ∨ den = r ∧ q % 2 = 1 then q + 1 else q

-- The quotient `num / (den * 2 ^ e)` as a fraction of natural numbers.
def scale (num den : Nat) (e : Int) : Nat × Nat :=
  (num <<< (-e).toNat, den <<< e.toNat)

-- The nearest number to a positive quotient; none beyond the range.
def ofQuotient? (num den : Nat) : Option (Nat × Int) :=
  let guess := max ((num.log2 : Int) - den.log2 - precision) leastExponent
  let (n, d) := scale num den guess
  let e := if n / d < significandBound then guess else guess + 1
  let (n, d) := scale num den e
  let m := roundDiv n d
  let (m, e) := if m = significandBound then (m / 2, e + 1) else (m, e)
  if e ≤ greatestExponent then some (m, e) else none

-- Decimals of a size far outside the range are settled without their power of ten.
def ofDecimal (x : Decimal) : Binary64 :=
  let size := (Nat.toDigits 10 x.digits).length + x.exponent
  if x.digits = 0 ∨ size < -330 then
    .finite x.negative 0 leastExponent
  else if 330 < size then
    .infinite x.negative
  else
    match ofQuotient? (x.digits * Nat.pow 10 x.exponent.toNat) (Nat.pow 10 (-x.exponent).toNat) with
    | some (m, e) => .finite x.negative m e
    | none        => .infinite x.negative

-- Besides decimals, the names of infinity and of the value that is no number, in any case.
def ofText? (s : String) : Option Binary64 :=
  let (negative, cs) := Decimal.splitSign s.toList
  let name := String.ofList (cs.map Char.toLower)
  if name = "inf" ∨ name = "infinity" then some (.infinite negative)
  else if name = "nan" then some .nan
  else (Decimal.ofChars? s.toList).map ofDecimal

def isFinite : Binary64 → Bool
  | finite .. => true
  | _         => false

end Binary64
end ChipEight
