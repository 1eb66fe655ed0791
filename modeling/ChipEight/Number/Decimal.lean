namespace ChipEight

-- The value is `digits * 10 ^ exponent`.
structure Decimal where
  negative : Bool
  digits   : Nat
  exponent : Int
  deriving DecidableEq

namespace Decimal

def digitsValue (cs : List Char) : Nat :=
  cs.foldl (fun n c => 10 * n + (c.toNat - '0'.toNat)) 0

-- The sign in front, and what follows it.
def splitSign : List Char → Bool × List Char
  | '-' :: cs => (true, cs)
  | '+' :: cs => (false, cs)
  | cs        => (false, cs)

def exponent? : List Char → Option Int
  | []      => some 0
  | c :: cs =>
    let (negative, ds) := splitSign cs
    if (c = 'e' ∨ c = 'E') ∧ ds ≠ [] ∧ ds.all Char.isDigit then
      some <| if negative then -digitsValue ds else digitsValue ds
    else
      none

-- At least one digit on either side of the point.
def ofChars? (cs : List Char) : Option Decimal := do
  let (negative, cs) := splitSign cs
  let (whole, cs) := cs.span Char.isDigit
  let (fraction, cs) := match cs with
    | '.' :: cs => cs.span Char.isDigit
    | cs        => ([], cs)
  guard (whole ++ fraction ≠ [])
  let e ← exponent? cs
  return { negative, digits := digitsValue (whole ++ fraction), exponent := e - fraction.length }

end Decimal
end ChipEight
