import ChipEight.Number.Binary64
import ChipEight.Text.Numeral

namespace ChipEight.Binary64

-- The decimals that read back as a number lie in an interval around it. The bounds are in quarters
-- of the last place, and belong to the interval iff the significand is even.
structure Interval where
  lower    : Nat
  value    : Nat
  upper    : Nat
  closed   : Bool
  exponent : Int

def interval (m : Nat) (e : Int) : Interval where
  -- Below a power of two the neighbour is half as far away.
  lower    := if m = significandBound / 2 ∧ leastExponent < e then 4 * m - 1 else 4 * m - 2
  value    := 4 * m
  upper    := 4 * m + 2
  closed   := m % 2 == 0
  exponent := e - 2

namespace Interval

-- Compares `n` quarters with `c * 10 ^ k`.
def compareTo (i : Interval) (n c : Nat) (k : Int) : Ordering :=
  compare ((n <<< i.exponent.toNat) * Nat.pow 10 (-k).toNat)
    ((c <<< (-i.exponent).toNat) * Nat.pow 10 k.toNat)

def contains (i : Interval) (c : Nat) (k : Int) : Bool :=
  let above := i.compareTo i.lower c k
  let below := i.compareTo i.upper c k
  (above == .lt || i.closed && above == .eq) && (below == .gt || i.closed && below == .eq)

-- The last multiple of `10 ^ k` that is not above the value.
def floor (i : Interval) (k : Int) : Nat :=
  (i.value <<< i.exponent.toNat) * Nat.pow 10 (-k).toNat /
    (Nat.pow 10 k.toNat <<< (-i.exponent).toNat)

-- Of two neighbours that both read back the nearer one is taken, and the upper one from the middle.
def pick? (i : Interval) (k : Int) : Option Nat :=
  let c := i.floor k
  match i.contains c k, i.contains (c + 1) k with
  | true,  false => some c
  | false, true  => some (c + 1)
  | true,  true  => some (if i.compareTo (2 * i.value) (2 * c + 1) k == .lt then c else c + 1)
  | false, false => none

-- Coarser grids come first.
def search (i : Interval) : Nat → Int → Nat × Int
  | 0,     k => (i.floor k, k)
  | n + 1, k =>
    match i.pick? k with
    | some c => (c, k)
    | none   => search i n (k - 1)

end Interval

-- The least `k` with `10 ^ k` above the value, for values of at most `n` more places.
def magnitude (i : Interval) : Nat → Int → Int
  | 0,     k => k
  | n + 1, k => if i.floor k = 0 then magnitude i n (k - 1) else k + 1

-- A positive number as `digits * 10 ^ exponent`. The coarsest grid to try has one point above the
-- value and none but zero below.
def shortest (m : Nat) (e : Int) : Nat × Int :=
  let i := interval m e
  let k := magnitude i 640 310
  i.search 18 k

-- The exponent is written out in zeros.
def positional (digits : Nat) (exponent : Int) : String :=
  let ds := Nat.toDigits 10 digits ++ .replicate exponent.toNat '0'
  let places := (-exponent).toNat
  let ds := .replicate (places + 1 - ds.length) '0' ++ ds
  let (whole, fraction) := ds.splitAt (ds.length - places)
  .ofList <| whole ++ '.' :: if fraction.isEmpty then ['0'] else fraction

def text : Binary64 → String
  | finite negative m e =>
    let body := if m = 0 then "0.0" else let (ds, k) := shortest m e; positional ds k
    if negative then "-" ++ body else body
  | infinite negative => if negative then "-inf" else "inf"
  | nan => "NaN"

end ChipEight.Binary64
