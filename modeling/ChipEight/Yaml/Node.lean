import ChipEight.Number.Binary64
import ChipEight.Yaml.Malformed

namespace ChipEight.Yaml

inductive Style
  | plain
  | quoted
  deriving DecidableEq

-- Where the text breaks off the node is broken, and so is what stands after it around.
inductive Node
  | scalar   (style : Style) (text : String)
  | sequence (items : List Node)
  | mapping  (entries : List (Node × Node))
  | broken   (reason : Malformed)
  deriving Inhabited

namespace Node

-- Nothing where a node could be.
def empty : Node :=
  .scalar .plain ""

-- A mapping whose keys are texts.
def record (entries : List (String × Node)) : Node :=
  .mapping (entries.map fun (name, node) => (.scalar .quoted name, node))

end Node

-- Integers keep their sign, because `-0` is a negative numeral.
inductive Scalar
  | null
  | boolean (b : Bool)
  | integer (negative : Bool) (magnitude : Nat)
  | float   (x : Binary64)
  | string  (s : String)

namespace Scalar

def isNullText (s : String) : Bool :=
  s ∈ ["", "~", "null", "Null", "NULL"]

def boolean? (s : String) : Option Bool :=
  if s ∈ ["true", "True", "TRUE"] then some true
  else if s ∈ ["false", "False", "FALSE"] then some false
  else none

def digit? (base : Nat) (c : Char) : Option Nat := do
  let d ←
    if '0' ≤ c ∧ c ≤ '9' then some (c.toNat - '0'.toNat)
    else if 'a' ≤ c ∧ c ≤ 'f' then some (c.toNat - 'a'.toNat + 10)
    else if 'A' ≤ c ∧ c ≤ 'F' then some (c.toNat - 'A'.toNat + 10)
    else none
  if d < base then some d else none

-- At least one digit.
def magnitude? (base : Nat) : List Char → Option Nat
  | [] => none
  | cs => cs.foldlM (fun n c => (base * n + ·) <$> digit? base c) 0

-- A decimal numeral with a leading zero is not a number.
def hasLeadingZero : List Char → Bool
  | '0' :: c :: cs => (c :: cs).all Char.isDigit
  | _              => false

-- The base may be given in front of the digits.
def unsigned? : List Char → Option Nat
  | '0' :: 'x' :: cs => magnitude? 16 cs
  | '0' :: 'o' :: cs => magnitude? 8 cs
  | '0' :: 'b' :: cs => magnitude? 2 cs
  | cs               => if hasLeadingZero cs then none else magnitude? 10 cs

-- Numerals of more than 128 bits are not integers.
def integer? (s : String) : Option (Bool × Nat) := do
  let (negative, cs) := Decimal.splitSign s.toList
  let n ← unsigned? cs
  guard (if negative then n ≤ 1 <<< 127 else n < 1 <<< 128)
  return (negative, n)

def float? (s : String) : Option Binary64 :=
  if s ∈ [".inf", ".Inf", ".INF", "+.inf", "+.Inf", "+.INF"] then
    some (.infinite false)
  else if s ∈ ["-.inf", "-.Inf", "-.INF"] then
    some (.infinite true)
  else if s ∈ [".nan", ".NaN", ".NAN"] then
    some .nan
  else do
    guard !hasLeadingZero (Decimal.splitSign s.toList).2
    let x := Binary64.ofDecimal (← Decimal.ofChars? s.toList)
    guard x.isFinite
    return x

def resolve : Style → String → Scalar
  | .quoted, s => .string s
  | .plain,  s =>
    if isNullText s then .null
    else if let some b := boolean? s then .boolean b
    else if let some (negative, n) := integer? s then .integer negative n
    else if let some x := float? s then .float x
    else .string s

end Scalar
end ChipEight.Yaml
