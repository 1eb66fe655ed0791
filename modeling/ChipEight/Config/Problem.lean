import ChipEight.Keypad
import ChipEight.Text.Quoted
import ChipEight.Number.Shortest
import ChipEight.Yaml.Node

namespace ChipEight

-- What stands in a place where something else was expected.
inductive Found
  | unit
  | boolean (b : Bool)
  | integer (i : Int)
  | wide    (i : Int)
  | float   (x : Binary64)
  | string  (s : String)
  | sequence
  | mapping

namespace Found

def integerText (i : Int) : String :=
  if i < 0 then "-" ++ Numeral.decimal i.natAbs else Numeral.decimal i.natAbs

def text : Found → String
  | unit      => "unit value"
  | boolean b => if b then "boolean `true`" else "boolean `false`"
  | integer i => "integer `" ++ integerText i ++ "`"
  | wide i    => "integer `" ++ integerText i ++ if i < 0 then "` as i128" else "` as u128"
  | float x   => "floating point `" ++ x.text ++ "`"
  | string s  => "string " ++ Quoted.encode s
  | sequence  => "sequence"
  | mapping   => "map"

-- Integers beyond 64 bits are wide; the signed ones are those with a minus sign.
def ofScalar : Yaml.Scalar → Found
  | .null => unit
  | .boolean b => boolean b
  | .integer false n => if n < UInt64.size then integer n else wide n
  | .integer true n => if n ≤ UInt64.size / 2 then integer (-n) else wide (-n)
  | .float x => float x
  | .string s => string s

end Found

inductive Expected
  | u64
  | usize
  | boolean
  | sequence
  | runConfig
  | keyEvent
  | keyNumber
  | fieldName
  | tag
  deriving DecidableEq

namespace Expected

def text : Expected → String
  | u64       => "u64"
  | usize     => "usize"
  | boolean   => "a boolean"
  | sequence  => "a sequence"
  | runConfig => "struct RunConfig"
  | keyEvent  => "struct KeyEvent"
  | keyNumber => "an integer between 0 and 15"
  | fieldName => "field identifier"
  | tag       => "a YAML tag starting with '!'"

end Expected

inductive Cause
  | invalidType (found : Found) (expected : Expected)
  | keyOutOfRange (i : Int)
  | unknownField (name : String) (known : List String)
  | duplicateField (name : String)
  | missingField (name : String)
  | unknownVariant (name : String) (known : List String)

namespace Cause

def name (s : String) : String :=
  "`" ++ s ++ "`"

-- Two names are joined by `or`, more are listed.
def oneOf : List String → String
  | [a, b] => name a ++ " or " ++ name b
  | names  => "one of " ++ ", ".intercalate (names.map name)

def message : Cause → String
  | invalidType found expected =>
    "invalid type: " ++ found.text ++ ", expected " ++ expected.text
  | keyOutOfRange i =>
    "invalid value: " ++ (Found.integer i).text ++ ", expected " ++ Key.rangeMessage
  | unknownField s known => "unknown field " ++ name s ++ ", expected " ++ oneOf known
  | duplicateField s => "duplicate field " ++ name s
  | missingField s => "missing field " ++ name s
  | unknownVariant s known => "unknown variant " ++ name s ++ ", expected " ++ oneOf known

end Cause

inductive Place
  | field (name : String)
  | item (i : Nat)
  deriving DecidableEq

-- What is wrong with the text as a whole has no path.
inductive Problem
  | wrong (path : List Place) (cause : Cause)
  | malformed (reason : Yaml.Malformed)
  | severalDocuments

namespace Problem

def here (cause : Cause) : Problem :=
  wrong [] cause

def under (place : Place) : Problem → Problem
  | wrong path cause => wrong (place :: path) cause
  | p                => p

def pathText : List Place → String
  | []                => ""
  | .item i :: rest   => "[" ++ Numeral.decimal i ++ "]" ++ pathText rest
  | .field s :: rest  => "." ++ s ++ pathText rest

-- The path has no leading point, and is left out at the top level.
def message : Problem → String
  | wrong [] cause                 => cause.message
  | wrong (.item i :: rest) cause  => pathText (.item i :: rest) ++ ": " ++ cause.message
  | wrong (.field s :: rest) cause => s ++ pathText rest ++ ": " ++ cause.message
  | malformed reason               => reason.reason
  | severalDocuments               =>
    "deserializing from YAML containing more than one document is not supported"

end Problem
end ChipEight
