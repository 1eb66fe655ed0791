import ChipEight.Config.Basic
import ChipEight.Config.Problem

namespace ChipEight

open Yaml (Node)

abbrev Reading := Except Problem

namespace Reading

def mismatch (found : Found) (expected : Expected) : Reading α :=
  .error (.here (.invalidType found expected))

def under (place : Place) (r : Reading α) : Reading α :=
  r.mapError (.under place)

end Reading

open Reading

namespace Yaml.Node

def found : Node → Reading Found
  | scalar style s => .ok (.ofScalar (.resolve style s))
  | sequence _     => .ok .sequence
  | mapping _      => .ok .mapping
  | broken reason  => .error (.malformed reason)

def refuse (expected : Expected) (n : Node) : Reading α :=
  n.found >>= (mismatch · expected)

-- Only an unsigned numeral is a natural number, so `-0` is none.
def natural (expected : Expected) (n : Node) : Reading Nat :=
  match n with
  | scalar style s =>
    match Scalar.resolve style s with
    | .integer false i => if i < UInt64.size then .ok i else n.refuse expected
    | _                => n.refuse expected
  | _ => n.refuse expected

def optional (read : Node → Reading α) (n : Node) : Reading (Option α) :=
  match n.found with
  | .ok .unit => .ok none
  | _         => (read n).map some

def boolean (n : Node) : Reading Bool :=
  match n.found with
  | .ok (.boolean b) => .ok b
  | _                => n.refuse .boolean

-- The text of a scalar counts, whatever it resolves to.
def policy : Node → Reading Policy
  | scalar _ s =>
    if s = "halt" then .ok .halt
    else if s = "ignore" then .ok .ignore
    else .error (.here (.unknownVariant s ["halt", "ignore"]))
  | n => n.refuse .tag

-- The text of a scalar counts here as well.
def fieldName : Node → Reading String
  | scalar _ s => .ok s
  | n          => n.refuse .fieldName

-- Nothing at all is an empty sequence; an explicit null is not.
def items : Node → Reading (List Node)
  | sequence ns      => .ok ns
  | scalar .plain "" => .ok []
  | n                => n.refuse .sequence

-- Nothing at all is an empty mapping; an explicit null is not.
def entries (expected : Expected) : Node → Reading (List (Node × Node))
  | mapping es       => .ok es
  | scalar .plain "" => .ok []
  | n                => n.refuse expected

end Yaml.Node

namespace Key

def ofInt (i : Int) : Reading Key :=
  if h : 0 ≤ i ∧ i < 16 then .ok ⟨i.toNat, by omega⟩ else .error (.here (.keyOutOfRange i))

def ofFound : Found → Reading Key
  | .integer i => ofInt i
  | found      => mismatch found .keyNumber

-- A key in a configuration is a signed integer of 64 bits.
def ofNode (n : Node) : Reading Key :=
  match n.found with
  | .ok (.integer i) => if i < UInt64.size / 2 then ofInt i else n.refuse .keyNumber
  | _                => n.refuse .keyNumber

end Key

-- A kind of mapping: the names of its fields, and what the value of a field does to a draft.
structure Schema (φ σ : Type) where
  fields : List φ
  name   : φ → String
  assign : σ → φ → Node → Reading σ

namespace Schema

variable [DecidableEq φ]

def find? (s : Schema φ σ) (name : String) : Option φ :=
  s.fields.find? (s.name · == name)

def field (s : Schema φ σ) (name : String) : Reading φ :=
  match s.find? name with
  | some f => .ok f
  | none   => .error (.here (.unknownField name (s.fields.map s.name)))

-- A mapping is read entry by entry, so the first problem in it is the one that is reported: a name
-- that no field has, a name that was there before, or a value that does not fit.
def read (s : Schema φ σ) (draft : σ) (entries : List (Node × Node)) : Reading σ :=
  go draft [] entries
where
  go (draft : σ) (seen : List φ) : List (Node × Node) → Reading σ
    | []                  => .ok draft
    | (key, node) :: rest => do
      let f ← key.fieldName >>= s.field
      if f ∈ seen then
        throw (.here (.duplicateField (s.name f)))
      let draft ← under (.field (s.name f)) (s.assign draft f node)
      go draft (f :: seen) rest

end Schema

namespace KeyEvent

inductive Field
  | frame
  | key
  | pressed
  deriving DecidableEq

structure Draft where
  frame   : Option Nat := none
  key     : Option Key := none
  pressed : Bool       := true

def schema : Schema Field Draft where
  fields := [.frame, .key, .pressed]
  name
    | .frame   => "frame"
    | .key     => "key"
    | .pressed => "pressed"
  assign d
    | .frame,   n => (n.natural .u64).map fun v => { d with frame := some v }
    | .key,     n => (Key.ofNode n).map fun v => { d with key := some v }
    | .pressed, n => n.boolean.map fun v => { d with pressed := v }

-- The frame is missed before the key; without a word about it, a key is pressed.
def Draft.finish (d : Draft) : Reading KeyEvent :=
  match d.frame, d.key with
  | some frame, some key => .ok { frame, key, pressed := d.pressed }
  | none,       _        => .error (.here (.missingField (schema.name .frame)))
  | some _,     none     => .error (.here (.missingField (schema.name .key)))

def ofNode (n : Node) : Reading KeyEvent :=
  n.entries .keyEvent >>= schema.read {} >>= Draft.finish

-- The first node stands at position `i`.
def ofNodes (i : Nat) : List Node → Reading (List KeyEvent)
  | []      => .ok []
  | n :: ns =>
    match under (.item i) (ofNode n) with
    | .error p  => .error p
    | .ok event => (ofNodes (i + 1) ns).map (event :: ·)

end KeyEvent

namespace Config

inductive Field
  | ticksPerFrame
  | frameRate
  | maxFrames
  | seed
  | onError
  | bell
  | showDisplay
  | keys
  deriving DecidableEq

def schema : Schema Field Config where
  fields :=
    [.ticksPerFrame, .frameRate, .maxFrames, .seed, .onError, .bell, .showDisplay, .keys]
  name
    | .ticksPerFrame => "ticks_per_frame"
    | .frameRate     => "frame_rate"
    | .maxFrames     => "max_frames"
    | .seed          => "seed"
    | .onError       => "on_error"
    | .bell          => "bell"
    | .showDisplay   => "show_display"
    | .keys          => "keys"
  assign c
    | .ticksPerFrame, n => (n.natural .usize).map fun v => { c with ticksPerFrame := v }
    | .frameRate,     n => (n.natural .u64).map fun v => { c with frameRate := v }
    | .maxFrames,     n => (n.optional (Node.natural .u64)).map fun v => { c with maxFrames := v }
    | .seed,          n =>
      (n.optional (Node.natural .u64)).map fun v => { c with seed := v.map .ofNat }
    | .onError,       n => n.policy.map fun v => { c with onError := v }
    | .bell,          n => n.boolean.map fun v => { c with bell := v }
    | .showDisplay,   n => n.boolean.map fun v => { c with showDisplay := v }
    | .keys,          n => (n.items >>= KeyEvent.ofNodes 0).map fun v => { c with keys := v }

-- What the mapping does not name keeps its default.
def ofNode (n : Node) : Reading Config :=
  n.entries .runConfig >>= schema.read {}

end Config
end ChipEight
