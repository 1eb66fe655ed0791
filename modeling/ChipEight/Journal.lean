import ChipEight.Fault
import ChipEight.Instr.Mnemonic
import ChipEight.Instr.Word
import ChipEight.Keypad

namespace ChipEight

-- From the most severe to the most detailed.
inductive Level
  | error | warn | info | debug | trace
  deriving DecidableEq

namespace Level

def detail : Level → Nat
  | error => 0
  | warn  => 1
  | info  => 2
  | debug => 3
  | trace => 4

def name : Level → String
  | error => "ERROR"
  | warn  => "WARN"
  | info  => "INFO"
  | debug => "DEBUG"
  | trace => "TRACE"

-- A reader at level `l` sees the records that are as severe or more.
def Shows (l k : Level) : Prop :=
  k.detail ≤ l.detail

instance : Decidable (Shows l k) :=
  inferInstanceAs (Decidable (k.detail ≤ l.detail))

end Level

inductive Record
  | wasReset
  | loaded (size : Nat)
  | executing (address : Word) (i : Instr)
  | failed (f : Fault)
  | ignoring (f : Fault)
  | loadingFile (path : String)
  | keyEvent (frame : Nat) (k : Key) (pressed : Bool)
  | keysHeld (frame : Nat) (keys : Keypad)
  | beep
  | stopped (frames : Nat)
  deriving DecidableEq

namespace Record

open Numeral

def level : Record → Level
  | wasReset | loaded _ | keyEvent .. | keysHeld .. => .debug
  | executing .. => .trace
  | failed _ | ignoring _ => .warn
  | loadingFile _ | beep | stopped _ => .info

def message : Record → String
  | wasReset => "machine reset"
  | loaded size => "loaded program of " ++ decimal size ++ " bytes"
  | executing address i => upperHex 4 address.toNat ++ ": " ++ i.mnemonic
  | failed f => f.message
  | ignoring f => "ignoring " ++ f.message
  | loadingFile path => "load rom: " ++ path
  | keyEvent frame k pressed =>
    "frame " ++ decimal frame ++ ": " ++ k.text ++ " pressed=" ++
      if pressed then "true" else "false"
  | keysHeld frame keys => "frame " ++ decimal frame ++ ": " ++ keys.text
  | beep => "BEEP"
  | stopped frames => "stopped after " ++ decimal frames ++ " frames"

def line (r : Record) : String :=
  r.level.name ++ " " ++ r.message

end Record

structure Outcome (σ α : Type) where
  answer  : α
  state   : σ
  records : Array Record := #[]

end ChipEight
