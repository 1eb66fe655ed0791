import ChipEight.Keypad

namespace ChipEight

-- What happens at a word that stands for no instruction. Every other fault always halts the run.
inductive Policy
  | halt
  | ignore
  deriving DecidableEq

structure KeyEvent where
  frame   : Nat
  key     : Key
  pressed : Bool
  deriving DecidableEq

structure Config where
  ticksPerFrame : Nat           := 10
  frameRate     : Nat           := 60
  maxFrames     : Option Nat    := none
  seed          : Option UInt64 := none
  onError       : Policy        := .halt
  bell          : Bool          := false
  showDisplay   : Bool          := true
  keys          : List KeyEvent := []
  deriving DecidableEq

namespace Config

def eventsIn (c : Config) (frame : Nat) : List KeyEvent :=
  c.keys.filter (·.frame == frame)

-- The nanoseconds of a frame at a rate per second. The rate zero means that frames do not wait.
def frameInterval (rate : Nat) : Nat :=
  1000000000 / rate

end Config
end ChipEight
