import ChipEight.CallStack
import ChipEight.Display
import ChipEight.Instr.Word
import ChipEight.Keypad
import ChipEight.Memory
import ChipEight.Registers

namespace ChipEight

@[ext]
structure Machine where
  pc      : UInt16    := 0x200
  index   : UInt16    := 0
  regs    : Registers := .zero
  delay   : UInt8     := 0
  sound   : UInt8     := 0
  keys    : Keypad    := .released
  waiting : Bool      := false
  stack   : CallStack := .empty
  ram     : Memory    := .fresh
  display : Display   := .blank
  deriving DecidableEq

-- What the timers report when they are counted down.
inductive Tone
  | silent
  | beep
  deriving DecidableEq

namespace Machine

def fresh : Machine :=
  {}

def withImage (image : List UInt8) : Machine :=
  { ram := Memory.fresh.writeSpan Memory.programStart image }

-- A press ends the wait for a key, a release does not.
def switchKey (m : Machine) (k : Key) (pressed : Bool) : Machine :=
  { m with keys := m.keys.set k pressed, waiting := m.waiting && !pressed }

def releaseKeys (m : Machine) : Machine :=
  { m with keys := .released }

-- Timers are meant to be counted this often in a second.
def timerRate : Nat :=
  60

-- Timers stop at zero.
def countDown (m : Machine) : Machine :=
  { m with
    delay := if m.delay = 0 then 0 else m.delay - 1
    sound := if m.sound = 0 then 0 else m.sound - 1 }

-- Counting the timers down is heard only when the sound timer goes from one to zero.
def nextTone (m : Machine) : Tone :=
  if m.sound = 1 then .beep else .silent

end Machine
end ChipEight
