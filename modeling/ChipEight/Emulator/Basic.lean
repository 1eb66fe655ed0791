import ChipEight.Emulator.Action
import ChipEight.Instr.Codec
import ChipEight.Journal
import ChipEight.Noise.ChaCha

namespace ChipEight

abbrev Decoder := Word → Except UnknownWord Instr

abbrev Outcome.Tick := Outcome Emulator (Except Fault Signal)

namespace Emulator

def create (noise : Noise) : Emulator :=
  { machine := .fresh, noise }

-- A tick that fails leaves the emulator as its actions did.
def tickWith (decode : Decoder) (e : Emulator) : Outcome.Tick :=
  let pc := e.machine.pc
  match Action.fetch.run e with
  | .error f state => { answer := .error f, state }
  | .ok w state    =>
    match decode w with
    | .error u => { answer := .error (.unsupported u.word pc), state }
    | .ok i    =>
      match (Action.execute i).run state with
      | .error f state =>
        { answer := .error f, state, records := #[.executing pc i, .failed f] }
      | .ok signal state =>
        { answer := .ok signal, state, records := #[.executing pc i] }

def tick (e : Emulator) : Outcome.Tick :=
  e.tickWith Instr.decode

-- The answer of a run is that of its last tick, and `next` if there is none.
def run (e : Emulator) (n : Nat) : Outcome.Tick :=
  go n e .next #[]
where
  go : Nat → Emulator → Signal → Array Record → Outcome.Tick
    | 0,     e, signal, records => { answer := .ok signal, state := e, records }
    | n + 1, e, _,      records =>
      let o := e.tick
      match o.answer with
      | .error f   => { answer := .error f, state := o.state, records := records ++ o.records }
      | .ok signal => go n o.state signal (records ++ o.records)

def countDown (e : Emulator) : Outcome Emulator Tone where
  answer := e.machine.nextTone
  state  := { e with machine := e.machine.countDown }

def switchKey (e : Emulator) (k : Key) (pressed : Bool) : Emulator :=
  { e with machine := e.machine.switchKey k pressed }

def releaseKeys (e : Emulator) : Emulator :=
  { e with machine := e.machine.releaseKeys }

def reset (e : Emulator) : Outcome Emulator Unit where
  answer  := ()
  state   := { e with machine := .fresh }
  records := #[.wasReset]

-- An image that does not fit leaves the machine as it is.
def load (e : Emulator) (image : List UInt8) : Outcome Emulator (Except Fault Unit) :=
  if image.length ≤ Memory.programCapacity then
    { answer  := .ok ()
      state   := { e with machine := .withImage image }
      records := #[.wasReset, .loaded image.length] }
  else
    { answer := .error (.oversized image.length Memory.programCapacity), state := e }

end Emulator
end ChipEight
