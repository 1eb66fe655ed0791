import ChipEight.Config.Basic
import ChipEight.Emulator.Basic

namespace ChipEight

def Policy.tolerates : Policy → Fault → Bool
  | ignore, .unsupported .. => true
  | _,      _               => false

-- Without a seed of its own a run takes the given one.
def Config.noise (c : Config) (seed : UInt64) : Noise :=
  .ofSeed (c.seed.getD seed)

@[ext]
structure Host where
  config   : Config
  emulator : Emulator
  frame    : Nat
  beeps    : Nat

abbrev Outcome.Hosted := Outcome Host (Except Fault Unit)

namespace Host

def create (config : Config) (noise : Noise) : Host :=
  { config, emulator := .create noise, frame := 0, beeps := 0 }

-- A program that fits starts the script from its first frame.
def load (h : Host) (image : List UInt8) : Outcome.Hosted :=
  let o := h.emulator.load image
  match o.answer with
  | .error f => { answer := .error f, state := h, records := o.records }
  | .ok _    =>
    { answer  := .ok ()
      state   := { h with emulator := o.state, frame := 0, beeps := 0 }
      records := o.records }

-- The events of the current frame, in the order of the configuration.
def events (h : Host) : List KeyEvent :=
  h.config.eventsIn h.frame

def script (events : List KeyEvent) (e : Emulator) : Emulator :=
  events.foldl (fun e event => e.switchKey event.key event.pressed) e

-- A batch of ticks ends early when the machine waits for a key, because no key can come before the
-- next frame.
def batch (decode : Decoder) (policy : Policy) :
    Nat → Emulator → Array Record → Outcome Emulator (Except Fault Unit)
  | 0,     e, records => { answer := .ok (), state := e, records }
  | n + 1, e, records =>
    let o := e.tickWith decode
    let records := records ++ o.records
    match o.answer with
    | .ok .stall => { answer := .ok (), state := o.state, records }
    | .ok _        => batch decode policy n o.state records
    | .error f     =>
      if policy.tolerates f then
        batch decode policy n o.state (records.push (.ignoring f))
      else
        { answer := .error f, state := o.state, records }

-- The last thing of a frame. Keys that are still down are put on record.
def finishFrame (h : Host) (e : Emulator) (records : Array Record) : Outcome.Hosted :=
  let timers := e.countDown
  let keys := e.machine.keys
  let beeped := timers.answer = .beep
  { answer  := .ok ()
    state   :=
      { h with
        emulator := timers.state
        frame    := h.frame + 1
        beeps    := if beeped then h.beeps + 1 else h.beeps }
    records :=
      records ++ (if beeped then #[.beep] else #[]) ++
        (if keys = .released then #[] else #[.keysHeld h.frame keys]) }

-- A frame that fails keeps its keys and its ticks, but does not count.
def playFrameWith (decode : Decoder) (h : Host) : Outcome.Hosted :=
  let scripted := h.events.map fun event => .keyEvent h.frame event.key event.pressed
  let o :=
    batch decode h.config.onError h.config.ticksPerFrame (script h.events h.emulator)
      scripted.toArray
  match o.answer with
  | .error f =>
    { answer := .error f, state := { h with emulator := o.state }, records := o.records }
  | .ok _    => h.finishFrame o.state o.records

def playFrame (h : Host) : Outcome.Hosted :=
  h.playFrameWith Instr.decode

def atLimit (h : Host) : Bool :=
  h.config.maxFrames.any (· ≤ h.frame)

-- None when the run is not over after `budget` frames.
def run? (h : Host) (budget : Nat) : Option Outcome.Hosted :=
  go budget h #[]
where
  go (budget : Nat) (h : Host) (records : Array Record) : Option Outcome.Hosted :=
    if h.atLimit then
      some { answer := .ok (), state := h, records := records.push (.stopped h.frame) }
    else
      match budget with
      | 0          => none
      | budget + 1 =>
        let o := h.playFrame
        let records := records ++ o.records
        match o.answer with
        | .error f => some { answer := .error f, state := o.state, records }
        | .ok _    => go budget o.state records

end Host
end ChipEight
