import ChipEight.Host.Basic
import ChipEight.Proofs.Emulator.History
import Mathlib.Logic.Function.Iterate

namespace ChipEight

-- What can be asked of a host. A run that is not over after its budget of frames is left there.
inductive Request
  | frame
  | run (budget : Nat)
  | load (image : List UInt8)

-- A frame that is played, or a program that is loaded, by the host before it.
inductive Turn
  | frame (h : Host)
  | load (h : Host) (image : List UInt8)

namespace Turn

def before : Turn → Host
  | frame h | load h _ => h

def outcome : Turn → Outcome.Hosted
  | frame h      => h.playFrame
  | load h image => h.load image

def after (t : Turn) : Host :=
  t.outcome.state

end Turn

namespace Host

def serve (h : Host) : Request → Host
  | .frame      => h.playFrame.state
  | .run budget => (h.run? budget).elim ((·.playFrame.state)^[budget] h) (·.state)
  | .load image => (h.load image).state

def serveAll (h : Host) (rs : List Request) : Host :=
  rs.foldl serve h

-- The frames of a run, which ends at the limit or with the first frame that fails.
def runTurns : Nat → Host → List Turn
  | 0,          _ => []
  | budget + 1, h =>
    if h.atLimit then
      []
    else
      match h.playFrame.answer with
      | .ok _    => runTurns budget h.playFrame.state ++ [.frame h]
      | .error _ => [.frame h]

def turns (h : Host) : Request → List Turn
  | .frame      => [.frame h]
  | .run budget => runTurns budget h
  | .load image => [.load h image]

def history (h : Host) : List Request → List Turn
  | []      => []
  | r :: rs => (h.serve r).history rs ++ h.turns r

-- A history leads from the host before its oldest turn to the one after its newest.
inductive Leads (h : Host) : List Turn → Host → Prop
  | nil  : Leads h [] h
  | cons (l : Leads h ts t.before) : Leads h (t :: ts) t.after

namespace Leads

variable {h h₁ h₂ h₃ : Host} {ts : List Turn}

theorem frame (h : Host) : Leads h [.frame h] h.playFrame.state :=
  .cons (t := .frame h) .nil

theorem load (h : Host) (image : List UInt8) : Leads h [.load h image] (h.load image).state :=
  .cons (t := .load h image) .nil

theorem append (l₁ : Leads h₁ ts₁ h₂) (l₂ : Leads h₂ ts₂ h₃) : Leads h₁ (ts₂ ++ ts₁) h₃ := by
  induction l₂
  case nil => exact l₁
  case cons hi => exact .cons hi

theorem exists_of_mem (l : Leads h ts h') (ht : t ∈ ts) : ∃ older, Leads h older t.before := by
  induction l
  case nil => contradiction
  case cons l hi =>
    cases ht
    case head    => exact ⟨_, l⟩
    case tail ht => exact hi ht

end Leads

theorem leads_run (h : Host) (budget : Nat) (records : Array Record) :
    Leads h (runTurns budget h)
      ((run?.go budget h records).elim ((·.playFrame.state)^[budget] h) (·.state)) := by
  induction budget generalizing h records
  case zero =>
    rw [run?.go, runTurns]
    split <;> exact .nil
  case succ budget hi =>
    rw [run?.go, runTurns]
    split
    case isTrue => exact .nil
    case isFalse =>
      simp only
      cases h.playFrame.answer
      case error => exact .frame h
      case ok    => exact (Leads.frame h).append (hi ..)

theorem leads_turns (h : Host) (r : Request) : Leads h (h.turns r) (h.serve r) := by
  cases r
  case frame      => exact .frame h
  case run budget => exact leads_run h budget #[]
  case load image => exact .load h image

theorem leads_history (h : Host) (rs : List Request) : Leads h (h.history rs) (h.serveAll rs) := by
  induction rs generalizing h
  case nil => exact .nil
  case cons r rs hi => exact .append (h.leads_turns r) (hi _)

theorem load_of_fits {h : Host} (hl : image.length ≤ Memory.programCapacity) :
    h.load image =
      { answer  := .ok ()
        state   :=
          { h with
            emulator := { h.emulator with machine := .withImage image }
            frame    := 0
            beeps    := 0 }
        records := #[.wasReset, .loaded image.length] } := by
  simp [load, Emulator.load_of_fits hl]

theorem load_of_oversized {h : Host} (hl : ¬image.length ≤ Memory.programCapacity) :
    h.load image =
      { answer := .error (.oversized image.length Memory.programCapacity), state := h } := by
  simp [load, Emulator.load_of_oversized hl]

-- The batch of a frame, after the events of the script.
def ticked (h : Host) : Outcome Emulator (Except Fault Unit) :=
  let scripted := h.events.map fun event => .keyEvent h.frame event.key event.pressed
  batch Instr.decode h.config.onError h.config.ticksPerFrame (script h.events h.emulator)
    scripted.toArray

theorem playFrame_of_error {h : Host} (ha : h.ticked.answer = .error f) :
    h.playFrame =
      { answer  := .error f
        state   := { h with emulator := h.ticked.state }
        records := h.ticked.records } := by
  rw [ticked] at ha
  simp only [playFrame, playFrameWith, ha, ticked]

theorem playFrame_of_ok {h : Host} (ha : h.ticked.answer = .ok ()) :
    h.playFrame = h.finishFrame h.ticked.state h.ticked.records := by
  rw [ticked] at ha
  simp only [playFrame, playFrameWith, ha, ticked]

theorem ticked_of_error {h : Host} (ha : h.playFrame.answer = .error f) :
    h.ticked.answer = .error f := by
  cases ht : h.ticked.answer
  case error f' =>
    rw [playFrame_of_error ht] at ha
    exact ha
  case ok =>
    rw [playFrame_of_ok ht] at ha
    contradiction

-- How many ticks a batch makes.
def batchTicks (policy : Policy) : Nat → Emulator → Nat
  | 0,     _ => 0
  | n + 1, e =>
    match e.tick.answer with
    | .ok .stall => 1
    | .ok _      => batchTicks policy n e.tick.state + 1
    | .error f   => if policy.tolerates f then batchTicks policy n e.tick.state + 1 else 1

theorem batch_state (policy : Policy) (n : Nat) (e : Emulator) (records : Array Record) :
    (batch Instr.decode policy n e records).state =
      e.performAll (.replicate (batchTicks policy n e) .tick) := by
  induction n generalizing e records
  case zero => rfl
  case succ n hi =>
    rw [batch, batchTicks, ← Emulator.tick]
    cases e.tick.answer
    case error f =>
      simp only
      split
      · exact hi ..
      · rfl
    case ok signal =>
      cases signal
      case stall => rfl
      all_goals exact hi ..

-- What a frame does to the emulator. The timers are only counted if no tick made the frame fail.
def operations (h : Host) : List Operation :=
  let switches := h.events.map fun event => .switchKey event.key event.pressed
  let ticks := batchTicks h.config.onError h.config.ticksPerFrame (script h.events h.emulator)
  let count := if h.ticked.answer.isOk then [.countDown] else []
  switches ++ (.replicate ticks .tick ++ count)

theorem script_eq_performAll (events : List KeyEvent) (e : Emulator) :
    script events e =
      e.performAll (events.map fun event => .switchKey event.key event.pressed) := by
  rw [script, Emulator.performAll, List.foldl_map]
  rfl

-- The batch begins with the emulator that the script leaves.
theorem tick_mem_history {h : Host} (ht : h.config.ticksPerFrame ≠ 0) :
    ⟨script h.events h.emulator, .tick⟩ ∈ h.emulator.history h.operations := by
  have ⟨n, hn⟩ := Nat.exists_eq_succ_of_ne_zero ht
  have ⟨k, hk⟩ : ∃ k, batchTicks h.config.onError h.config.ticksPerFrame
      (script h.events h.emulator) = k + 1 := by
    rw [hn, batchTicks]
    split
    · exact ⟨0, rfl⟩
    · exact ⟨_, rfl⟩
    · split <;> exact ⟨_, rfl⟩
  rw [operations, hk]
  simp [Emulator.history_append, ← script_eq_performAll, List.replicate_succ, Emulator.history,
    Emulator.moments]

theorem emulator_playFrame (h : Host) :
    h.playFrame.state.emulator = h.emulator.performAll h.operations := by
  rw [operations, Emulator.performAll_append, Emulator.performAll_append, ← script_eq_performAll,
    ← batch_state]
  cases ha : h.ticked.answer
  case error => rw [playFrame_of_error ha]; rfl
  case ok    => rw [playFrame_of_ok ha]; rfl

end Host
end ChipEight
