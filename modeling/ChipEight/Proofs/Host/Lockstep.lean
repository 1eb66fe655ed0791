import ChipEight.Proofs.Host.Batch
import ChipEight.Proofs.Timer.Countdown

namespace ChipEight

namespace Moment

variable {t : Moment}

theorem counts_iff : t.counts ↔ t.op = .countDown := by
  obtain ⟨_, op⟩ := t
  cases op <;> simp [counts]

instance : DecidablePred beeps := fun t =>
  decidable_of_iff (t.counts ∧ t.before.countDown.answer = .beep) <| by
    rw [counts_iff, beeps_iff]

theorem counts_of_beeps (h : t.beeps) : t.counts :=
  counts_iff.mpr <| (beeps_iff.mp h).left

-- What happened since the emulator was reset or a program was loaded.
def sinceRestart (ms : List Moment) : List Moment :=
  ms.takeWhile (!·.restarts)

end Moment

namespace Turn

-- What a turn does to the emulator.
def operations : Turn → List Operation
  | frame h      => h.operations
  | load _ image => [.load image]

-- The history of the emulator in a turn.
def moments (t : Turn) : List Moment :=
  t.before.emulator.history t.operations

-- A program was loaded that fits.
def restarts : Turn → Bool
  | frame _      => false
  | load h image => (h.load image).answer.isOk

-- A frame that succeeded.
def succeeds : Turn → Bool
  | frame h   => h.playFrame.answer.isOk
  | load _ _  => false

-- What happened since a program was loaded.
def sinceRestart (ts : List Turn) : List Turn :=
  ts.takeWhile (!·.restarts)

end Turn

namespace Host

variable {h h' : Host}

theorem answer_load (h : Host) (image : List UInt8) :
    (h.load image).answer = (h.emulator.load image).answer := by
  by_cases hl : image.length ≤ Memory.programCapacity
  case pos => simp only [load_of_fits hl, Emulator.load_of_fits hl]
  case neg => simp only [load_of_oversized hl, Emulator.load_of_oversized hl]

theorem emulator_load (h : Host) (image : List UInt8) :
    (h.load image).state.emulator = h.emulator.performAll [.load image] := by
  have hp : h.emulator.performAll [.load image] = (h.emulator.load image).state := rfl
  rw [hp]
  by_cases hl : image.length ≤ Memory.programCapacity
  case pos => simp only [load_of_fits hl, Emulator.load_of_fits hl]
  case neg => simp only [load_of_oversized hl, Emulator.load_of_oversized hl]

theorem leads_moments (t : Turn) :
    Emulator.Leads t.before.emulator t.moments t.after.emulator := by
  have l := t.before.emulator.leads_history t.operations
  cases t
  case frame h =>
    have he : (Turn.frame h).after.emulator = h.emulator.performAll h.operations :=
      h.emulator_playFrame
    rw [he]
    exact l
  case load h image =>
    have he : (Turn.load h image).after.emulator = h.emulator.performAll [.load image] :=
      h.emulator_load image
    rw [he]
    exact l

-- The history of a host is one of its emulator.
theorem Leads.emulator (l : Leads h ts h') :
    Emulator.Leads h.emulator (ts.flatMap Turn.moments) h'.emulator := by
  induction l
  case nil => exact .nil
  case cons t _ hi => exact hi.append <| leads_moments t

-- The history of the ticks of a batch.
def batchMoments (policy : Policy) (n : Nat) (e : Emulator) : List Moment :=
  e.history (.replicate (batchTicks policy n e) .tick)

theorem op_of_mem_batchMoments (ht : t ∈ batchMoments policy n e) : t.op = .tick :=
  List.eq_of_mem_replicate <|
    Emulator.op_mem_of_mem_history (by simp [Operation.Single]) ht

-- In a frame come the switches of the keys, then the ticks, and then the timers are counted, unless
-- a tick made the frame fail.
theorem moments_frame (h : Host) :
    (Turn.frame h).moments =
      (if h.ticked.answer.isOk then [⟨h.ticked.state, .countDown⟩] else []) ++
      (batchMoments h.config.onError h.config.ticksPerFrame (script h.events h.emulator) ++
        h.emulator.history (h.events.map fun event => .switchKey event.key event.pressed)) := by
  have hm : (Turn.frame h).moments = h.emulator.history h.operations := rfl
  have hs : h.ticked.state = (script h.events h.emulator).performAll _ := batch_state ..
  rw [hm, operations, Emulator.history_append, Emulator.history_append, ← script_eq_performAll,
    ← hs, List.append_assoc]
  split <;> rfl

theorem not_counts_of_mem {e' : Emulator} {events : List KeyEvent}
    (ht : t ∈ batchMoments policy n e ++
      e'.history (events.map fun event => .switchKey event.key event.pressed)) :
    ¬t.counts ∧ ¬t.restarts := by
  rcases List.mem_append.mp ht with ht | ht
  · simp [Moment.counts, Moment.restarts, op_of_mem_batchMoments ht]
  · have ho := Emulator.op_mem_of_mem_history (by simp [Operation.Single]) ht
    obtain ⟨_, _, ho⟩ := List.mem_map.mp ho
    simp [Moment.counts, Moment.restarts, ← ho]

theorem isOk_playFrame (h : Host) : h.playFrame.answer.isOk = h.ticked.answer.isOk := by
  cases ht : h.ticked.answer
  case error => rw [playFrame_of_error ht]
  case ok    => rw [playFrame_of_ok ht]; rfl

-- For any kind of moment that is a count of the timers.
theorem countP_frame {p : Moment → Bool} (hp : ∀ t, p t → t.counts) (h : Host) :
    (Turn.frame h).moments.countP p =
      (h.playFrame.answer.isOk && p ⟨h.ticked.state, .countDown⟩).toNat := by
  rw [moments_frame, List.countP_append, isOk_playFrame,
    List.countP_eq_zero.mpr fun t ht => mt (hp t) (not_counts_of_mem ht).left]
  cases h.ticked.answer.isOk
  case false => rfl
  case true  => cases hc : p ⟨h.ticked.state, .countDown⟩ <;> simp [hc]

theorem not_restarts_of_mem_frame (ht : t ∈ (Turn.frame h).moments) : ¬t.restarts := by
  rw [moments_frame] at ht
  rcases List.mem_append.mp ht with ht | ht
  · split at ht
    · rw [List.mem_singleton.mp ht]
      simp [Moment.restarts]
    · contradiction
  · exact not_counts_of_mem ht |>.right

-- Loading a program ends what happened before, both for the host and for its emulator.
theorem countP_moments {p : Moment → Bool} (hp : ∀ t, p t → t.counts) (t : Turn)
    (ms : List Moment) :
    (Moment.sinceRestart (t.moments ++ ms)).countP p =
      bif t.restarts then 0 else t.moments.countP p + (Moment.sinceRestart ms).countP p := by
  cases t
  case frame h =>
    have hn : ∀ t ∈ (Turn.frame h).moments, (!t.restarts) = true :=
      fun t ht => by simpa using not_restarts_of_mem_frame ht
    rw [Moment.sinceRestart, List.takeWhile_append_of_pos hn, List.countP_append]
    rfl
  case load h image =>
    have hm : (Turn.load h image).moments = [⟨h.emulator, .load image⟩] := rfl
    have hr : (Turn.load h image).restarts = (Moment.mk h.emulator (.load image)).restarts :=
      congrArg Except.isOk <| h.answer_load image
    have hn : ¬p ⟨h.emulator, .load image⟩ := mt (hp _) Bool.false_ne_true
    rw [hm, hr, Moment.sinceRestart, List.singleton_append, List.takeWhile_cons]
    cases (Moment.mk h.emulator (.load image)).restarts
    case true  => rfl
    case false => simp [hn, Moment.sinceRestart]

end Host

namespace Turn

theorem frame_after (t : Turn) :
    t.after.frame = bif t.restarts then 0 else t.before.frame + t.succeeds.toNat := by
  cases t
  case frame h =>
    simp only [after, outcome, before, restarts, succeeds]
    cases ha : h.ticked.answer
    case error => rw [Host.playFrame_of_error ha]; rfl
    case ok    => rw [Host.playFrame_of_ok ha]; rfl
  case load h image =>
    simp only [after, outcome, before, restarts, succeeds]
    by_cases hl : image.length ≤ Memory.programCapacity
    case pos => rw [Host.load_of_fits hl]; rfl
    case neg => rw [Host.load_of_oversized hl]; rfl

theorem beeps_after (t : Turn) :
    t.after.beeps =
      bif t.restarts then 0 else t.before.beeps + t.moments.countP fun m => m.beeps := by
  cases t
  case frame h =>
    rw [Host.countP_frame fun t hb => Moment.counts_of_beeps (of_decide_eq_true hb)]
    simp only [after, outcome, before, restarts]
    cases ha : h.ticked.answer
    case error => rw [Host.playFrame_of_error ha]; rfl
    case ok    =>
      have hb : (Moment.mk h.ticked.state .countDown).beeps ↔
          h.ticked.state.countDown.answer = .beep :=
        Moment.beeps_iff.trans <| and_iff_right rfl
      rw [Host.playFrame_of_ok ha]
      simp only [Host.finishFrame, hb]
      split <;> simp [*, Except.isOk, Except.toBool]
  case load h image =>
    have hm : (Turn.load h image).moments = [⟨h.emulator, .load image⟩] := rfl
    have hn : ¬(Moment.mk h.emulator (.load image)).beeps := fun hb => by
      simpa [Moment.counts] using Moment.counts_of_beeps hb
    rw [hm]
    simp only [after, outcome, before, restarts]
    by_cases hl : image.length ≤ Memory.programCapacity
    case pos => rw [Host.load_of_fits hl]; rfl
    case neg => rw [Host.load_of_oversized hl]; simp [hn, Except.isOk, Except.toBool]

-- Every frame that succeeds counts the timers once, and no other turn does.
theorem countP_counts (t : Turn) : (t.moments.countP fun m => m.counts) = t.succeeds.toNat := by
  cases t
  case frame h =>
    rw [Host.countP_frame fun _ hc => hc]
    exact congrArg Bool.toNat <| Bool.and_true _
  case load => rfl

theorem countP_sinceRestart (p : Turn → Bool) (t : Turn) (ts : List Turn) :
    (sinceRestart (t :: ts)).countP p =
      bif t.restarts then 0 else (sinceRestart ts).countP p + (p t).toNat := by
  rw [sinceRestart, List.takeWhile_cons]
  cases t.restarts
  case false => cases hp : p t <;> simp [hp, sinceRestart]
  case true  => rfl

end Turn

namespace Host

variable {config : Config} {noise : Noise} {h : Host}

-- One frame for each that succeeded.
theorem Leads.frame_eq_succeeds (l : Leads (create config noise) ts h) :
    h.frame = (Turn.sinceRestart ts).countP (·.succeeds) := by
  induction l
  case nil => rfl
  case cons t _ hi => rw [t.frame_after, hi, Turn.countP_sinceRestart]

-- One frame for each count of the timers.
theorem Leads.frame_eq_counts (l : Leads (create config noise) ts h) :
    h.frame = (Moment.sinceRestart (ts.flatMap Turn.moments)).countP (·.counts) := by
  induction l
  case nil => rfl
  case cons t _ hi =>
    rw [t.frame_after, hi, List.flatMap_cons, countP_moments fun _ hc => hc, t.countP_counts,
      Nat.add_comm]

theorem Leads.beeps_eq (l : Leads (create config noise) ts h) :
    h.beeps = (Moment.sinceRestart (ts.flatMap Turn.moments)).countP fun m => m.beeps := by
  induction l
  case nil => rfl
  case cons t _ hi =>
    rw [t.beeps_after, hi, List.flatMap_cons,
      countP_moments fun _ hb => Moment.counts_of_beeps (of_decide_eq_true hb), Nat.add_comm]

theorem not_counts_of_error (ha : h.playFrame.answer = .error f) :
    ∀ t ∈ (Turn.frame h).moments, ¬t.counts := by
  have hc := countP_frame (p := (·.counts)) (fun _ hc => hc) h
  rw [ha] at hc
  exact List.countP_eq_zero.mp hc

theorem load_of_error {image : List UInt8} (ha : (h.load image).answer = .error f) :
    (h.load image).state = h := by
  by_cases hl : image.length ≤ Memory.programCapacity
  case pos => simp [load_of_fits hl] at ha
  case neg => rw [load_of_oversized hl]

-- A frame that fails leaves the numbers as they are, but keeps its keys and its ticks up to the one
-- that failed.
theorem counters_in_lockstep (config : Config) (noise : Noise) (requests : List Request) :
    let h := (create config noise).serveAll requests
    let ts := (create config noise).history requests
    let ms := ts.flatMap Turn.moments
    Emulator.Leads (.create noise) ms h.emulator ∧
    h.frame = (Turn.sinceRestart ts).countP (·.succeeds) ∧
    h.frame = (Moment.sinceRestart ms).countP (·.counts) ∧
    (h.beeps = (Moment.sinceRestart ms).countP fun m => m.beeps) ∧
    (∀ f, h.playFrame.answer = .error f →
      (∀ t ∈ (Turn.frame h).moments, ¬t.counts) ∧
      ∃ k, h.FailsAt k f ∧
        h.playFrame.state =
          { h with
            emulator :=
              match f with
              | .outsideProgram _ => h.midFrame k
              | _                 => (h.midFrame k).past }) ∧
    (∀ image f, (h.load image).answer = .error f → (h.load image).state = h) := by
  intro h ts ms
  have l : Leads _ ts h := leads_history (create config noise) requests
  refine ⟨l.emulator, l.frame_eq_succeeds, l.frame_eq_counts, l.beeps_eq, ?_, ?_⟩
  · intro f ha
    have ⟨k, hk⟩ := playFrame_eq_error_iff.mp ha
    refine ⟨not_counts_of_error ha, k, hk, ?_⟩
    have hf : (h.midFrame k).tick.answer = .error f := hk.answer
    rw [hk.playFrame_state, h.midFrame_succ, Emulator.tick_state_of_error hf]
    cases f <;> rfl
  · intro image f ha
    exact load_of_error ha

-- The first frame beeps, and the second one returns from a call that was never made.
theorem counters_in_lockstep_return :
    let config : Config := { ticksPerFrame := 2 }
    let image := [0x60, 0x01, 0xF0, 0x18, 0x00, 0xEE]
    let h := (create config ⟨fun _ => 0, 0⟩).serveAll [.load image, .frame]
    h.frame = 1 ∧ h.beeps = 1 ∧
    h.playFrame.answer = .error (.stackUnderflow 0x204) ∧
    h.playFrame.state.frame = 1 ∧ h.playFrame.state.beeps = 1 ∧
    (h.load (.replicate 3585 0)).state = h := by
  intro config image h
  have ⟨hf, hb, ha, hl⟩ : h.frame = 1 ∧ h.beeps = 1 ∧
      h.playFrame.answer = .error (.stackUnderflow 0x204) ∧
      (h.load (.replicate 3585 0)).answer = .error (.oversized 3585 3584) := by
    decide +kernel
  have ⟨_, _, _, _, hp, ho⟩ :=
    counters_in_lockstep config ⟨fun _ => 0, 0⟩ [.load image, .frame]
  have ⟨_, _, _, hs⟩ := hp _ ha
  refine ⟨hf, hb, ha, ?_, ?_, ho _ _ hl⟩
  · rw [hs]
    exact hf
  · rw [hs]
    exact hb

end Host
end ChipEight
