import ChipEight.Host.Basic
import ChipEight.Proofs.Emulator.Stall

namespace ChipEight.Host

-- A batch that takes no notice of a wait for a key.
def fullBatch (policy : Policy) :
    Nat → Emulator → Array Record → Outcome Emulator (Except Fault Unit)
  | 0,     e, records => { answer := .ok (), state := e, records }
  | n + 1, e, records =>
    let o := e.tick
    let records := records ++ o.records
    match o.answer with
    | .ok _    => fullBatch policy n o.state records
    | .error f =>
      if policy.tolerates f then
        fullBatch policy n o.state (records.push (.ignoring f))
      else
        { answer := .error f, state := o.state, records }

-- A frame that makes all of its ticks.
def playFullFrame (h : Host) : Outcome.Hosted :=
  let scripted := h.events.map fun event => .keyEvent h.frame event.key event.pressed
  let o :=
    fullBatch h.config.onError h.config.ticksPerFrame (script h.events h.emulator) scripted.toArray
  match o.answer with
  | .error f =>
    { answer := .error f, state := { h with emulator := o.state }, records := o.records }
  | .ok _    => h.finishFrame o.state o.records

theorem fullBatch_of_stalled {e : Emulator} (h : e.machine.Stalls x) :
    fullBatch policy n e.stalled records =
      { answer  := .ok ()
        state   := e.stalled
        records := records ++ .replicate n (.executing e.machine.pc (.waitKey x)) } := by
  induction n generalizing records
  case zero => simp [fullBatch]
  case succ n hi =>
    let r : Record := .executing e.machine.pc (.waitKey x)
    have ht : e.stalled.tick = { answer := .ok .stall, state := e.stalled, records := #[r] } :=
      Emulator.tick_of_stalls <| Emulator.stalls_stalled h
    have hr : #[r] ++ Array.replicate n r = .replicate (n + 1) r :=
      Array.replicate_append_replicate.trans <| congrArg (Array.replicate · r) (Nat.add_comm 1 n)
    rw [fullBatch, ht]
    simp only [hi]
    rw [Array.append_assoc, hr]

theorem fullBatch_eq_batch (policy : Policy) (n : Nat) (e : Emulator) (records : Array Record) :
    let o := batch Instr.decode policy n e records
    let o' := fullBatch policy n e records
    o'.answer = o.answer ∧ o'.state = o.state ∧
    ∃ repeats : Array Record, (∀ r ∈ repeats, r.level = .trace) ∧
      o'.records = o.records ++ repeats := by
  have hn (rs : Array Record) : ∃ repeats : Array Record,
      (∀ r ∈ repeats, r.level = .trace) ∧ rs = rs ++ repeats :=
    ⟨#[], by simp⟩
  induction n generalizing e records
  case zero => exact ⟨rfl, rfl, hn _⟩
  case succ n hi =>
    rw [fullBatch, batch, ← Emulator.tick]
    cases ha : e.tick.answer
    case error f =>
      simp only
      split
      · exact hi ..
      · exact ⟨rfl, rfl, hn _⟩
    case ok signal =>
      cases signal
      case stall =>
        obtain ⟨x, hs⟩ := Emulator.stalls_iff.mp ha
        simp only [Emulator.tick_of_stalls hs, fullBatch_of_stalled hs]
        refine ⟨trivial, trivial, _, ?_, rfl⟩
        intro r hr
        rw [Array.eq_of_mem_replicate hr]
        rfl
      all_goals exact hi ..

theorem records_finishFrame (h : Host) (e : Emulator) (records : Array Record) :
    (h.finishFrame e records).records = records ++ (h.finishFrame e #[]).records := by
  simp [finishFrame, Array.append_assoc]

-- Only the traces of the instruction that waits are fewer.
theorem playFrame_eq_playFullFrame (h : Host) :
    h.playFrame.answer = h.playFullFrame.answer ∧ h.playFrame.state = h.playFullFrame.state ∧
    ∃ first repeats rest : Array Record, (∀ r ∈ repeats, r.level = .trace) ∧
      h.playFrame.records = first ++ rest ∧ h.playFullFrame.records = first ++ repeats ++ rest := by
  have ⟨ha, hs, repeats, ht, hr⟩ := fullBatch_eq_batch h.config.onError h.config.ticksPerFrame
    (script h.events h.emulator)
    (h.events.map fun event => .keyEvent h.frame event.key event.pressed).toArray
  simp only [playFrame, playFrameWith, playFullFrame, ha, hs, hr]
  generalize batch _ _ _ _ _ = o
  cases o.answer
  case error f => exact ⟨rfl, rfl, o.records, repeats, #[], ht, by simp, by simp⟩
  case ok =>
    have hf := records_finishFrame h o.state
    exact ⟨rfl, rfl, o.records, repeats, _, ht, hf _, hf _⟩

end ChipEight.Host
