import ChipEight.Proofs.Emulator.History

namespace ChipEight

-- The open calls after a moment, by their return addresses, the newest last.
def Moment.calls (t : Moment) (open' : List UInt16) : List UInt16 :=
  if t.restarts then
    []
  else
    match t.executed? with
    | some (.call _) => open' ++ [t.before.machine.pc + 2]
    | some .ret      => open'.dropLast
    | _              => open'

theorem Moment.calls_cases (t : Moment) (as : List UInt16) :
    t.calls as = [] ∨ t.calls as = as ++ [t.before.machine.pc + 2] ∨
    t.calls as = as.dropLast ∨ t.calls as = as := by
  rw [calls]
  cases t.restarts
  case true  => exact .inl rfl
  case false =>
    rcases t.executed? with _ | i
    case none => exact .inr <| .inr <| .inr rfl
    case some =>
      cases i
      case call => exact .inr <| .inl rfl
      case ret  => exact .inr <| .inr <| .inl rfl
      all_goals exact .inr <| .inr <| .inr rfl

def openCalls : List Moment → List UInt16
  | []     => []
  | t :: h => t.calls (openCalls h)

theorem Moment.Kind.stack_after {t : Moment} (k : t.Kind) :
    t.after.machine.stack.toList = t.calls t.before.machine.stack.toList := by
  cases k
  case restart hr h =>
    obtain ⟨_, h⟩ := h
    simp [calls, hr, h, Machine.withImage, CallStack.toList_empty]
  case rest hr hi h => simp [calls, hr, hi, h.stack]
  case execute i _ hr hi hx =>
    cases i
    case call =>
      have hs := Machine.execute_call hx |>.right
      simp only [calls, hr, hi]
      exact hs
    case ret =>
      have hs : t.before.machine.stack.toList = _ := Machine.execute_ret hx |>.right
      simp only [calls, hr, hi]
      rw [hs]
      exact List.dropLast_concat.symm
    all_goals
      have hf := Machine.Frame.of_execute hx
      simp only [calls, hr, hi]
      exact congrArg CallStack.toList <| hf.stack (by simp) (by simp)

namespace Emulator

variable {e : Emulator}

theorem Leads.stack_eq_openCalls (l : Leads e h e') (he : e.machine.stack = .empty) :
    e'.machine.stack.toList = openCalls h := by
  induction l
  case nil => rw [he]; rfl
  case cons hs hi => rw [openCalls, ← hi, (Moment.kind hs).stack_after]

theorem stack_eq_openCalls (noise : Noise) (ops : List Operation) :
    ((create noise).performAll ops).machine.stack.toList = openCalls ((create noise).history ops) :=
  (leads_history _ ops).stack_eq_openCalls rfl

theorem overflows_iff :
    (∃ a, e.tick.answer = .error (.stackOverflow a)) ↔
      (∃ nnn, e.machine.instr? = some (.call nnn)) ∧
      e.machine.stack.toList.length = CallStack.capacity := by
  constructor
  case mp =>
    intro ⟨a, h⟩
    obtain ⟨s, -, ht⟩ := ticks_of_answer h
    cases ht
    case refused hi hr =>
      cases hr
      case call hs => exact ⟨⟨_, hi⟩, hs⟩
  case mpr =>
    intro ⟨⟨nnn, hi⟩, hs⟩
    exact ⟨_, tick_of_refuses hi (.call hs) |>.left⟩

theorem underflows_iff :
    (∃ a, e.tick.answer = .error (.stackUnderflow a)) ↔
      e.machine.instr? = some .ret ∧ e.machine.stack.toList = [] := by
  constructor
  case mp =>
    intro ⟨a, h⟩
    obtain ⟨s, -, ht⟩ := ticks_of_answer h
    cases ht
    case refused hi hr =>
      cases hr
      case ret hs => exact ⟨hi, hs⟩
  case mpr =>
    intro ⟨hi, hs⟩
    exact ⟨_, tick_of_refuses hi (.ret hs) |>.left⟩

theorem tick_ret (hi : e.machine.instr? = some .ret)
    (hs : e.machine.stack.toList = as ++ [a]) :
    e.tick.answer = .ok .jump ∧ e.tick.state.machine.pc = a := by
  cases hx : e.past.machine.execute e.noise .ret
  case error f =>
    cases Machine.Refuses.of_execute hx
    case ret h =>
      have h : e.machine.stack.toList = [] := h
      simp [hs] at h
    case access ha => contradiction
  case ok r =>
    have ⟨hj, hl⟩ := Machine.execute_ret hx
    have hl : e.machine.stack.toList = _ := hl
    have ⟨hk, hm⟩ := tick_of_execute hi hx
    rw [hs] at hl
    have ha := List.append_inj_right' hl rfl
    rw [hk, hm, hj]
    exact ⟨rfl, List.singleton_inj.mp ha.symm⟩

end Emulator

theorem openCalls_call {t : Moment} (ht : t.executed? = some (.call nnn)) :
    openCalls (t :: h) = openCalls h ++ [t.before.machine.pc + 2] := by
  simp [openCalls, Moment.calls, ht, Moment.restarts_of_executed? ht]

-- As long as the depth stays above the depth before a call, the call is still open and so are all
-- that were open before it.
theorem openCalls_above (hc : t.executed? = some (.call nnn))
    (hd : ∀ s, s <:+ newer → (openCalls older).length < (openCalls (s ++ t :: older)).length) :
    ∃ above,
      openCalls (newer ++ t :: older) =
        openCalls older ++ (t.before.machine.pc + 2) :: above := by
  induction newer
  case nil => exact ⟨[], openCalls_call hc⟩
  case cons u newer hi =>
    have ⟨above, ha⟩ := hi fun s hs => hd s (hs.trans <| List.suffix_cons ..)
    have hd := hd (u :: newer) (List.suffix_refl _)
    rw [List.cons_append, openCalls, ha] at hd ⊢
    rcases u.calls_cases (openCalls older ++ (t.before.machine.pc + 2) :: above) with hu | hu | hu | hu
    all_goals rw [hu] at hd ⊢
    case inl => simp at hd
    case inr.inl => exact ⟨above ++ [u.before.machine.pc + 2], by simp⟩
    case inr.inr.inl =>
      -- A return that took this very call away would have ended at the depth before it.
      cases above
      case nil => simp at hd
      case cons a above => exact ⟨(a :: above).dropLast, by simp⟩
    case inr.inr.inr => exact ⟨above, rfl⟩

-- A return that takes the depth back to where it was before a call resumes right after that call,
-- whatever was called in between.
theorem calls_nest (noise : Noise) (ops : List Operation) :
    let e := (Emulator.create noise).performAll ops
    let h := (Emulator.create noise).history ops
    e.machine.stack.toList = openCalls h ∧
    e.machine.stack.depth = (openCalls h).length ∧ (openCalls h).length ≤ CallStack.capacity ∧
    ((∃ a, e.tick.answer = .error (.stackOverflow a)) ↔
      (∃ nnn, e.machine.instr? = some (.call nnn)) ∧
      (openCalls h).length = CallStack.capacity) ∧
    ((∃ a, e.tick.answer = .error (.stackUnderflow a)) ↔
      e.machine.instr? = some .ret ∧ openCalls h = []) ∧
    (∀ as a, e.machine.instr? = some .ret → openCalls h = as ++ [a] →
      e.tick.answer = .ok .jump ∧ e.tick.state.machine.pc = a) ∧
    (∀ newer call older nnn,
      h = newer ++ call :: older → call.executed? = some (.call nnn) →
      (∀ s, s <:+ newer → (openCalls older).length < (openCalls (s ++ call :: older)).length) →
      (openCalls h).length = (openCalls older).length + 1 → e.machine.instr? = some .ret →
      e.tick.answer = .ok .jump ∧ e.tick.state.machine.pc = call.before.machine.pc + 2) := by
  intro e h
  have hs : e.machine.stack.toList = openCalls h := Emulator.stack_eq_openCalls noise ops
  have hl : e.machine.stack.depth = (openCalls h).length := hs ▸ (CallStack.length_toList _).symm
  refine ⟨hs, hl, hl ▸ e.machine.stack.depth_le, ?_, ?_, ?_, ?_⟩
  · rw [← hs]; exact Emulator.overflows_iff
  · rw [← hs]; exact Emulator.underflows_iff
  · intro as a hi ha
    exact Emulator.tick_ret hi (hs.trans ha)
  · intro newer call older nnn hh hc hd hn hi
    have ⟨above, ha⟩ := openCalls_above hc hd
    rw [hh, ha] at hn
    have : above = [] := by simpa using hn
    subst this
    exact Emulator.tick_ret hi (hs.trans <| hh ▸ ha)

-- The subroutine at 0x204 calls the one at 0x208, and both return.
example :
    let image := [0x22, 0x04, 0x00, 0x00, 0x22, 0x08, 0x00, 0xEE, 0x00, 0xEE]
    let e := (Emulator.create ⟨fun _ => 0, 0⟩).performAll [.load image, .run 4]
    e.machine.pc = 0x202 ∧ e.machine.stack.toList = [] := by
  decide +kernel

end ChipEight
