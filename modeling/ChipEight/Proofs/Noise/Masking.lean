import ChipEight.Proofs.Emulator.Outcomes

namespace ChipEight

-- A random byte can show in what the instruction does.
def Instr.showsNoise : Instr → Bool
  | random _ nn => nn != 0
  | _           => false

namespace Machine

variable {m : Machine}

theorem execute_of_masked (hi : ¬i.showsNoise) (noise noise' : Noise) :
    m.execute noise i = m.execute noise' i := by
  cases i
  case random x nn =>
    have hn : nn = 0 := by simpa [Instr.showsNoise] using hi
    simp [execute, hn]
  all_goals rfl

theorem Refuses.not_showsNoise (h : m.Refuses i f) : ¬i.showsNoise := by
  cases h
  case call | ret => simp [Instr.showsNoise]
  case access ha => cases i <;> simp [Instr.showsNoise, Instr.access?] at ha ⊢

end Machine

-- No random byte shows in what a moment does.
def Moment.Masked (t : Moment) : Prop :=
  ∀ i ∈ t.executed?, ¬i.showsNoise

instance : DecidablePred Moment.Masked := fun t =>
  inferInstanceAs (Decidable (∀ i ∈ t.executed?, ¬i.showsNoise))

namespace Emulator

variable {e e' : Emulator}

-- The random source is all that may differ.
def SameMachine (e e' : Emulator) : Prop :=
  e.machine = e'.machine

theorem tick_of_masked (h : e.SameMachine e') (hm : (Moment.mk e .tick).Masked) :
    e.tick.Alike SameMachine e'.tick := by
  have ⟨m, noise⟩ := e
  have ⟨m', noise'⟩ := e'
  cases h
  cases hf : m.fetch
  case error =>
    simp only [tick, tickWith_eq, hf]
    exact ⟨rfl, rfl, rfl⟩
  case ok w =>
    cases hd : Instr.decode w
    case error =>
      simp only [tick, tickWith_eq, hf, hd]
      exact ⟨rfl, rfl, rfl⟩
    case ok i =>
      have hi := Machine.instr?_eq_some_iff.mpr ⟨w, hf, hd⟩
      have hs := Moment.of_instr? hm (fun _ hr => hr.not_showsNoise) hi
      have hx := Machine.execute_of_masked (m := { m with pc := m.pc + 2 }) hs noise noise'
      simp only [tick, tickWith_eq, hf, hd, past, hx]
      split <;> exact ⟨rfl, rfl, rfl⟩

theorem lockstep_of_masked : Lockstep SameMachine Moment.Masked := by
  intro e e' op hs h hm
  obtain ⟨m, noise⟩ := e
  obtain ⟨m', noise'⟩ := e'
  cases h
  cases op
  case tick =>
    have h : SameMachine ⟨m, noise⟩ ⟨m, noise'⟩ := rfl
    exact (tick_of_masked h hm).map _
  case run n => exact absurd rfl (hs n)
  case load image =>
    simp only [perform, load]
    split <;> exact ⟨rfl, rfl, rfl⟩
  all_goals exact ⟨rfl, rfl, rfl⟩

end Emulator

-- What an outcome shows, the random source apart.
def Outcome.seen (o : Outcome Emulator α) : α × Machine × Array Record :=
  (o.answer, o.state.machine, o.records)

theorem Outcome.Alike.seen_eq {o o' : Outcome Emulator α} (a : o.Alike Emulator.SameMachine o') :
    o.seen = o'.seen :=
  Prod.ext a.answer <| Prod.ext a.state a.records

namespace Moment

-- What a moment shows, the random source apart.
def seen (t : Moment) : Operation × Machine × Option Instr :=
  (t.op, t.before.machine, t.executed?)

theorem Alike.executed?_eq {t t' : Moment} (a : t.Alike Emulator.SameMachine t') :
    t.executed? = t'.executed? := by
  have ⟨e, op⟩ := t
  have ⟨e', op'⟩ := t'
  have ⟨ho, hb, hr⟩ := a
  cases ho
  cases op
  case tick =>
    have ha : e.tick.answer = e'.tick.answer := Reply.signal.inj hr.answer
    have hb : e.machine = e'.machine := hb
    simp only [executed?, ha, hb]
  all_goals rfl

theorem Alike.seen_eq {t t' : Moment} (a : t.Alike Emulator.SameMachine t') :
    t.seen = t'.seen :=
  Prod.ext a.op <| Prod.ext a.before a.executed?_eq

end Moment

-- If every random byte of the one run is masked by zero, then the other run gives the same answers,
-- goes through the same machines and executes the same instructions.
theorem masked_run_ignores_source (m : Machine) (noise noise' : Noise) (ops : List Operation)
    (hm : ∀ t ∈ Emulator.history ⟨m, noise⟩ ops, t.Masked) :
    (Emulator.outcomes ⟨m, noise⟩ ops).map Outcome.seen =
      (Emulator.outcomes ⟨m, noise'⟩ ops).map Outcome.seen ∧
    (Emulator.history ⟨m, noise⟩ ops).map Moment.seen =
      (Emulator.history ⟨m, noise'⟩ ops).map Moment.seen := by
  have hs : Emulator.SameMachine ⟨m, noise⟩ ⟨m, noise'⟩ := rfl
  have ⟨ho, ht⟩ := Emulator.lockstep_of_masked.outcomes hs hm
  rw [← List.forall₂_eq_eq_eq, ← List.forall₂_eq_eq_eq]
  exact ⟨List.rel_map (fun _ _ a => a.seen_eq) ho, List.rel_map (fun _ _ a => a.seen_eq) ht⟩

-- Two random bytes are masked by zero, and a return fails.
theorem masked_run_ignores_source_twice :
    let ops := [.load [0xC0, 0x00, 0xC1, 0x00, 0x00, 0xEE], .run 3, .countDown, .reset, .tick]
    let zeros : Noise := ⟨fun _ => 0, 0⟩
    let ones : Noise := ⟨fun _ => 0xFF, 0⟩
    let h := Emulator.history ⟨.fresh, zeros⟩ ops
    (∀ t ∈ h, t.Masked) ∧ some (.random 1 0) ∈ h.map (·.executed?) ∧
    (Emulator.outcomes ⟨.fresh, zeros⟩ ops).map Outcome.seen =
      (Emulator.outcomes ⟨.fresh, ones⟩ ops).map Outcome.seen := by
  intro ops zeros ones h
  have ⟨hm, hx⟩ : (∀ t ∈ h, t.Masked) ∧ some (.random 1 0) ∈ h.map (·.executed?) := by
    decide +kernel
  have ⟨ho, _⟩ := masked_run_ignores_source .fresh zeros ones ops hm
  exact ⟨hm, hx, ho⟩

end ChipEight
