import ChipEight.Proofs.Emulator.History
import Mathlib.Algebra.GroupWithZero.Nat
import Mathlib.Data.List.Induction

namespace ChipEight

-- After a fault nothing more is done.
def Outcome.andThen (o : Outcome.Tick) (next : Emulator → Outcome.Tick) : Outcome.Tick :=
  match o.answer with
  | .error _ => o
  | .ok _    => { next o.state with records := o.records ++ (next o.state).records }

namespace Emulator

variable {e : Emulator} {o : Outcome.Tick} {next : Emulator → Outcome.Tick}

theorem andThen_of_error (h : o.answer = .error f) : o.andThen next = o := by
  simp only [Outcome.andThen, h]

theorem andThen_of_ok (h : o.answer = .ok signal) :
    o.andThen next = { next o.state with records := o.records ++ (next o.state).records } := by
  simp only [Outcome.andThen, h]

-- What a run has on record already does not matter for the rest of it.
theorem go_eq (n : Nat) (signal : Signal) (records : Array Record) :
    run.go n e signal records =
      { run.go n e signal #[] with records := records ++ (run.go n e signal #[]).records } := by
  induction n generalizing e signal records
  case zero => simp [run.go]
  case succ n hi =>
    simp only [run.go]
    split
    case h_1 => simp
    case h_2 => rw [hi _ (records ++ _), hi _ (#[] ++ _)]; simp [Array.append_assoc]

-- A run that is not empty does not show the signal that it starts with.
theorem go_add (m : Nat) (hn : 1 ≤ n) (signal : Signal) (records : Array Record) :
    run.go (m + n) e signal records = (run.go m e signal records).andThen (·.run n) := by
  induction m generalizing e signal records
  case zero =>
    have ⟨n, hn⟩ := Nat.exists_eq_succ_of_ne_zero (Nat.ne_of_gt hn)
    subst hn
    rw [Nat.zero_add, go_eq]
    rfl
  case succ m hi =>
    rw [Nat.succ_add, run.go, run.go]
    split
    case h_1 => exact (andThen_of_error rfl).symm
    case h_2 => exact hi ..

theorem run_add (e : Emulator) (m : Nat) (hn : 1 ≤ n) :
    e.run (m + n) = (e.run m).andThen (·.run n) :=
  go_add m hn .next #[]

theorem run_one (e : Emulator) : e.run 1 = e.tick := by
  simp only [run, run.go]
  split <;> simp [← ‹e.tick.answer = _›]

theorem run_succ (e : Emulator) (n : Nat) : e.run (n + 1) = (e.run n).andThen tick := by
  rw [run_add e n (Nat.le_refl 1)]
  exact congrArg _ <| funext run_one

theorem andThen_run_zero (o : Outcome.Tick) :
    o.andThen (·.run 0) = { o with answer := o.answer.map fun _ => .next } := by
  cases h : o.answer
  case error => rw [andThen_of_error h, Except.map, ← h]
  case ok    => rw [andThen_of_ok h, Except.map]; simp [run, run.go]

-- An empty run between two others changes nothing at all.
theorem andThen_run_zero_andThen (o : Outcome.Tick) (next : Emulator → Outcome.Tick) :
    (o.andThen (·.run 0)).andThen next = o.andThen next := by
  rw [andThen_run_zero]
  cases h : o.answer
  case error => rw [andThen_of_error h, andThen_of_error rfl, Except.map, ← h]
  case ok    => rw [andThen_of_ok h, andThen_of_ok rfl]

-- Runs of these lengths, one after the other, up to the first fault.
def batches (e : Emulator) (ns : List Nat) : Outcome.Tick :=
  ns.foldl (fun o n => o.andThen (·.run n)) (e.run 0)

theorem batches_concat (e : Emulator) (ns : List Nat) (n : Nat) :
    e.batches (ns ++ [n]) = (e.batches ns).andThen (·.run n) :=
  List.foldl_concat ..

theorem batches_eq_run (e : Emulator) (ns : List Nat) (hn : 1 ≤ n) :
    e.batches (ns ++ [n]) = e.run (ns.sum + n) := by
  induction ns using List.reverseRecOn generalizing n
  case nil => exact (run_add e 0 hn).symm
  case append_singleton ns k hi =>
    rw [batches_concat, List.sum_append, List.sum_singleton]
    cases k
    case zero => rw [batches_concat, andThen_run_zero_andThen, ← batches_concat, hi hn, Nat.add_zero]
    case succ k => rw [hi (Nat.le_add_left 1 k), run_add e _ hn]

-- None of `n` ticks fails.
def Succeeds (e : Emulator) (n : Nat) : Prop :=
  ∀ j < n, ∃ signal, (e.afterTicks j).tick.answer = .ok signal

theorem succeeds_succ_iff :
    e.Succeeds (n + 1) ↔
      e.Succeeds n ∧ ∃ signal, (e.afterTicks n).tick.answer = .ok signal := by
  simp only [Succeeds, Nat.lt_succ_iff_lt_or_eq, or_imp, forall_and, forall_eq]

-- The tick after `k` others fails, and none of these did.
structure FailsFirst (e : Emulator) (k : Nat) (f : Fault) : Prop where
  earlier : e.Succeeds k
  answer  : (e.afterTicks k).tick.answer = .error f

theorem Succeeds.run (h : e.Succeeds n) :
    (∃ signal, (e.run n).answer = .ok signal) ∧ (e.run n).state = e.afterTicks n := by
  induction n
  case zero => exact ⟨⟨_, rfl⟩, rfl⟩
  case succ n hi =>
    have ⟨h, hn⟩ := succeeds_succ_iff.mp h
    have ⟨⟨_, ha⟩, hs⟩ := hi h
    rw [run_succ, andThen_of_ok ha, hs, afterTicks_succ]
    exact ⟨hn, rfl⟩

theorem FailsFirst.run_eq (ff : e.FailsFirst k f) (hk : k < n) :
    e.run n = e.run (k + 1) ∧ (e.run n).answer = .error f ∧
      (e.run n).state = (e.afterTicks k).tick.state := by
  have ⟨⟨_, ha⟩, hs⟩ := ff.earlier.run
  have hr : e.run (k + 1) = (e.run k).andThen tick := run_succ e k
  rw [andThen_of_ok ha, hs] at hr
  have he : e.run n = e.run (k + 1) := by
    match Nat.exists_eq_add_of_le hk with
    | ⟨0,     hn⟩ => rw [hn, Nat.add_zero]
    | ⟨d + 1, hn⟩ =>
      rw [hn, run_add e _ (Nat.le_add_left 1 d), hr]
      exact andThen_of_error ff.answer
  rw [he, hr]
  exact ⟨rfl, ff.answer, rfl⟩

theorem succeeds_or_failsFirst (e : Emulator) (n : Nat) :
    e.Succeeds n ∨ ∃ k < n, ∃ f, e.FailsFirst k f := by
  induction n
  case zero => exact .inl nofun
  case succ n hi =>
    rcases hi with h | ⟨k, hk, ff⟩
    case inr => exact .inr ⟨k, Nat.lt_succ_of_lt hk, ff⟩
    case inl =>
      cases ha : (e.afterTicks n).tick.answer
      case error f => exact .inr ⟨n, Nat.lt_succ_self n, f, h, ha⟩
      case ok      => exact .inl <| succeeds_succ_iff.mpr ⟨h, _, ha⟩

theorem run_eq_error_iff : (e.run n).answer = .error f ↔ ∃ k < n, e.FailsFirst k f := by
  constructor
  case mp =>
    intro ha
    rcases e.succeeds_or_failsFirst n with h | ⟨k, hk, f', ff⟩
    case inl =>
      have ⟨⟨_, ha'⟩, _⟩ := h.run
      rw [ha] at ha'
      contradiction
    case inr =>
      have ⟨_, ha', _⟩ := ff.run_eq hk
      cases ha.symm.trans ha'
      exact ⟨k, hk, ff⟩
  case mpr =>
    intro ⟨k, hk, ff⟩
    have ⟨_, ha, _⟩ := ff.run_eq hk
    exact ha

theorem run_succ_eq_ok_iff :
    (e.run (n + 1)).answer = .ok signal ↔
      e.Succeeds n ∧ (e.afterTicks n).tick.answer = .ok signal := by
  rw [run_succ]
  rcases e.succeeds_or_failsFirst n with h | ⟨k, hk, f, ff⟩
  case inl =>
    have ⟨⟨_, ha⟩, hs⟩ := h.run
    rw [andThen_of_ok ha, hs]
    exact (and_iff_right h).symm
  case inr =>
    have ⟨_, ha, _⟩ := ff.run_eq hk
    rw [andThen_of_error ha, ha]
    refine iff_of_false nofun fun ⟨h, _⟩ => ?_
    have ⟨_, hk⟩ := h k hk
    rw [ff.answer] at hk
    contradiction

theorem batches_replicate_one (e : Emulator) (n : Nat) : e.batches (.replicate n 1) = e.run n := by
  cases n
  case zero => rfl
  case succ n =>
    rw [List.replicate_succ', batches_eq_run e _ (Nat.le_refl 1), List.sum_replicate_nat,
      Nat.mul_one]

theorem FailsFirst.history_eq (ff : e.FailsFirst k f) (hk : k < n) :
    e.history [.run n] = e.history (.replicate (k + 1) .tick) := by
  have hr : e.history [.run n] = runMoments n e := List.nil_append _
  rw [hr]
  clear hr
  induction k generalizing e n
  case zero =>
    obtain ⟨n, hn⟩ := Nat.exists_eq_succ_of_ne_zero (Nat.ne_of_gt hk)
    have ha : e.tick.answer = .error f := ff.answer
    rw [hn, runMoments, ha]
    rfl
  case succ k hi =>
    obtain ⟨n, hn⟩ := Nat.exists_eq_succ_of_ne_zero (Nat.ne_zero_of_lt hk)
    obtain ⟨signal, ha⟩ := ff.earlier 0 (Nat.succ_pos k)
    have ha : e.tick.answer = .ok signal := ha
    have ff : e.tick.state.FailsFirst k f :=
      ⟨fun j hj => ff.earlier (j + 1) (Nat.succ_lt_succ hj), ff.answer⟩
    rw [hn, runMoments, ha]
    simp only
    rw [hi ff (by omega)]
    rfl

-- A number of ticks can be split into runs in any way, down to single ticks. They end with the
-- first tick that fails, and else show the signal of the last one.
theorem runs_follow_ticks (e : Emulator) :
    (∀ m n, 1 ≤ n → e.run (m + n) = (e.run m).andThen (·.run n)) ∧
    (∀ ns n, 1 ≤ n → e.batches (ns ++ [n]) = e.run (ns.sum + n)) ∧
    (∀ n, e.batches (.replicate n 1) = e.run n) ∧
    e.run 1 = e.tick ∧
    (∀ n signal, (e.run (n + 1)).answer = .ok signal ↔
      e.Succeeds n ∧ (e.afterTicks n).tick.answer = .ok signal) ∧
    (∀ n signal, (e.run n).answer = .ok signal → (e.run n).state = e.afterTicks n) ∧
    (∀ n f, (e.run n).answer = .error f ↔ ∃ k < n, e.FailsFirst k f) ∧
    (∀ n k f, k < n → e.FailsFirst k f →
      (e.run n).state = (e.afterTicks k).tick.state ∧
      e.history [.run n] = e.history (.replicate (k + 1) .tick)) := by
  refine ⟨fun m n => e.run_add m, fun ns n => e.batches_eq_run ns, e.batches_replicate_one,
    e.run_one, fun n signal => run_succ_eq_ok_iff, ?_, fun n f => run_eq_error_iff, ?_⟩
  · intro n signal ha
    rcases e.succeeds_or_failsFirst n with h | ⟨k, hk, f, ff⟩
    case inl => exact h.run.right
    case inr =>
      rw [run_eq_error_iff.mpr ⟨k, hk, ff⟩] at ha
      contradiction
  · intro n k f hk ff
    obtain ⟨_, _, hs⟩ := ff.run_eq hk
    exact ⟨hs, ff.history_eq hk⟩

-- The second of five ticks fails, in the third of three runs.
theorem runs_follow_ticks_underflow :
    let image := [0x60, 0x01, 0x00, 0xEE, 0x61, 0x02]
    let e := (create ⟨fun _ => 0, 0⟩).performAll [.load image]
    let o := e.batches [1, 0, 4]
    o.answer = .error (.stackUnderflow 0x202) ∧ o.state = (e.afterTicks 1).tick.state ∧
    o.state.machine.reg 1 = 0 := by
  intro image e o
  have ⟨ha, hf, hr⟩ : (∃ signal, (e.afterTicks 0).tick.answer = .ok signal) ∧
      (e.afterTicks 1).tick.answer = .error (.stackUnderflow 0x202) ∧
      (e.afterTicks 1).tick.state.machine.reg 1 = 0 := by
    refine ⟨⟨.next, ?_⟩, ?_⟩ <;> decide +kernel
  have ff : e.FailsFirst 1 (.stackUnderflow 0x202) := by
    refine ⟨fun j hj => ?_, hf⟩
    rwa [Nat.lt_one_iff.mp hj]
  have ⟨_, hb, _, _, _, _, hf, hs⟩ := runs_follow_ticks e
  have ho : o = e.run 5 := hb [1, 0] 4 (by decide)
  have ⟨hs, _⟩ := hs 5 1 _ (by decide) ff
  rw [ho, hs]
  exact ⟨(hf 5 _).mpr ⟨1, by decide, ff⟩, rfl, hr⟩

end Emulator
end ChipEight
