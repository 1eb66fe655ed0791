import ChipEight.Proofs.Emulator.History
import Mathlib.Data.List.Forall2

namespace ChipEight

variable {R : Emulator → Emulator → Prop} {P : Moment → Prop}

-- The same answer and the same records, and related states.
structure Outcome.Alike (R : Emulator → Emulator → Prop) (o o' : Outcome Emulator α) : Prop where
  answer  : o.answer = o'.answer
  records : o.records = o'.records
  state   : R o.state o'.state

theorem Outcome.Alike.map {o o' : Outcome Emulator α} (a : o.Alike R o') (f : α → β) :
    (o.map f).Alike R (o'.map f) :=
  ⟨congrArg f a.answer, a.records, a.state⟩

-- The same operation on related emulators, with outcomes that are alike.
structure Moment.Alike (R : Emulator → Emulator → Prop) (t t' : Moment) : Prop where
  op      : t.op = t'.op
  before  : R t.before t'.before
  outcome : (t.before.perform t.op).Alike R (t'.before.perform t'.op)

namespace Emulator

def outcomes (e : Emulator) : List Operation → List (Outcome Emulator Reply)
  | []        => []
  | op :: ops => e.perform op :: (e.perform op).state.outcomes ops

-- Single operations keep the relation, at least at the moments in question.
def Lockstep (R : Emulator → Emulator → Prop) (P : Moment → Prop) : Prop :=
  ∀ e e' op, op.Single → R e e' → P ⟨e, op⟩ → (e.perform op).Alike R (e'.perform op)

namespace Lockstep

variable {e e' : Emulator}

theorem single (l : Lockstep R P) (hs : op.Single) (h : R e e') (hp : P ⟨e, op⟩) :
    List.Forall₂ (Moment.Alike R) [⟨e, op⟩] [⟨e', op⟩] :=
  .cons ⟨rfl, h, l e e' op hs h hp⟩ .nil

theorem tick (l : Lockstep R P) (h : R e e') (hp : P ⟨e, .tick⟩) : e.tick.Alike R e'.tick := by
  have a := l e e' .tick (by simp [Operation.Single]) h hp
  exact ⟨Reply.signal.inj a.answer, a.records, a.state⟩

theorem run (l : Lockstep R P) (signal : Signal) (records : Array Record) (h : R e e')
    (hp : ∀ t ∈ runMoments n e, P t) :
    (run.go n e signal records).Alike R (run.go n e' signal records) ∧
    List.Forall₂ (Moment.Alike R) (runMoments n e) (runMoments n e') := by
  induction n generalizing e e' signal records
  case zero => exact ⟨⟨rfl, rfl, h⟩, .nil⟩
  case succ n hi =>
    have ht : P ⟨e, .tick⟩ := hp _ <| by
      rw [runMoments]
      split <;> simp
    have a := l.tick h ht
    have hm : List.Forall₂ (Moment.Alike R) [⟨e, .tick⟩] [⟨e', .tick⟩] :=
      l.single (by simp [Operation.Single]) h ht
    simp only [runMoments, run.go, ← a.answer, ← a.records] at hp ⊢
    cases ha : e.tick.answer
    case error => exact ⟨⟨rfl, rfl, a.state⟩, hm⟩
    case ok signal' =>
      rw [ha] at hp
      obtain ⟨ho, hl⟩ := hi signal' (records ++ e.tick.records) a.state fun t ht =>
        hp t <| List.mem_append_left _ ht
      exact ⟨ho, List.rel_append hl hm⟩

theorem perform (l : Lockstep R P) (h : R e e') (hp : ∀ t ∈ e.moments op, P t) :
    (e.perform op).Alike R (e'.perform op) ∧
    List.Forall₂ (Moment.Alike R) (e.moments op) (e'.moments op) := by
  cases op
  case run n =>
    have ⟨a, hm⟩ := l.run .next #[] h hp
    exact ⟨a.map _, hm⟩
  all_goals
    have ht := hp _ (.head _)
    refine ⟨l _ _ _ ?_ h ht, l.single ?_ h ht⟩ <;> simp [Operation.Single]

-- The two run side by side, from outcome to outcome and from moment to moment.
theorem outcomes (l : Lockstep R P) (h : R e e') (hp : ∀ t ∈ e.history ops, P t) :
    List.Forall₂ (Outcome.Alike R) (e.outcomes ops) (e'.outcomes ops) ∧
    List.Forall₂ (Moment.Alike R) (e.history ops) (e'.history ops) := by
  induction ops generalizing e e'
  case nil => exact ⟨.nil, .nil⟩
  case cons op ops hi =>
    have ⟨a, hm⟩ := l.perform h fun t ht => hp t <| List.mem_append_right _ ht
    have ⟨ho, hl⟩ := hi a.state fun t ht => hp t <| List.mem_append_left _ ht
    exact ⟨.cons a ho, List.rel_append hl hm⟩

end Lockstep
end Emulator
end ChipEight
