import ChipEight.Proofs.Emulator.Tick

namespace ChipEight

-- An operation and the emulator it is performed on.
structure Moment where
  before : Emulator
  op     : Operation

-- A run is no operation of its own, it is a number of ticks.
def Operation.Single (op : Operation) : Prop :=
  ∀ n, op ≠ .run n

-- The parts of a machine that are only written by instructions.
structure Machine.Rests (m m' : Machine) : Prop where
  regs    : m'.regs = m.regs
  index   : m'.index = m.index
  stack   : m'.stack = m.stack
  ram     : m'.ram = m.ram
  display : m'.display = m.display

theorem Machine.withImage_nil : Machine.withImage [] = .fresh := by
  simp only [withImage, fresh, Memory.writeSpan]

namespace Emulator

variable {e : Emulator}

theorem load_of_fits (hl : image.length ≤ Memory.programCapacity) :
    e.load image =
      { answer  := .ok ()
        state   := { e with machine := .withImage image }
        records := #[.wasReset, .loaded image.length] } := by
  simp [load, hl]

theorem load_of_oversized (hl : ¬image.length ≤ Memory.programCapacity) :
    e.load image =
      { answer := .error (.oversized image.length Memory.programCapacity), state := e } := by
  simp [load, hl]

end Emulator

namespace Moment

def after (t : Moment) : Emulator :=
  (t.before.perform t.op).state

-- The instruction of a tick that succeeded.
def executed? (t : Moment) : Option Instr :=
  match t.op, t.before.tick.answer with
  | .tick, .ok _ => t.before.machine.instr?
  | _,     _     => none

-- A reset, or the loading of a program that fits.
def restarts (t : Moment) : Bool :=
  match t.op with
  | .reset      => true
  | .load image => (t.before.load image).answer.isOk
  | _           => false

-- The program that a restart puts into memory.
def image (t : Moment) : List UInt8 :=
  match t.op with
  | .load image => image
  | _           => []

-- What a moment is to the parts that are only written by instructions.
inductive Kind (t : Moment) : Prop
  | restart (hr : t.restarts) (h : ∃ image, t.after.machine = .withImage image)
  | execute (hr : t.restarts = false) (hi : t.executed? = some i)
      (hx : t.before.past.machine.execute t.before.noise i = .ok (signal, t.after.machine))
  | rest (hr : t.restarts = false) (hi : t.executed? = none)
      (h : t.before.machine.Rests t.after.machine)

variable {t : Moment}

theorem executed?_eq_some_iff :
    t.executed? = some i ↔
      t.op = .tick ∧ (∃ signal, t.before.tick.answer = .ok signal) ∧
      t.before.machine.instr? = some i := by
  simp only [executed?]
  split <;> simp_all

theorem restarts_of_executed? (h : t.executed? = some i) : t.restarts = false := by
  simp only [restarts, executed?_eq_some_iff.mp h |>.left]

theorem restarts_load_iff {image : List UInt8} :
    (Moment.mk e (.load image)).restarts ↔ image.length ≤ Memory.programCapacity := by
  by_cases hl : image.length ≤ Memory.programCapacity <;>
    simp [restarts, Emulator.load, hl, Except.isOk, Except.toBool]

theorem after_of_restarts (hr : t.restarts) :
    t.image.length ≤ Memory.programCapacity ∧ t.after.machine = .withImage t.image := by
  obtain ⟨e, op⟩ := t
  cases op
  case reset => exact ⟨Nat.zero_le _, Machine.withImage_nil.symm⟩
  case load image =>
    have hl := restarts_load_iff.mp hr
    refine ⟨hl, ?_⟩
    simp only [after, Emulator.perform, Emulator.load_of_fits hl]
    rfl
  all_goals contradiction

theorem after_of_load {image : List UInt8} (h : t.op = .load image) (hr : ¬t.restarts) :
    t.after = t.before := by
  obtain ⟨e, op⟩ := t
  subst h
  have hl := mt restarts_load_iff.mpr hr
  simp only [after, Emulator.perform, Emulator.load_of_oversized hl]
  rfl

-- A tick that fails moves at most the program counter.
theorem after_of_fault (h : t.op = .tick) (hi : t.executed? = none) :
    t.after = t.before ∨ t.after = t.before.past := by
  obtain ⟨e, op⟩ := t
  subst h
  have ht : e.Ticks e.tick.answer (Moment.mk e .tick).after := e.ticks
  generalize (Moment.mk e .tick).after = s at ht
  cases ha : e.tick.answer
  case error =>
    rw [ha] at ht
    cases ht
    case lost              => exact .inl rfl
    case unknown | refused => exact .inr rfl
  case ok =>
    rw [ha] at ht
    cases ht
    case executed hi' _ => simp [executed?, ha, hi'] at hi

theorem execute_of_executed? (h : t.executed? = some i) :
    ∃ signal, t.before.past.machine.execute t.before.noise i = .ok (signal, t.after.machine) := by
  have ⟨ho, ⟨signal, ha⟩, hi⟩ := executed?_eq_some_iff.mp h
  obtain ⟨e, op⟩ := t
  subst ho
  have ⟨s, hs, ht⟩ := Emulator.ticks_of_answer ha
  rw [show (Moment.mk e .tick).after = s from hs]
  cases ht
  case executed hi' hx =>
    cases hi.symm.trans hi'
    exact ⟨signal, hx⟩

-- An instruction that is fetched is executed or refused.
theorem executed?_or_refuses (hi : e.machine.instr? = some i) :
    (Moment.mk e .tick).executed? = some i ∨ ∃ f, e.past.machine.Refuses i f := by
  cases hx : e.past.machine.execute e.noise i
  case ok =>
    have ⟨ha, _⟩ := Emulator.tick_of_execute hi hx
    exact .inl <| executed?_eq_some_iff.mpr ⟨rfl, ⟨_, ha⟩, hi⟩
  case error f => exact .inr ⟨f, .of_execute hx⟩

-- What is known of executed instructions holds of those that are fetched, if it holds of the
-- refused ones too.
theorem of_instr? {p : Instr → Prop} (hx : ∀ i ∈ (Moment.mk e .tick).executed?, p i)
    (hr : ∀ f, e.past.machine.Refuses i f → p i) (hi : e.machine.instr? = some i) : p i := by
  cases executed?_or_refuses hi
  case inl h => exact hx i h
  case inr h =>
    have ⟨f, h⟩ := h
    exact hr f h

theorem kind_tick (h : t.op = .tick) : t.Kind := by
  have hr : t.restarts = false := by simp [restarts, h]
  cases hi : t.executed?
  case none =>
    refine .rest hr hi ?_
    rcases after_of_fault h hi with ha | ha
    · rw [ha]; exact ⟨rfl, rfl, rfl, rfl, rfl⟩
    · rw [ha]; exact ⟨rfl, rfl, rfl, rfl, rfl⟩
  case some =>
    have ⟨_, hx⟩ := execute_of_executed? hi
    exact .execute hr hi hx

theorem kind (h : t.op.Single) : t.Kind := by
  cases hr : t.restarts
  case true => exact .restart hr ⟨t.image, after_of_restarts hr |>.right⟩
  case false =>
    obtain ⟨e, op⟩ := t
    cases op
    case tick => exact kind_tick rfl
    case run n => exact absurd rfl (h n)
    case countDown | switchKey | releaseKeys => exact .rest hr rfl ⟨rfl, rfl, rfl, rfl, rfl⟩
    case reset => contradiction
    case load =>
      refine .rest hr rfl ?_
      rw [after_of_load rfl (by simp [hr])]
      exact ⟨rfl, rfl, rfl, rfl, rfl⟩

end Moment

namespace Emulator

-- The moments of a run, which ends with the first tick that fails.
def runMoments : Nat → Emulator → List Moment
  | 0,     _ => []
  | n + 1, e =>
    match e.tick.answer with
    | .ok _    => runMoments n e.tick.state ++ [⟨e, .tick⟩]
    | .error _ => [⟨e, .tick⟩]

def moments (e : Emulator) : Operation → List Moment
  | .run n => runMoments n e
  | op     => [⟨e, op⟩]

-- The newest moment comes first.
def history (e : Emulator) : List Operation → List Moment
  | []        => []
  | op :: ops => (e.perform op).state.history ops ++ e.moments op

-- A history leads from the emulator before its oldest moment to the one after its newest.
inductive Leads (e : Emulator) : List Moment → Emulator → Prop
  | nil  : Leads e [] e
  | cons (l : Leads e h t.before) (hs : t.op.Single) : Leads e (t :: h) t.after

namespace Leads

theorem single (hs : op.Single) : Leads e [⟨e, op⟩] (e.perform op).state :=
  .cons (t := ⟨e, op⟩) .nil hs

theorem single_of_mem (l : Leads e h e') (ht : t ∈ h) : t.op.Single := by
  induction l
  case nil => contradiction
  case cons hs hi =>
    cases ht
    case head   => exact hs
    case tail h => exact hi h

theorem append (l₁ : Leads e₁ h₁ e₂) (l₂ : Leads e₂ h₂ e₃) : Leads e₁ (h₂ ++ h₁) e₃ := by
  induction l₂
  case nil => exact l₁
  case cons hs hi => exact .cons hi hs

theorem of_cons (l : Leads e (t :: h) e') : Leads e h t.before ∧ e' = t.after := by
  cases l
  case cons _ l => exact ⟨l, rfl⟩

theorem exists_of_append (l : Leads e (newer ++ older) e') :
    ∃ e'', Leads e older e'' ∧ Leads e'' newer e' := by
  generalize hh : newer ++ older = h at l
  induction l generalizing newer
  case nil =>
    obtain ⟨rfl, rfl⟩ := List.append_eq_nil_iff.mp hh
    exact ⟨_, .nil, .nil⟩
  case cons l hs hi =>
    cases newer
    case nil =>
      subst hh
      exact ⟨_, .cons l hs, .nil⟩
    case cons =>
      rw [List.cons_append] at hh
      obtain ⟨rfl, ht⟩ := List.cons.inj hh
      have ⟨_, l₁, l₂⟩ := hi ht
      exact ⟨_, l₁, .cons l₂ hs⟩

-- Where a moment either writes a value or keeps it, the value is the one that was written last.
theorem eq_last_write (value : Emulator → α) (write? : Moment → Option α)
    (hw : ∀ t : Moment, t.op.Single → value t.after = (write? t).getD (value t.before))
    (l : Leads e h e') : value e' = (h.findSome? write?).getD (value e) := by
  induction l
  case nil => rfl
  case cons t _ hs hi =>
    rw [hw t hs, hi, List.findSome?_cons]
    cases write? t <;> rfl

end Leads

theorem leads_run : Leads e (runMoments n e) (run.go n e signal records).state := by
  induction n generalizing e signal records
  case zero => exact .nil
  case succ n hi =>
    have hs : Leads e [⟨e, .tick⟩] e.tick.state := .single nofun
    simp only [run.go, runMoments]
    cases e.tick.answer
    case error => exact hs
    case ok    => exact hs.append hi

theorem leads_moments (e : Emulator) (op : Operation) :
    Leads e (e.moments op) (e.perform op).state := by
  cases op
  case run => exact leads_run
  all_goals exact .single nofun

theorem leads_history (e : Emulator) (ops : List Operation) :
    Leads e (e.history ops) (e.performAll ops) := by
  induction ops generalizing e
  case nil => exact .nil
  case cons op ops hi => exact .append (e.leads_moments op) (hi _)

theorem moments_single (hs : op.Single) : moments e op = [⟨e, op⟩] := by
  cases op
  case run n => exact absurd rfl (hs n)
  all_goals rfl

theorem op_mem_of_mem_history (hs : ∀ op ∈ ops, op.Single) (ht : t ∈ history e ops) :
    t.op ∈ ops := by
  induction ops generalizing e
  case nil => contradiction
  case cons op ops hi =>
    have ⟨ho, hs⟩ := List.forall_mem_cons.mp hs
    rw [history, moments_single ho] at ht
    rcases List.mem_append.mp ht with ht | ht
    · exact .tail _ <| hi hs ht
    · rw [List.mem_singleton.mp ht]
      exact .head _

theorem performAll_append (e : Emulator) (as bs : List Operation) :
    e.performAll (as ++ bs) = (e.performAll as).performAll bs :=
  List.foldl_append

-- The emulator after a number of ticks, whatever their answers are.
def afterTicks (e : Emulator) (n : Nat) : Emulator :=
  e.performAll (.replicate n .tick)

theorem afterTicks_succ (e : Emulator) (n : Nat) :
    e.afterTicks (n + 1) = (e.afterTicks n).tick.state := by
  rw [afterTicks, List.replicate_succ', performAll_append]
  rfl

theorem afterTicks_add (e : Emulator) (m n : Nat) :
    e.afterTicks (m + n) = (e.afterTicks m).afterTicks n := by
  rw [afterTicks, List.replicate_add, performAll_append]
  rfl

theorem history_append (e : Emulator) (as bs : List Operation) :
    e.history (as ++ bs) = (e.performAll as).history bs ++ e.history as := by
  induction as generalizing e
  case nil => exact (List.append_nil _).symm
  case cons op as hi =>
    simp only [List.cons_append, history, hi, List.append_assoc]
    rfl

theorem history_concat (e : Emulator) (ops : List Operation) (hs : op.Single) :
    e.history (ops ++ [op]) = ⟨e.performAll ops, op⟩ :: e.history ops := by
  have hm : (e.performAll ops).history [op] = [⟨e.performAll ops, op⟩] := moments_single hs
  simp only [history_append, hm, List.singleton_append]

end Emulator
end ChipEight
