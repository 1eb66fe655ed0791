import ChipEight.Proofs.Emulator.Scheduling

namespace ChipEight

namespace CallStack

variable {s t : CallStack}

-- The same addresses are live, whatever the other slots hold.
structure SameLive (s t : CallStack) : Prop where
  depth : s.depth = t.depth
  slots : ∀ i, i < s.depth → s.slots[i]? = t.slots[i]?

theorem getElem?_toList (s : CallStack) (i : Nat) :
    s.toList[i]? = if i < s.depth then s.slots[i]? else none := by
  simp only [toList, List.getElem?_take, Vector.getElem?_toList]

theorem sameLive_iff : s.SameLive t ↔ s.toList = t.toList := by
  constructor
  case mp =>
    intro h
    apply List.ext_getElem?
    intro i
    rw [getElem?_toList, getElem?_toList, ← h.depth]
    split
    case isTrue hi => exact h.slots i hi
    case isFalse   => rfl
  case mpr =>
    intro h
    have hd : s.depth = t.depth := by rw [← length_toList, ← length_toList, h]
    refine ⟨hd, fun i hi => ?_⟩
    have hs : s.toList[i]? = t.toList[i]? := by rw [h]
    simpa only [getElem?_toList, ← hd, if_pos hi] using hs

theorem SameLive.refl (s : CallStack) : s.SameLive s :=
  ⟨rfl, fun _ _ => rfl⟩

-- A pushed address overwrites what the two stacks may differ in.
theorem SameLive.push? (h : s.SameLive t) (a : UInt16) :
    Option.Rel SameLive (s.push? a) (t.push? a) := by
  have h := sameLive_iff.mp h
  cases hs : s.push? a
  case none =>
    have ht : t.push? a = none := push?_eq_none_iff.mpr <| h ▸ push?_eq_none_iff.mp hs
    rw [ht]
    exact .none
  case some s' =>
    cases ht : t.push? a
    case none =>
      have hn : s.push? a = none := push?_eq_none_iff.mpr <| h ▸ push?_eq_none_iff.mp ht
      rw [hn] at hs
      contradiction
    case some t' =>
      refine .some <| sameLive_iff.mpr ?_
      rw [toList_push hs, toList_push ht, h]

theorem SameLive.pop? (h : s.SameLive t) :
    Option.Rel (fun p q => p.1 = q.1 ∧ p.2.SameLive q.2) s.pop? t.pop? := by
  have h := sameLive_iff.mp h
  cases hs : s.pop?
  case none =>
    have ht : t.pop? = none := pop?_eq_none_iff.mpr <| h ▸ pop?_eq_none_iff.mp hs
    rw [ht]
    exact .none
  case some p =>
    cases ht : t.pop?
    case none =>
      have hn : s.pop? = none := pop?_eq_none_iff.mpr <| h ▸ pop?_eq_none_iff.mp ht
      rw [hn] at hs
      contradiction
    case some q =>
      rw [toList_pop hs, toList_pop ht] at h
      have ⟨hl, ha⟩ := List.append_inj' h rfl
      exact .some ⟨List.singleton_inj.mp ha, sameLive_iff.mpr hl⟩

end CallStack

namespace Machine

-- The machines differ at most in what no program can see.
def LooksLike (m m' : Machine) : Prop :=
  ∃ sound waiting stack, m.stack.SameLive stack ∧ m' = { m with sound, waiting, stack }

theorem LooksLike.refl (m : Machine) : m.LooksLike m :=
  ⟨_, _, _, .refl m.stack, rfl⟩

-- An instruction fails with the same fault, or gives the same signal and machines that look alike.
inductive EndsLike : Except Fault (Signal × Machine) → Except Fault (Signal × Machine) → Prop
  | error : EndsLike (.error f) (.error f)
  | ok (h : LooksLike m m') : EndsLike (.ok (signal, m)) (.ok (signal, m'))

variable {m m' n n' : Machine}

theorem EndsLike.onSpan (h : m.index = m'.index) (len : Nat) (signal : Signal)
    (hn : n.LooksLike n') : EndsLike (m.onSpan len (signal, n)) (m'.onSpan len (signal, n')) := by
  simp only [Machine.onSpan, h]
  split
  · exact .ok hn
  · exact .error

theorem LooksLike.execute (h : m.LooksLike m') (noise : Noise) (i : Instr) :
    EndsLike (m.execute noise i) (m'.execute noise i) := by
  obtain ⟨sound, waiting, stack, hs, rfl⟩ := h
  cases i
  case call nnn =>
    have hp := hs.push? m.pc
    simp only [Machine.execute]
    generalize m.stack.push? m.pc = s, stack.push? m.pc = t at hp
    cases hp
    case none   => exact .error
    case some h => exact .ok ⟨_, _, _, h, rfl⟩
  case ret =>
    have hp := hs.pop?
    simp only [Machine.execute]
    generalize m.stack.pop? = s, stack.pop? = t at hp
    cases hp
    case none => exact .error
    case some p q h =>
      obtain ⟨a, s⟩ := p
      obtain ⟨b, t⟩ := q
      obtain ⟨rfl, h⟩ := h
      exact .ok ⟨_, _, _, h, rfl⟩
  case skip c =>
    have hc : Machine.holds { m with sound, waiting, stack } c = m.holds c := by cases c <;> rfl
    simp only [Machine.execute, hc]
    split <;> exact .ok ⟨_, _, _, hs, rfl⟩
  case alu op x y =>
    have hr (x : UInt8) : Machine.reg { m with sound, waiting, stack } x = m.reg x := rfl
    simp only [Machine.execute, hr]
    split <;> exact .ok ⟨_, _, _, hs, rfl⟩
  case waitKey x =>
    simp only [Machine.execute]
    split <;> exact .ok ⟨_, _, _, hs, rfl⟩
  case draw x y n  => exact .onSpan rfl n.toNat .draw ⟨_, _, _, hs, rfl⟩
  case digits x    => exact .onSpan rfl 3 .next ⟨_, _, _, hs, rfl⟩
  case save x      => exact .onSpan rfl (x.toNat + 1) .next ⟨_, _, _, hs, rfl⟩
  case restore x   => exact .onSpan rfl (x.toNat + 1) .next ⟨_, _, _, hs, rfl⟩
  all_goals exact .ok ⟨_, _, _, hs, rfl⟩

end Machine

namespace Emulator

variable {e e' : Emulator}

-- A program can tell neither the machines nor the random sources apart.
structure LooksLike (e e' : Emulator) : Prop where
  machine : e.machine.LooksLike e'.machine
  noise   : e.noise = e'.noise

theorem LooksLike.tick (h : e.LooksLike e') : e.tick.Alike LooksLike e'.tick := by
  obtain ⟨m, noise⟩ := e
  obtain ⟨m', noise'⟩ := e'
  obtain ⟨⟨sound, waiting, stack, hs, rfl⟩, rfl⟩ := h
  have hf : Machine.fetch { m with sound, waiting, stack } = m.fetch := rfl
  cases hw : m.fetch
  case error =>
    simp only [Emulator.tick, tickWith_eq, hf, hw]
    exact ⟨rfl, rfl, ⟨_, _, _, hs, rfl⟩, rfl⟩
  case ok w =>
    have hp : Machine.LooksLike { m with pc := m.pc + 2 }
        { m with pc := m.pc + 2, sound, waiting, stack } :=
      ⟨_, _, _, hs, rfl⟩
    cases hd : Instr.decode w
    case error =>
      simp only [Emulator.tick, tickWith_eq, hf, hw, hd]
      exact ⟨rfl, rfl, hp, rfl⟩
    case ok i =>
      have hx := hp.execute noise i
      generalize he : Machine.execute { m with pc := m.pc + 2 } noise i = r at hx
      generalize he' : Machine.execute { m with pc := m.pc + 2, sound, waiting, stack } noise i =
        r' at hx
      simp only [Emulator.tick, tickWith_eq, hf, hw, hd, past, he, he']
      cases hx
      case error => exact ⟨rfl, rfl, hp, rfl⟩
      case ok h  => exact ⟨rfl, rfl, h, rfl⟩

-- Counting the timers down is the one operation with an answer that depends on the sound timer.
theorem lockstep_of_looksLike : Lockstep LooksLike fun t => t.op ≠ .countDown := by
  intro e e' op hs h hc
  cases op
  case tick => exact h.tick.map _
  case run n => exact absurd rfl (hs n)
  case countDown => exact absurd rfl hc
  case reset => exact ⟨rfl, rfl, .refl _, h.noise⟩
  case load image =>
    simp only [perform, load]
    split
    · exact ⟨rfl, rfl, .refl _, h.noise⟩
    · exact ⟨rfl, rfl, h⟩
  all_goals
    obtain ⟨m, noise⟩ := e
    obtain ⟨m', noise'⟩ := e'
    obtain ⟨⟨sound, waiting, stack, hs, rfl⟩, rfl⟩ := h
    exact ⟨rfl, rfl, ⟨_, _, _, hs, rfl⟩, rfl⟩

end Emulator

-- The same reply, but for a tone, which is for the host and not for the program.
inductive Reply.Agrees : Reply → Reply → Prop
  | tone : Agrees (.tone t) (.tone t')
  | refl : Agrees r r

structure Outcome.LooksLike (o o' : Outcome Emulator Reply) : Prop where
  answer  : o.answer.Agrees o'.answer
  records : o.records = o'.records
  state   : o.state.LooksLike o'.state

structure Moment.LooksLike (t t' : Moment) : Prop where
  op     : t.op = t'.op
  before : t.before.LooksLike t'.before

namespace Emulator

variable {e e' : Emulator}

theorem LooksLike.perform (h : e.LooksLike e') (op : Operation) :
    (e.perform op).LooksLike (e'.perform op) ∧
    List.Forall₂ Moment.LooksLike (e.moments op) (e'.moments op) := by
  by_cases hc : op = .countDown
  case pos =>
    subst hc
    refine ⟨⟨.tone, rfl, ?_⟩, .cons ⟨rfl, h⟩ .nil⟩
    obtain ⟨m, noise⟩ := e
    obtain ⟨m', noise'⟩ := e'
    obtain ⟨⟨sound, waiting, stack, hs, rfl⟩, rfl⟩ := h
    exact ⟨⟨_, _, _, hs, rfl⟩, rfl⟩
  case neg =>
    have hp : ∀ t ∈ e.moments op, t.op ≠ .countDown := by
      intro t ht
      cases op
      case run => simp [op_of_mem_runMoments ht]
      all_goals
        rw [List.mem_singleton.mp ht]
        exact hc
    have ⟨a, hm⟩ := lockstep_of_looksLike.perform h hp
    refine ⟨⟨a.answer ▸ .refl, a.records, a.state⟩, hm.imp fun _ _ a => ⟨a.op, a.before⟩⟩

-- Emulators that a program cannot tell apart give the same answers and leave the same records, and
-- it can never tell them apart later.
theorem hidden_state_never_shows (h : e.LooksLike e') (ops : List Operation) :
    List.Forall₂ Outcome.LooksLike (e.outcomes ops) (e'.outcomes ops) ∧
    List.Forall₂ Moment.LooksLike (e.history ops) (e'.history ops) := by
  induction ops generalizing e e'
  case nil => exact ⟨.nil, .nil⟩
  case cons op ops hi =>
    have ⟨o, hm⟩ := h.perform op
    have ⟨ho, hl⟩ := hi o.state
    exact ⟨.cons o ho, List.rel_append hl hm⟩

-- A call overwrites a slot that the two differ in, and the return comes back to the same address.
-- Only the tone tells the two apart.
theorem hidden_state_never_shows_tone :
    let e := (create ⟨fun _ => 0, 0⟩).performAll [.load [0x22, 0x04, 0x00, 0x00, 0x00, 0xEE]]
    let stack : CallStack := { CallStack.empty with slots := .replicate 16 0xABC }
    let e' : Emulator := { e with machine := { e.machine with sound := 1, waiting := true, stack } }
    let ops := [.tick, .countDown, .run 2, .tick]
    e.LooksLike e' ∧ e.tones ops = [.silent] ∧ e'.tones ops = [.beep] ∧
    e.signals ops = [.ok .jump, .ok .next, .error (.stackUnderflow 0x204)] ∧
    List.Forall₂ Outcome.LooksLike (e.outcomes ops) (e'.outcomes ops) := by
  intro e stack e' ops
  have hs : e.machine.stack.SameLive stack := ⟨rfl, fun i hi => absurd hi (Nat.not_lt_zero i)⟩
  have h : e.LooksLike e' := ⟨⟨_, _, _, hs, rfl⟩, rfl⟩
  obtain ⟨ht, ht', hr⟩ : e.tones ops = [.silent] ∧ e'.tones ops = [.beep] ∧
      e.signals ops = [.ok .jump, .ok .next, .error (.stackUnderflow 0x204)] := by
    decide +kernel
  obtain ⟨ho, _⟩ := hidden_state_never_shows h ops
  exact ⟨h, ht, ht', hr, ho⟩

end Emulator
end ChipEight
