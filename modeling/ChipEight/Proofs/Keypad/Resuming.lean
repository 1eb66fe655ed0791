import ChipEight.Proofs.Keypad.Waiting

namespace ChipEight

namespace Operation

-- What does not end the wait for a key.
def Idle : Operation → Prop
  | switchKey _ pressed => pressed = false
  | reset | load _      => False
  | _                   => True

-- What a host does to the keys.
def Keying : Operation → Prop
  | switchKey .. | releaseKeys => True
  | _                          => False

end Operation

namespace Emulator

variable {e e' e'' : Emulator}

-- Nothing has changed but the timers and the flag of a machine that waits.
def Lingers (e e' : Emulator) : Prop :=
  ∃ delay sound waiting, e' = { e with machine := { e.machine with delay, sound, waiting } }

namespace Lingers

theorem refl (e : Emulator) : e.Lingers e :=
  ⟨_, _, _, rfl⟩

theorem trans (l : e.Lingers e') (l' : e'.Lingers e'') : e.Lingers e'' := by
  obtain ⟨_, _, _, rfl⟩ := l
  obtain ⟨_, _, _, rfl⟩ := l'
  exact ⟨_, _, _, rfl⟩

theorem stalls (l : e.Lingers e') (h : e.machine.Stalls x) : e'.machine.Stalls x := by
  obtain ⟨_, _, _, rfl⟩ := l
  exact h.congr rfl rfl rfl

theorem pc (l : e.Lingers e') : e'.machine.pc = e.machine.pc := by
  obtain ⟨_, _, _, rfl⟩ := l
  rfl

end Lingers
end Emulator

namespace Moment

variable {t : Moment}

theorem lingers (hs : t.op.Single) (hi : t.op.Idle) (h : t.before.machine.Stalls x) :
    t.before.Lingers t.after := by
  obtain ⟨e, op⟩ := t
  cases op
  case tick =>
    have ht : (Moment.mk e .tick).after = e.stalled :=
      congrArg Outcome.state <| Emulator.tick_of_stalls h
    rw [ht]
    exact ⟨_, _, _, rfl⟩
  case run n => exact absurd rfl (hs n)
  case countDown => exact ⟨_, _, _, rfl⟩
  case switchKey k pressed =>
    cases hi
    have hk : e.machine.keys.set k false = e.machine.keys :=
      Keypad.release_of_released h.keys_eq k
    have ht : (Moment.mk e (.switchKey k false)).after =
        { e with
          machine :=
            { e.machine with
              keys    := e.machine.keys.set k false
              waiting := e.machine.waiting && !false } } := rfl
    rw [ht, hk]
    exact ⟨_, _, _, rfl⟩
  case releaseKeys =>
    have ht : (Moment.mk e .releaseKeys).after =
        { e with machine := { e.machine with keys := .released } } := rfl
    have hk : e.machine.keys = .released := h.keys_eq
    rw [ht, ← hk]
    exact ⟨_, _, _, rfl⟩
  case reset | load => contradiction

theorem sets?_of_idle (hi : t.op.Idle) (h : t.before.machine.Stalls x) (timer : Timer) :
    t.sets? timer = none := by
  obtain ⟨e, op⟩ := t
  cases op
  case tick =>
    have ha := Emulator.stalls_iff.mpr ⟨x, h⟩
    have hx : (Moment.mk e .tick).executed? = some (.waitKey x) :=
      executed?_eq_some_iff.mpr ⟨rfl, ⟨_, ha⟩, h.left⟩
    have hr : ¬(Moment.mk e .tick).restarts := by simp [restarts]
    rw [sets?, if_neg hr, hx]
    cases timer <;> rfl
  case reset | load => contradiction
  all_goals rfl

end Moment

namespace Emulator

variable {e e' : Emulator}

theorem op_of_mem_runMoments (ht : t ∈ runMoments n e) : t.op = .tick := by
  induction n generalizing e
  case zero => contradiction
  case succ n hi =>
    rw [runMoments] at ht
    split at ht
    · rcases List.mem_append.mp ht with ht | ht
      · exact hi ht
      · rw [List.mem_singleton.mp ht]
    · rw [List.mem_singleton.mp ht]

theorem idle_of_mem_moments (ho : op.Idle) (ht : t ∈ e.moments op) : t.op.Idle := by
  cases op
  case run n => simp [op_of_mem_runMoments ht, Operation.Idle]
  all_goals
    rw [List.mem_singleton.mp ht]
    exact ho

theorem idle_of_mem_history (hi : ∀ op ∈ ops, op.Idle) (ht : t ∈ history e ops) : t.op.Idle := by
  induction ops generalizing e
  case nil => contradiction
  case cons op ops hr =>
    have ⟨ho, hi⟩ := List.forall_mem_cons.mp hi
    rcases List.mem_append.mp ht with ht | ht
    · exact hr hi ht
    · exact idle_of_mem_moments ho ht

namespace Leads

theorem lingers (l : Leads e h e') (hs : e.machine.Stalls x) (hi : ∀ t ∈ h, t.op.Idle) :
    e.Lingers e' := by
  induction l
  case nil => exact .refl e
  case cons hn hr =>
    have ⟨ht, hi⟩ := List.forall_mem_cons.mp hi
    have l := hr hi
    exact l.trans <| Moment.lingers hn ht <| l.stalls hs

theorem left_of_idle (l : Leads e h e') (hs : e.machine.Stalls x) (hi : ∀ t ∈ h, t.op.Idle)
    (timer : Timer) :
    (e'.machine.left timer).toNat = (e.machine.left timer).toNat - h.countP (·.counts) := by
  induction l
  case nil => rfl
  case cons l hn hr =>
    have ⟨ht, hi⟩ := List.forall_mem_cons.mp hi
    have hs := l.lingers hs hi |>.stalls hs
    rw [Moment.left_after hn, Moment.sets?_of_idle ht hs]
    simp only [hr hi, List.countP_cons, Nat.sub_sub]

theorem stalls_of_mem (l : Leads e h e') (hs : e.machine.Stalls x) (hi : ∀ t ∈ h, t.op.Idle)
    (ht : t ∈ h) : t.before.machine.Stalls x := by
  induction l
  case nil => contradiction
  case cons l _ hr =>
    have ⟨_, ho⟩ := List.forall_mem_cons.mp hi
    cases ht
    case head    => exact l.lingers hs ho |>.stalls hs
    case tail ht => exact hr ho ht

end Leads

theorem performAll_keying (hk : ∀ op ∈ ops, op.Keying) :
    ∃ keys waiting,
      e.performAll ops = { e with machine := { e.machine with keys, waiting } } := by
  induction ops generalizing e
  case nil => exact ⟨_, _, rfl⟩
  case cons op ops hi =>
    have ⟨ho, hk⟩ := List.forall_mem_cons.mp hk
    have ⟨_, _, he⟩ : ∃ keys waiting,
        (e.perform op).state = { e with machine := { e.machine with keys, waiting } } := by
      cases op
      case switchKey | releaseKeys => exact ⟨_, _, rfl⟩
      all_goals contradiction
    have ⟨_, _, hr⟩ := hi (e := (e.perform op).state) hk
    exact ⟨_, _, hr.trans <| by rw [he]⟩

theorem keying_keeps (hk : ∀ op ∈ ops, op.Keying) :
    (e.performAll ops).machine.pc = e.machine.pc ∧
    (e.performAll ops).machine.instr? = e.machine.instr? := by
  have ⟨_, _, he⟩ := performAll_keying (e := e) hk
  rw [he]
  exact ⟨rfl, rfl⟩

-- The least key that is down ends the wait.
theorem tick_of_key (hi : e.machine.instr? = some (.waitKey x))
    (hk : e.machine.keys.first? = some k) :
    e.tick.answer = .ok .next ∧
    e.tick.state =
      { e with
        machine :=
          { e.machine.setReg x (.ofNat k) with pc := e.machine.pc + 2, waiting := false } } := by
  have hx : e.past.machine.execute e.noise (.waitKey x) =
      .ok (.next, { e.past.machine.setReg x (.ofNat k) with waiting := false }) := by
    simp only [Machine.execute, past, hk]
  exact tick_of_execute hi hx

-- However long it takes until a key is down, the instruction that waits takes the least key then.
theorem waits_until_key (e : Emulator) (x : UInt8) (ops keying : List Operation)
    (hs : e.machine.Stalls x) (hi : ∀ op ∈ ops, op.Idle) (hk : ∀ op ∈ keying, op.Keying) :
    let h := e.history ops
    let e' := e.performAll ops
    let e'' := e'.performAll keying
    (∀ t ∈ h, t.op = .tick → t.before.tick.answer = .ok .stall) ∧
    (∃ delay sound waiting,
      e' = { e with machine := { e.machine with delay, sound, waiting } }) ∧
    (∀ timer,
      (e'.machine.left timer).toNat = (e.machine.left timer).toNat - h.countP (·.counts)) ∧
    ((∃ k : Key, e''.machine.keys.isDown k) →
      ∃ k : Key, e''.machine.keys.isDown k ∧ (∀ j : Key, e''.machine.keys.isDown j → k ≤ j) ∧
        e''.tick.answer = .ok .next ∧
        e''.tick.state =
          { e'' with
            machine :=
              { e''.machine.setReg x (.ofNat k) with pc := e.machine.pc + 2, waiting := false } } ∧
        e''.tick.state.machine.reg x = .ofNat k ∧
        e''.tick.state.machine.pc.toNat = e.machine.pc.toNat + 2) := by
  intro h e' e''
  have l : Leads e h e' := leads_history e ops
  have hi (t : Moment) (ht : t ∈ h) : t.op.Idle := idle_of_mem_history hi ht
  have hl : e.Lingers e' := l.lingers hs hi
  refine ⟨?_, hl, l.left_of_idle hs hi, ?_⟩
  · intro t ht _
    exact stalls_iff.mpr ⟨x, l.stalls_of_mem hs hi ht⟩
  · intro ⟨j, hj⟩
    have ⟨hp, hi⟩ : e''.machine.pc = e'.machine.pc ∧ e''.machine.instr? = e'.machine.instr? :=
      keying_keeps hk
    have hi := hi.trans (hl.stalls hs).left
    have hp := hp.trans hl.pc
    cases hf : e''.machine.keys.first?
    case none => simp [Keypad.first?_eq_none_iff.mp hf] at hj
    case some k =>
      have ⟨hd, hm⟩ := Keypad.first?_least hf
      have ⟨ha, ht⟩ := tick_of_key hi hf
      rw [hp] at ht
      refine ⟨k, hd, hm, ha, ht, ?_, ?_⟩
      · rw [ht]
        exact (Registers.read_write ..).trans (if_pos rfl)
      · rw [ht]
        exact past_pc <| Machine.pc_lt_of_instr? hs.left

-- The delay timer runs while the machine waits. One of three keys is up again when it goes on.
theorem waits_until_key_nine :
    let image := [0x60, 0x05, 0xF0, 0x15, 0xF3, 0x0A]
    let ops := [.tick, .countDown, .run 2, .switchKey 7 false, .releaseKeys, .countDown, .tick]
    let keying := [.switchKey 12 true, .switchKey 4 true, .switchKey 9 true, .switchKey 4 false]
    let e := (create ⟨fun _ => 0, 0⟩).performAll [.load image, .run 2]
    let e'' := (e.performAll ops).performAll keying
    e.machine.Stalls 3 ∧ (∀ op ∈ ops, op.Idle) ∧ (∀ op ∈ keying, op.Keying) ∧
    (e.performAll ops).machine.delay = 3 ∧
    e''.tick.answer = .ok .next ∧ e''.tick.state.machine.reg 3 = 9 ∧
    e''.tick.state.machine.pc.toNat = 0x206 := by
  intro image ops keying e e''
  have ⟨hs, hd, hc, hp, hn⟩ :
      (e.machine.instr? = some (.waitKey 3) ∧ e.machine.keys.first? = none) ∧
      (e.machine.left .delay).toNat = 5 ∧ (e.history ops).countP (·.counts) = 2 ∧
      e.machine.pc.toNat = 0x204 ∧ e''.machine.keys = (Keypad.released.press 12).press 9 := by
    decide +kernel
  have hi : ∀ op ∈ ops, op.Idle := by simp [ops, Operation.Idle]
  have hk : ∀ op ∈ keying, op.Keying := by simp [keying, Operation.Keying]
  have h₉ : ∀ k : Key, ((Keypad.released.press 12).press 9).isDown k → 9 ≤ k := by decide
  have ⟨_, _, ht, hw⟩ := waits_until_key e 3 ops keying hs hi hk
  subst e''
  rw [hn] at hw
  have ⟨k, hd', hl, ha, _, hr, hp'⟩ := hw ⟨9, by decide⟩
  have h : k = 9 := Fin.le_antisymm (hl 9 (by decide)) (h₉ k hd')
  have ht := ht .delay
  rw [hd, hc] at ht
  rw [h] at hr
  refine ⟨hs, hi, hk, ?_, ha, hr, ?_⟩
  · exact UInt8.toNat_inj.mp ht
  · rw [hp', hp]

end Emulator
end ChipEight
