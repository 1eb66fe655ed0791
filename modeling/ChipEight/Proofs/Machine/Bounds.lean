import ChipEight.Proofs.Emulator.History

namespace ChipEight

namespace Machine

structure InBounds (m : Machine) : Prop where
  pc    : m.pc.toNat ≤ 0x10FE
  stack : ∀ a ∈ m.stack.toList, 2 ≤ a.toNat ∧ a.toNat ≤ 0x1000

variable {m m' : Machine}

theorem inBounds_withImage (image : List UInt8) : (withImage image).InBounds where
  pc    := by simp [withImage]
  stack := by simp [withImage, CallStack.toList_empty]

theorem inBounds_fresh : fresh.InBounds :=
  withImage_nil ▸ inBounds_withImage []

theorem Course.le (c : m.Course i a) (hw : i.WellFormed)
    (hp : 2 ≤ m.pc.toNat ∧ m.pc.toNat ≤ 0x1000)
    (hs : ∀ a ∈ m.stack.toList, 2 ≤ a.toNat ∧ a.toNat ≤ 0x1000) : a.toNat ≤ 0x10FE := by
  cases c
  case on | keep | wake => omega
  case skip =>
    simp only [UInt16.toNat_add, UInt16.reduceToNat]
    omega
  case jump | call =>
    have : UInt16.toNat _ < 4096 := hw
    omega
  case ret h =>
    have := hs a <| by simp [CallStack.toList_pop h]
    omega
  case jumpV0 nnn =>
    have hn : nnn.toNat < 4096 := hw
    have := (m.reg 0).toNat_lt
    simp only [UInt16.toNat_add, UInt8.toNat_toUInt16]
    omega
  case stall =>
    have h : (2 : UInt16) ≤ m.pc := UInt16.le_iff_toNat_le.mpr hp.left
    rw [UInt16.toNat_sub_of_le _ _ h]
    omega

-- What an instruction leaves on the stack is what was there or the address after the instruction.
theorem mem_stack_of_execute (h : m.execute noise i = .ok (signal, m'))
    (ha : a ∈ m'.stack.toList) : a ∈ m.stack.toList ∨ a = m.pc := by
  cases i
  case call =>
    have ⟨_, hs⟩ := execute_call h
    simpa [hs] using ha
  case ret =>
    have ⟨_, hs⟩ := execute_ret h
    simp [hs, ha]
  all_goals
    have hf := Frame.of_execute h
    rw [hf.stack nofun nofun] at ha
    exact .inl ha

theorem InBounds.execute (h : m.execute noise i = .ok (signal, m')) (hw : i.WellFormed)
    (hp : 2 ≤ m.pc.toNat ∧ m.pc.toNat ≤ 0x1000)
    (hs : ∀ a ∈ m.stack.toList, 2 ≤ a.toNat ∧ a.toNat ≤ 0x1000) : m'.InBounds where
  pc    := Course.of_execute h |>.le hw hp hs
  stack := fun a ha => by
    cases mem_stack_of_execute h ha
    case inl ha => exact hs a ha
    case inr ha => exact ha ▸ hp

end Machine

namespace Emulator

variable {e : Emulator}

theorem past_pc_bounds (h : e.machine.pc.toNat + 1 < Memory.size) :
    2 ≤ e.past.machine.pc.toNat ∧ e.past.machine.pc.toNat ≤ 0x1000 := by
  rw [past_pc h]
  simp only [Memory.size] at h
  omega

theorem inBounds_past (b : e.machine.InBounds) (h : e.machine.pc.toNat + 1 < Memory.size) :
    e.past.machine.InBounds where
  pc    := by have := past_pc_bounds h; omega
  stack := b.stack

theorem inBounds_tick (b : e.machine.InBounds) : e.tick.state.machine.InBounds := by
  have ht := e.ticks
  generalize e.tick.answer = a, e.tick.state = s at ht
  cases ht
  case lost => exact b
  case unknown hf _ => exact inBounds_past b (Machine.fetch_eq_ok_iff.mp hf |>.left)
  case refused hi _ => exact inBounds_past b (Machine.pc_lt_of_instr? hi)
  case executed hi hx =>
    have hp := past_pc_bounds <| Machine.pc_lt_of_instr? hi
    exact .execute hx (Machine.wellFormed_of_instr? hi) hp b.stack

end Emulator

theorem Moment.inBounds_after {t : Moment} (hs : t.op.Single) (b : t.before.machine.InBounds) :
    t.after.machine.InBounds := by
  obtain ⟨e, op⟩ := t
  cases op
  case tick => exact Emulator.inBounds_tick b
  case run n => exact absurd rfl (hs n)
  case countDown | switchKey | releaseKeys => exact ⟨b.pc, b.stack⟩
  case reset => exact Machine.inBounds_fresh
  case load image =>
    simp only [after, Emulator.perform, Outcome.map, Emulator.load]
    split
    · exact Machine.inBounds_withImage image
    · exact b

theorem Emulator.Leads.inBounds (l : Leads e h e') (b : e.machine.InBounds) :
    e'.machine.InBounds := by
  induction l
  case nil => exact b
  case cons hs hi => exact Moment.inBounds_after hs hi

theorem Emulator.inBounds_performAll (noise : Noise) (ops : List Operation) :
    ((create noise).performAll ops).machine.InBounds :=
  leads_history _ ops |>.inBounds Machine.inBounds_fresh

end ChipEight
