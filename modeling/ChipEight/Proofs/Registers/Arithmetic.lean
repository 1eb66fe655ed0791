import ChipEight.Proofs.Emulator.Tick

namespace ChipEight

-- The operations with a carry or a borrow.
def AluOp.setsFlag : AluOp → Bool
  | add | sub | subFrom => true
  | _                   => false

-- The registers that an instruction writes to.
def Instr.Writes : Instr → Fin 16 → Prop
  | loadByte x _, j | addByte x _, j | random x _, j | getDelay x, j | waitKey x, j => x.toNat = j
  | alu op x _, j => x.toNat = j ∨ op.setsFlag ∧ Registers.flag.toNat = j
  | shiftR x, j | shiftL x, j => x.toNat = j ∨ Registers.flag.toNat = j
  | draw .., j => Registers.flag.toNat = j
  | restore x, j => j ≤ x.toNat
  | _, _ => False

theorem Registers.read_writeFlagged (r : Registers) (x y v : UInt8) (flagged : Bool) :
    (r.writeFlagged x v flagged).read y =
      if y.toNat % 16 = 15 then flagged.toUInt8 else (r.write x v).read y := by
  rw [writeFlagged, read_write]
  exact if_congr eq_comm rfl rfl

namespace Byte

-- The value of an operation on bytes, and what its flag says, as numbers.

theorem toNat_add_carry (a b : UInt8) :
    (a + b).toNat + 256 * (if a.toNat + b.toNat > 255 then 1 else 0) = a.toNat + b.toNat := by
  have ha := a.toNat_lt
  have hb := b.toNat_lt
  rw [UInt8.toNat_add]
  split <;> omega

theorem toNat_sub_emod (a b : UInt8) : ((a - b).toNat : Int) = (a.toNat - b.toNat) % 256 := by
  have hb := b.toNat_lt
  rw [UInt8.toNat_sub]
  omega

theorem toNat_shiftRight_one (v : UInt8) : 2 * (v >>> 1).toNat + v.toNat % 2 = v.toNat := by
  have hs : (v >>> 1).toNat = v.toNat / 2 :=
    (UInt8.toNat_shiftRight v 1).trans <| Nat.shiftRight_eq_div_pow ..
  omega

theorem toNat_shiftLeft_one (v : UInt8) :
    (v <<< 1).toNat + 256 * (v.toNat / 128) = 2 * v.toNat := by
  have hv := v.toNat_lt
  have hs : (v <<< 1).toNat = v.toNat * 2 % 256 :=
    (UInt8.toNat_shiftLeft v 1).trans <| congrArg (· % 256) <| Nat.shiftLeft_eq ..
  omega

theorem toNat_lowBit (v : UInt8) : (v % 2 == 1).toNat = v.toNat % 2 := by
  have hm : v % 2 = 1 ↔ v.toNat % 2 = 1 := by
    rw [← UInt8.toNat_inj, UInt8.toNat_mod]
    rfl
  have hb : (v % 2 == 1).toNat = if v % 2 = 1 then 1 else 0 := apply_ite Bool.toNat _ true false
  rw [hb, if_congr hm rfl rfl]
  split <;> omega

theorem toNat_highBit (v : UInt8) : (decide (v ≥ 128)).toNat = v.toNat / 128 := by
  have hv := v.toNat_lt
  have hb : (decide (v ≥ 128)).toNat = if v.toNat ≥ 128 then 1 else 0 :=
    apply_ite Bool.toNat _ true false
  rw [hb]
  split <;> omega

end Byte

namespace Machine

variable {m m' : Machine} {noise : Noise} {i : Instr} {x : UInt8} {j : Fin 16}

-- The flag register holds `flag`, and unless it is that register `Vx` holds what belongs to it.
structure Leaves (m : Machine) (x : UInt8) (flag : Nat) (Belongs : Nat → Nat → Prop) : Prop where
  flag_eq : (m.reg Registers.flag).toNat = flag
  value   : x ≠ Registers.flag → Belongs (m.reg x).toNat flag

theorem leaves_setFlagged (hx : x.toNat < 16) (hf : flagged.toNat = flag)
    (hv : Belongs v.toNat flag) : (m.setFlagged x v flagged).Leaves x flag Belongs where
  flag_eq := by
    have hb : flagged.toUInt8.toNat = flagged.toNat := by cases flagged <;> rfl
    exact (congrArg _ <| Registers.read_writeFlagged ..).trans <| hb.trans hf
  value hn := by
    have hn : ¬x.toNat % 16 = 15 := fun h => hn <| UInt8.toNat_inj.mp <| by
      rw [← Nat.mod_eq_of_lt hx, h]
      rfl
    rw [reg, setFlagged, Registers.read_writeFlagged, if_neg hn, Registers.read_write, if_pos rfl]
    exact hv

theorem get_write_of_lt (hx : x.toNat < 16) (h : x.toNat ≠ j) (r : Registers) (v : UInt8) :
    (r.write x v).get j = r.get j :=
  Registers.get_write_of_ne (by rwa [Nat.mod_eq_of_lt hx]) ..

theorem get_writeFlag (h : Registers.flag.toNat ≠ j) (r : Registers) (v : UInt8) :
    (r.write Registers.flag v).get j = r.get j :=
  get_write_of_lt (by decide) h ..

theorem get_setFlagged (hx : x.toNat < 16) (h : x.toNat ≠ j) (hf : Registers.flag.toNat ≠ j)
    (v : UInt8) (flagged : Bool) : (m.setFlagged x v flagged).regs.get j = m.regs.get j :=
  (get_writeFlag hf ..).trans <| get_write_of_lt hx h ..

-- An operation that sets no flag writes to `Vx` only.
theorem get_alu (h : m.execute noise (.alu op x y) = .ok (signal, m')) (hx : x.toNat < 16)
    (hn : x.toNat ≠ j) (hf : op.setsFlag → Registers.flag.toNat ≠ j) :
    m'.regs.get j = m.regs.get j := by
  cases op <;> cases h
  case add | sub | subFrom => exact get_setFlagged hx hn (hf rfl) ..
  all_goals exact get_write_of_lt hx hn ..

theorem get_regs_of_execute (h : m.execute noise i = .ok (signal, m')) (hw : i.WellFormed)
    (hj : ¬i.Writes j) : m'.regs.get j = m.regs.get j := by
  cases i
  case alu =>
    obtain ⟨hn, hf⟩ := not_or.mp hj
    exact get_alu h hw.left hn <| not_and.mp hf
  all_goals simp only [execute, onSpan_eq_ok_iff, Except.ok.injEq, Prod.mk.injEq] at h
  case ret | call =>
    split at h <;> cases h
    rfl
  case skip =>
    obtain ⟨_, rfl⟩ := h
    split <;> rfl
  case loadByte | addByte | random | getDelay =>
    obtain ⟨_, rfl⟩ := h
    exact get_write_of_lt hw hj ..
  case shiftR | shiftL =>
    obtain ⟨_, rfl⟩ := h
    obtain ⟨hn, hf⟩ := not_or.mp hj
    exact get_setFlagged hw hn hf ..
  case draw =>
    obtain ⟨_, _, rfl⟩ := h
    exact get_writeFlag hj ..
  case waitKey =>
    split at h <;> cases h
    · exact get_write_of_lt hw hj ..
    · rfl
  case restore x =>
    obtain ⟨_, _, rfl⟩ := h
    have hj : ¬j.val < x.toNat + 1 := fun h => hj <| Nat.lt_succ_iff.mp h
    rw [Registers.get_writeAll, Memory.getElem?_readSpan, if_neg hj, Option.getD_none]
  case digits | save =>
    obtain ⟨_, _, rfl⟩ := h
    rfl
  all_goals
    obtain ⟨_, rfl⟩ := h
    rfl

end Machine

namespace Emulator

variable {e : Emulator} {i : Instr} {x y : UInt8} {j : Fin 16}

theorem tick_setFlagged (hi : e.machine.instr? = some i) (hw : x.toNat < 16)
    (hx : e.past.machine.execute e.noise i = .ok (.next, e.past.machine.setFlagged x v flagged))
    (hf : flagged.toNat = flag) (hv : Belongs v.toNat flag) :
    e.tick.answer = .ok .next ∧ e.tick.state.machine.Leaves x flag Belongs := by
  have ⟨ha, ht⟩ := tick_of_execute hi hx
  refine ⟨ha, ?_⟩
  rw [ht]
  exact Machine.leaves_setFlagged hw hf hv

theorem writes_of_tick (h : e.tick.state.machine.regs.get j ≠ e.machine.regs.get j) :
    ∃ i signal, e.machine.instr? = some i ∧ e.tick.answer = .ok signal ∧ i.Writes j := by
  have ht := e.ticks
  generalize e.tick.answer = a, e.tick.state = s at h ht
  cases ht
  case lost | unknown | refused => exact absurd rfl h
  case executed i _ _ hi hx =>
    refine ⟨i, _, hi, rfl, ?_⟩
    by_contra hj
    have hr := Machine.get_regs_of_execute hx (Machine.wellFormed_of_instr? hi) hj
    exact h hr

theorem tick_add (hi : e.machine.instr? = some (.alu .add x y)) :
    e.tick.answer = .ok .next ∧
    e.tick.state.machine.Leaves x
      (if (e.machine.reg x).toNat + (e.machine.reg y).toNat > 255 then 1 else 0)
      fun v f => v + 256 * f = (e.machine.reg x).toNat + (e.machine.reg y).toNat :=
  have ⟨hw, _⟩ := Machine.wellFormed_of_instr? hi
  tick_setFlagged hi hw rfl (apply_ite Bool.toNat _ true false) <| Byte.toNat_add_carry ..

-- There is a borrow when the flag is not set.
theorem tick_sub (hi : e.machine.instr? = some (.alu .sub x y)) :
    e.tick.answer = .ok .next ∧
    e.tick.state.machine.Leaves x
      (if (e.machine.reg x).toNat ≥ (e.machine.reg y).toNat then 1 else 0)
      fun v _ => (v : Int) = ((e.machine.reg x).toNat - (e.machine.reg y).toNat) % 256 :=
  have ⟨hw, _⟩ := Machine.wellFormed_of_instr? hi
  tick_setFlagged hi hw rfl (apply_ite Bool.toNat _ true false) <| Byte.toNat_sub_emod ..

theorem tick_subFrom (hi : e.machine.instr? = some (.alu .subFrom x y)) :
    e.tick.answer = .ok .next ∧
    e.tick.state.machine.Leaves x
      (if (e.machine.reg y).toNat ≥ (e.machine.reg x).toNat then 1 else 0)
      fun v _ => (v : Int) = ((e.machine.reg y).toNat - (e.machine.reg x).toNat) % 256 :=
  have ⟨hw, _⟩ := Machine.wellFormed_of_instr? hi
  tick_setFlagged hi hw rfl (apply_ite Bool.toNat _ true false) <| Byte.toNat_sub_emod ..

theorem tick_shiftR (hi : e.machine.instr? = some (.shiftR x)) :
    e.tick.answer = .ok .next ∧
    e.tick.state.machine.Leaves x ((e.machine.reg x).toNat % 2)
      fun v f => 2 * v + f = (e.machine.reg x).toNat :=
  have hw := Machine.wellFormed_of_instr? hi
  tick_setFlagged hi hw rfl (Byte.toNat_lowBit _) <| Byte.toNat_shiftRight_one _

theorem tick_shiftL (hi : e.machine.instr? = some (.shiftL x)) :
    e.tick.answer = .ok .next ∧
    e.tick.state.machine.Leaves x ((e.machine.reg x).toNat / 128)
      fun v f => v + 256 * f = 2 * (e.machine.reg x).toNat :=
  have hw := Machine.wellFormed_of_instr? hi
  tick_setFlagged hi hw rfl (Byte.toNat_highBit _) <| Byte.toNat_shiftLeft_one _

-- The operands are read before the tick, and no two of the registers need to be different.
theorem registers_follow_arithmetic (e : Emulator) :
    let m := e.machine
    let m' := e.tick.state.machine
    (∀ x y, m.instr? = some (.alu .add x y) →
      e.tick.answer = .ok .next ∧
      m'.Leaves x (if (m.reg x).toNat + (m.reg y).toNat > 255 then 1 else 0)
        fun v f => v + 256 * f = (m.reg x).toNat + (m.reg y).toNat) ∧
    (∀ x y, m.instr? = some (.alu .sub x y) →
      e.tick.answer = .ok .next ∧
      m'.Leaves x (if (m.reg x).toNat ≥ (m.reg y).toNat then 1 else 0)
        fun v _ => (v : Int) = ((m.reg x).toNat - (m.reg y).toNat) % 256) ∧
    (∀ x y, m.instr? = some (.alu .subFrom x y) →
      e.tick.answer = .ok .next ∧
      m'.Leaves x (if (m.reg y).toNat ≥ (m.reg x).toNat then 1 else 0)
        fun v _ => (v : Int) = ((m.reg y).toNat - (m.reg x).toNat) % 256) ∧
    (∀ x, m.instr? = some (.shiftR x) →
      e.tick.answer = .ok .next ∧
      m'.Leaves x ((m.reg x).toNat % 2) fun v f => 2 * v + f = (m.reg x).toNat) ∧
    (∀ x, m.instr? = some (.shiftL x) →
      e.tick.answer = .ok .next ∧
      m'.Leaves x ((m.reg x).toNat / 128) fun v f => v + 256 * f = 2 * (m.reg x).toNat) ∧
    ∀ j, m'.regs.get j ≠ m.regs.get j →
      ∃ i signal, m.instr? = some i ∧ e.tick.answer = .ok signal ∧ i.Writes j :=
  ⟨fun _ _ => tick_add, fun _ _ => tick_sub, fun _ _ => tick_subFrom, fun _ => tick_shiftR,
    fun _ => tick_shiftL, fun _ => writes_of_tick⟩

-- The flag register is added to itself and keeps the carry, then it is taken from `V0`.
theorem registers_follow_arithmetic_flag :
    let e := (create ⟨fun _ => 0, 0⟩).performAll [.load [0x6F, 0xC8, 0x8F, 0xF4, 0x80, 0xF5], .tick]
    (e.machine.reg 0xF).toNat = 200 ∧
    (e.tick.state.machine.reg 0xF).toNat = 1 ∧
    (e.tick.state.tick.state.machine.reg 0xF).toNat = 0 ∧
    ((e.tick.state.tick.state.machine.reg 0).toNat : Int) = (0 - 1) % 256 ∧
    ∃ i signal, e.machine.instr? = some i ∧ e.tick.answer = .ok signal ∧ i.Writes 0xF := by
  intro e
  have ⟨hi, hi', hv, hv', hn⟩ : e.machine.instr? = some (.alu .add 0xF 0xF) ∧
      e.tick.state.machine.instr? = some (.alu .sub 0 0xF) ∧
      (e.machine.reg 0xF).toNat = 200 ∧
      (e.tick.state.machine.reg 0).toNat = 0 ∧
      e.tick.state.machine.regs.get 0xF ≠ e.machine.regs.get 0xF := by
    decide +kernel
  obtain ⟨add, _, _, _, _, writes⟩ := registers_follow_arithmetic e
  obtain ⟨_, sub, _⟩ := registers_follow_arithmetic e.tick.state
  have hf : (e.tick.state.machine.reg 0xF).toNat = 1 := by
    have hc := (add 0xF 0xF hi).2.flag_eq
    rwa [hv] at hc
  have l := (sub 0 0xF hi').2
  have hs := l.value (by decide)
  have hb := l.flag_eq
  rw [hv', hf] at hs hb
  exact ⟨hv, hf, hb, hs, writes 0xF hn⟩

end Emulator
end ChipEight
