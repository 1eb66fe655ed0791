import ChipEight.Proofs.Emulator.Checked
import ChipEight.Proofs.Machine.Bounds

namespace ChipEight.Checked

theorem add_eq_some (h : a.toNat + b.toNat < UInt16.size) : add a b = some (a + b) :=
  if_pos h

theorem sub_eq_some {a b : UInt16} (h : b.toNat ≤ a.toNat) : sub a b = some (a - b) :=
  if_pos h

theorem mul_eq_some {a b : UInt16} (h : a.toNat * b.toNat < UInt16.size) :
    mul a b = some (a * b) :=
  if_pos h

theorem decrement_eq_some {v : UInt8} (h : v ≠ 0) : decrement v = some (v - 1) := by
  have : v.toNat ≠ 0 := fun hv => h <| UInt8.toNat_inj.mp hv
  exact if_pos (by omega)

theorem bit_eq_some (h : k < 16) : bit k = some (BitVec.twoPow 16 k) := by
  simp [bit, h, BitVec.twoPow]

theorem get_eq_some {v : Vector α n} (h : i < n) : get v i = some v[i] := by
  simp [get, h]

theorem set_eq_some {v : Vector α n} (h : i < n) : set v i a = some (v.set i a) := by
  simp [set, h]

theorem mapM_eq_some {l : List α} {f : α → Option β} {g : α → β} (h : ∀ a ∈ l, f a = some (g a)) :
    l.mapM f = some (l.map g) := by
  induction l
  case nil => rfl
  case cons a l hi =>
    have ⟨ha, hl⟩ := List.forall_mem_cons.mp h
    rw [List.mapM_cons, ha, hi hl]
    rfl

theorem isDown_eq (p : Keypad) (n : Nat) : isDown p n = some (p.isDown n) := by
  unfold isDown
  split
  case isTrue h =>
    have h : n < 16 := h
    have hz : BitVec.twoPow 16 n ≠ 0#16 := fun hz => by
      have := congrArg (·.getLsbD n) hz
      simp [BitVec.getLsbD_twoPow] at this
      omega
    rw [bit_eq_some h]
    change some (p.bits &&& BitVec.twoPow 16 n != 0#16) = _
    rw [BitVec.and_twoPow, Keypad.isDown]
    cases p.bits.getLsbD n <;> simp [hz]
  case isFalse h =>
    simp only [Keypad.isDown, BitVec.getLsbD_of_ge p.bits n (Nat.not_lt.mp h)]

theorem firstKey_eq (p : Keypad) : firstKey p = some p.first? := by
  simp only [firstKey, isDown_eq, Keypad.first?]
  exact List.findM?_pure ..

theorem setKey_eq (p : Keypad) (k : Key) (pressed : Bool) :
    setKey p k pressed = some (p.set k pressed) := by
  simp only [setKey, bit_eq_some k.isLt, Keypad.set, Keypad.press, Keypad.release]
  rfl

theorem plot_eq (s : Display × Bool) (p : Point) : plot s p = some (Display.draw.step s p) := by
  have h : p.1 % Display.width + p.2 % Display.height * Display.width = Display.index p := by
    simp only [Display.index, Display.width, Display.height]
    omega
  simp only [plot, h, get_eq_some (Display.index p).isLt, set_eq_some (Display.index p).isLt]
  rfl

theorem draw_eq (d : Display) (ps : List Point) : draw d ps = some (d.draw ps) := by
  simp only [draw, funext₂ plot_eq]
  exact List.foldlM_pure ..

section Machine

variable {m : Machine} {x y : UInt8}

theorem reg_eq (h : x.toNat < 16) : reg m x = some (m.reg x) := by
  simp [reg, get_eq_some h, Machine.reg, Registers.read, Nat.mod_eq_of_lt h]

theorem setReg_eq (h : x.toNat < 16) (v : UInt8) : setReg m x v = some (m.setReg x v) := by
  simp [setReg, set_eq_some h, Machine.setReg, Registers.write, Nat.mod_eq_of_lt h]

theorem setFlagged_eq (h : x.toNat < 16) (v : UInt8) (flagged : Bool) :
    setFlagged m x v flagged = some (m.setFlagged x v flagged) := by
  have hf : Registers.flag.toNat < 16 := by decide
  simp only [setFlagged, setReg_eq h]
  exact setReg_eq hf _

theorem holds_eq (h : c.WellFormed) : holds m c = some (m.holds c) := by
  cases c
  case eqReg | neReg => simp [holds, reg_eq h.left, reg_eq h.right, Machine.holds]
  all_goals simp [holds, reg_eq h, isDown_eq, Machine.holds]

theorem skip_eq (h : c.WellFormed) (hp : m.pc.toNat ≤ 0x1000) :
    skip m c = some (if m.holds c then { m with pc := m.pc + 2 } else m) := by
  have ha : add m.pc 2 = some (m.pc + 2) := add_eq_some (by simp [UInt16.size]; omega)
  simp only [skip, holds_eq h, ha]
  cases m.holds c <;> rfl

theorem drawSprite_eq (hx : x.toNat < 16) (hy : y.toNat < 16)
    (hs : Memory.Spans m.index.toNat n.toNat) :
    drawSprite m x y n = some (m.drawSprite x y n) := by
  have hr : (List.range n.toNat).mapM (fun r => get m.ram (m.index.toNat + r)) =
      some (m.ram.readSpan m.index.toNat n.toNat) := by
    apply mapM_eq_some
    intro r hr
    have hi : m.index.toNat + r < 4096 := by
      simp only [Memory.Spans, Memory.size, List.mem_range] at hs hr
      omega
    simp [get_eq_some hi, Memory.read, hi]
  have hf : Registers.flag.toNat < 16 := by decide
  simp only [drawSprite, hr, reg_eq hx, reg_eq hy, draw_eq]
  exact setReg_eq hf _

theorem push_eq (m : Machine) (a : UInt16) : push m a = some (m.stack.push? a) := by
  by_cases h : m.stack.depth < 16
  case pos =>
    have hc : m.stack.depth < CallStack.capacity := h
    simp [push, CallStack.push?, h, hc, set_eq_some h]
  case neg =>
    have hc : ¬m.stack.depth < CallStack.capacity := h
    simp [push, CallStack.push?, h, hc]

theorem pop_eq (m : Machine) : pop m = some m.stack.pop? := by
  unfold CallStack.pop?
  split
  case h_1 hd => simp [pop, hd]
  case h_2 d hd =>
    have hl : d < 16 := by have := m.stack.depth_le; omega
    simp [pop, hd, get_eq_some hl]

theorem jumpV0_eq (h : nnn.toNat < 4096) :
    add (m.reg 0).toUInt16 nnn = some ((m.reg 0).toUInt16 + nnn) := by
  have := (m.reg 0).toNat_lt
  apply add_eq_some
  simp only [UInt16.size, UInt8.toNat_toUInt16]
  omega

theorem mul_fontHeight (v : UInt8) :
    mul v.toUInt16 (.ofNat Font.height) = some (v.toUInt16 * .ofNat Font.height) := by
  have := v.toNat_lt
  have h : v.toUInt16.toNat * (UInt16.ofNat Font.height).toNat < UInt16.size := by
    simp only [UInt8.toNat_toUInt16, Font.height, UInt16.reduceOfNat, UInt16.reduceToNat, UInt16.size]
    omega
  exact mul_eq_some h

theorem add_fontStart (a : UInt16) : add (.ofNat Font.start) a = some a := by
  have h : (UInt16.ofNat Font.start).toNat + a.toNat < UInt16.size := by
    simp only [Font.start, UInt16.reduceOfNat, UInt16.reduceToNat, Nat.zero_add]
    exact a.toNat_lt_size
  rw [add_eq_some h, show UInt16.ofNat Font.start = 0 from rfl, UInt16.zero_add]

theorem firstRegs_eq (h : x.toNat < 16) : firstRegs m (x.toNat + 1) = some (m.regs.upTo x) :=
  if_pos (by omega)

theorem onSpan_eq {after : Option Machine}
    (h : Memory.Spans m.index.toNat len → after = some m') :
    onSpan m len signal after = some (m.onSpan len (signal, m')) := by
  unfold onSpan Machine.onSpan
  split
  case isTrue hs => rw [h hs]; rfl
  case isFalse   => rfl

theorem store_eq (h : Memory.Spans m.index.toNat bytes.length) :
    store m bytes = some (m.store bytes) := by
  have hw : writeSpan m.ram m.index.toNat bytes = some _ := if_pos h
  simp [store, hw, Machine.store]

theorem execute_eq (hw : i.WellFormed) (hp : 2 ≤ m.pc.toNat ∧ m.pc.toNat ≤ 0x1000) :
    execute m noise i = some (m.execute noise i) := by
  cases i
  case nop | clear | jump | setIndex => rfl
  case ret =>
    simp only [execute, pop_eq, Machine.execute]
    cases m.stack.pop? <;> rfl
  case call =>
    simp only [execute, push_eq, Machine.execute]
    cases m.stack.push? m.pc <;> rfl
  case jumpV0 =>
    have h0 : (0 : UInt8).toNat < 16 := by decide
    simp [execute, reg_eq h0, jumpV0_eq hw, Machine.execute]
  case skip c => simp [execute, next, skip_eq hw hp.right, Machine.execute]
  case alu op x y =>
    simp only [execute, next, reg_eq hw.left, reg_eq hw.right, Machine.execute, bind, Option.bind]
    rcases op.eval (m.reg x) (m.reg y) with ⟨v, _ | flagged⟩
    · simp [setReg_eq hw.left]
    · simp [setFlagged_eq hw.left]
  case glyph x =>
    simp only [execute, next, reg_eq hw, mul_fontHeight, bind, Option.bind_some, add_fontStart]
    simp [Machine.execute, Font.start]
  case draw x y n => exact onSpan_eq <| drawSprite_eq hw.left hw.right.left
  case waitKey =>
    have hs : sub m.pc 2 = some (m.pc - 2) := sub_eq_some hp.left
    simp only [execute, firstKey_eq, setReg_eq hw, hs, Machine.execute]
    cases m.keys.first? <;> rfl
  case digits x =>
    refine onSpan_eq fun h => ?_
    rw [reg_eq hw]
    exact store_eq h
  case save x =>
    refine onSpan_eq fun h => ?_
    have hw : x.toNat < 16 := hw
    have hl : (m.regs.upTo x).length = x.toNat + 1 := by simp [Registers.upTo]; omega
    rw [firstRegs_eq hw]
    exact store_eq (hl ▸ h)
  case restore x =>
    refine onSpan_eq fun h => ?_
    have hw : x.toNat < 16 := hw
    have hr : readSpan m.ram m.index.toNat (x.toNat + 1) = some _ := if_pos h
    rw [hr]
    exact if_pos (by rw [Memory.length_readSpan]; omega)
  all_goals simp [execute, next, reg_eq hw, setReg_eq hw, setFlagged_eq hw, Machine.execute]

theorem countTimer_eq (v : UInt8) : countTimer v = some (if v = 0 then 0 else v - 1) := by
  unfold countTimer
  split
  case isTrue    => rfl
  case isFalse h => exact decrement_eq_some h

theorem countDown_eq (m : Machine) : countDown m = some m.countDown := by
  simp only [countDown, countTimer_eq]
  rfl

theorem fresh_eq : fresh = some .fresh := by
  have h : Font.start + Font.glyphs.length ≤ Memory.size := by decide
  have hw : writeSpan .zero Font.start Font.glyphs = some .fresh := if_pos h
  simp [fresh, hw, Machine.fresh]

theorem withImage_eq (h : image.length ≤ Memory.programCapacity) :
    withImage image = some (.withImage image) := by
  have h : Memory.programStart + image.length ≤ Memory.size := by
    simp only [Memory.programCapacity, Memory.size, Memory.programStart] at *
    omega
  have hw : writeSpan .fresh Memory.programStart image = some _ := if_pos h
  simp [withImage, fresh_eq, Machine.fresh, hw, Machine.withImage]

end Machine

section Emulator

variable {e : Emulator}

theorem create_eq (noise : Noise) : create noise = some (.create noise) := by
  simp [create, fresh_eq, Emulator.create]

theorem tick_eq (e : Emulator) : tick e = some e.tick := by
  simp only [tick]
  split
  case isTrue h =>
    have hf := Machine.fetch_eq_error_iff.mpr ⟨h, rfl⟩
    simp [Emulator.tick, Emulator.tickWith_eq, hf]
  case isFalse h =>
    have h : e.machine.pc.toNat + 1 < Memory.size := Nat.not_le.mp h
    have hf := Machine.fetch_eq_ok_iff.mpr ⟨h, rfl⟩
    have ha : add e.machine.pc 2 = some (e.machine.pc + 2) := by
      simp only [Memory.size] at h
      exact add_eq_some (by simp [UInt16.size]; omega)
    have hg {i} (hi : i < 4096) : get e.machine.ram i = some (e.machine.ram.read i) := by
      simp [get_eq_some hi, Memory.read, hi]
    have h0 : e.machine.pc.toNat < 4096 := Nat.lt_of_succ_lt h
    simp only [hg h0, hg h, ha, bind, Option.bind_some, Emulator.tick, Emulator.tickWith_eq, hf,
      Emulator.past]
    cases hd : Instr.decode _
    case error => rfl
    case ok i =>
      have hx : execute e.past.machine e.noise i = _ :=
        execute_eq (Instr.decode_wellFormed hd) (Emulator.past_pc_bounds h)
      simp only [Emulator.past] at hx
      simp only [hx]
      cases Machine.execute _ e.noise i <;> rfl

theorem run_eq (n : Nat) (e : Emulator) (signal : Signal) (records : Array Record) :
    run n e signal records = some (Emulator.run.go n e signal records) := by
  induction n generalizing e signal records
  case zero => rfl
  case succ n hi =>
    simp only [run, tick_eq, bind, Option.bind, Emulator.run.go]
    cases e.tick.answer
    case error => rfl
    case ok    => exact hi ..

theorem load_eq (e : Emulator) (image : List UInt8) : load e image = some (e.load image) := by
  unfold load Emulator.load
  split
  case isTrue h  => simp [withImage_eq h]
  case isFalse h => rfl

theorem perform_eq (e : Emulator) (op : Operation) : perform e op = some (e.perform op) := by
  cases op
  case tick => simp [perform, tick_eq, Emulator.perform]
  case run n => simp [perform, run_eq, Emulator.perform, Emulator.run]
  case countDown =>
    simp [perform, countDown_eq, Emulator.perform, Emulator.countDown, Outcome.map]
  case switchKey k pressed =>
    simp [perform, setKey_eq, Emulator.perform, Emulator.switchKey, Machine.switchKey]
  case releaseKeys => rfl
  case reset => simp [perform, fresh_eq, Emulator.perform, Emulator.reset, Outcome.map]
  case load image => simp [perform, load_eq, Emulator.perform]

-- Whatever a host has done, the machine is within its bounds, and nothing that the host does next
-- overflows or leaves an array.
theorem perform_after (noise : Noise) (ops : List Operation) :
    let e := (Emulator.create noise).performAll ops
    e.machine.pc.toNat ≤ 0x10FE ∧
    e.machine.stack.depth ≤ 16 ∧
    (∀ a ∈ e.machine.stack.toList, 2 ≤ a.toNat ∧ a.toNat ≤ 0x1000) ∧
    create noise = some (.create noise) ∧
    ∀ op, perform e op = some (e.perform op) := by
  intro e
  have b : e.machine.InBounds := Emulator.inBounds_performAll noise ops
  exact ⟨b.pc, e.machine.stack.depth_le, b.stack, create_eq noise, perform_eq e⟩

end Emulator
end ChipEight.Checked
