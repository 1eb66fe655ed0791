import ChipEight.Proofs.Display.Toggling

namespace ChipEight

namespace Display

variable {ps : List Point}

-- When a pixel is drawn that is drawn only once, it still is as it was before the drawing.
theorem erased_foldl_step (hn : (ps.map index).Nodup) (s : Display × Bool) :
    (ps.foldl draw.step s).2 = (s.2 || ps.any s.1.lit) := by
  induction ps generalizing s
  case nil => simp
  case cons p ps hi =>
    have ⟨hp, hn⟩ := List.nodup_cons.mp hn
    have hl : ∀ q ∈ ps, (s.1.flip p).lit q = s.1.lit q := by
      intro q hq
      have hi : index p ≠ index q := fun h => hp <| h ▸ List.mem_map_of_mem hq
      rw [lit_flip, if_neg hi]
    have ha : ps.any (s.1.flip p).lit = ps.any s.1.lit := by
      rw [Bool.eq_iff_iff, List.any_eq_true, List.any_eq_true]
      exact exists_congr fun q => and_congr_right fun hq => by rw [hl q hq]
    rw [List.foldl_cons, hi hn, draw.step, List.any_cons, ha, Bool.or_assoc]

theorem lit_congr {d : Display} {p q : Point} (h : index p = index q) : d.lit p = d.lit q := by
  simp only [lit, h]

theorem erased_draw (hn : (ps.map index).Nodup) (d : Display) : (d.draw ps).2 = ps.any d.lit :=
  erased_foldl_step hn (d, false)

end Display

-- Whether a set bit of the sprite of `n` rows at the index register falls on `p` when the sprite is
-- drawn at `Vx` and `Vy`.
def Machine.mask (m : Machine) (x y n : UInt8) (p : Point) : Bool :=
  let column := ((p.1 : Int) - (m.reg x).toNat) % Display.width
  let row := ((p.2 : Int) - (m.reg y).toNat) % Display.height
  row < n.toNat && column < Sprite.width &&
    (m.ram.read (m.index.toNat + row.toNat)).toNat.testBit (7 - column.toNat)

namespace Machine

variable {m : Machine}

-- A sprite with no more rows than the screen has one bit at most for each pixel.
theorem mask_iff_covers (hn : n.toNat ≤ Display.height) (p : Point) :
    m.mask x y n p ↔ m.Covers x y n p := by
  have hc (c : Nat) (hc : c < Sprite.width) :
      ((m.reg x).toNat + c) % Display.width = p.1 % Display.width ↔
        ((p.1 : Int) - (m.reg x).toNat) % Display.width = c := by
    simp only [Sprite.width, Display.width] at hc ⊢
    omega
  have hr (r : Nat) (hr : r < n.toNat) :
      ((m.reg y).toNat + r) % Display.height = p.2 % Display.height ↔
        ((p.2 : Int) - (m.reg y).toNat) % Display.height = r := by
    simp only [Display.height] at hn ⊢
    omega
  simp only [mask, Bool.and_eq_true, decide_eq_true_iff]
  constructor
  case mp =>
    rintro ⟨⟨hn, hw⟩, hb⟩
    have hx : 0 ≤ ((p.1 : Int) - (m.reg x).toNat) % Display.width := Int.emod_nonneg _ (by decide)
    have hy : 0 ≤ ((p.2 : Int) - (m.reg y).toNat) % Display.height := Int.emod_nonneg _ (by decide)
    refine ⟨_, by omega, _, by omega, hb, (hc _ ?_).mpr ?_, (hr _ ?_).mpr ?_⟩ <;> omega
  case mpr =>
    rintro ⟨r, hn, c, hw, hb, hx, hy⟩
    rw [(hc c hw).mp hx, (hr r hn).mp hy]
    exact ⟨⟨Int.ofNat_lt.mpr hn, Int.ofNat_lt.mpr hw⟩, hb⟩

-- A pixel of the screen is lit under the mask.
def Collides (m : Machine) (x y n : UInt8) : Prop :=
  ∃ px < Display.width, ∃ py < Display.height, m.display.lit (px, py) ∧ m.mask x y n (px, py)

instance : Decidable (Collides m x y n) :=
  inferInstanceAs (Decidable (∃ px < _, ∃ py < _, _))

theorem collides_iff (hn : n.toNat ≤ Display.height) :
    m.Collides x y n ↔
      (Sprite.points (m.ram.readSpan m.index.toNat n.toNat) (m.reg x).toNat (m.reg y).toNat).any
        m.display.lit := by
  simp only [Collides, mask_iff_covers hn, covers_iff, List.any_eq_true]
  constructor
  case mp =>
    rintro ⟨px, _, py, _, hl, q, hq, hi⟩
    exact ⟨q, hq, by rwa [Display.lit_congr hi]⟩
  case mpr =>
    rintro ⟨q, hq, hl⟩
    have hi : Display.index q = Display.index (q.1 % Display.width, q.2 % Display.height) :=
      Display.index_eq_iff.mpr ⟨(Nat.mod_mod ..).symm, (Nat.mod_mod ..).symm⟩
    refine ⟨_, Nat.mod_lt _ (by decide), _, Nat.mod_lt _ (by decide), ?_, q, hq, hi⟩
    rwa [← Display.lit_congr hi]

theorem length_rows_le {n : UInt8} (hn : n.toNat ≤ Display.height) :
    (m.ram.readSpan m.index.toNat n.toNat).length ≤ 32 := by
  rwa [Memory.length_readSpan]

theorem lit_drawSprite (hn : n.toNat ≤ Display.height) (p : Point) :
    (m.drawSprite x y n).display.lit p = (m.display.lit p ^^ m.mask x y n p) := by
  have hm : m.mask x y n p = decide (m.Covers x y n p) := by
    rw [Bool.eq_iff_iff, mask_iff_covers hn, decide_eq_true_iff]
  rw [hm]
  simp only [covers_iff]
  exact Sprite.lit_draw_points m.display (length_rows_le hn) p

theorem regs_drawSprite (hn : n.toNat ≤ Display.height) :
    (m.drawSprite x y n).regs =
      m.regs.write Registers.flag (if m.Collides x y n then 1 else 0) := by
  have he := Display.erased_draw (Sprite.nodup_index_points (x := (m.reg x).toNat)
    (y := (m.reg y).toNat) (length_rows_le (m := m) hn)) m.display
  simp only [drawSprite, he, collides_iff hn]
  rfl

end Machine

namespace Emulator

variable {e : Emulator} {x y n : UInt8}

theorem tick_draw (hi : e.machine.instr? = some (.draw x y n))
    (hs : Memory.Spans e.machine.index.toNat n.toNat) :
    e.tick.answer = .ok .draw ∧
    e.tick.state = ⟨e.past.machine.drawSprite x y n, e.noise⟩ := by
  have hx : e.past.machine.execute e.noise (.draw x y n) = _ :=
    Machine.onSpan_eq_ok_iff.mpr ⟨hs, rfl⟩
  exact tick_of_execute hi hx

-- The coordinates are read before the flag is written, so they may lie in the flag register.
theorem draw_flips_mask (hi : e.machine.instr? = some (.draw x y n))
    (hs : e.machine.index.toNat + n.toNat ≤ Memory.size) :
    let m := e.machine
    let m' := e.tick.state.machine
    e.tick.answer = .ok .draw ∧
    (∀ p, m'.display.lit p = (m.display.lit p ^^ m.mask x y n p)) ∧
    m'.reg Registers.flag = (if m.Collides x y n then 1 else 0) ∧
    (∀ i : Fin 16, i ≠ 15 → m'.regs.get i = m.regs.get i) ∧
    e.tick.state =
      ⟨{ m with pc := m.pc + 2, regs := m'.regs, display := m'.display }, e.noise⟩ := by
  intro m m'
  have ⟨_, _, hn⟩ := Machine.wellFormed_of_instr? hi
  have hn : n.toNat ≤ Display.height := by
    simp only [Display.height]
    omega
  have ⟨ha, ht⟩ := tick_draw hi hs
  have hm : m' = e.past.machine.drawSprite x y n := congrArg Emulator.machine ht
  have hr : m'.regs = m.regs.write Registers.flag (if m.Collides x y n then 1 else 0) := by
    rw [hm]
    exact Machine.regs_drawSprite hn
  refine ⟨ha, ?_, ?_, ?_, ?_⟩
  · intro p
    rw [hm]
    exact Machine.lit_drawSprite hn p
  · rw [Machine.reg, hr, Registers.read_write, if_pos rfl]
  · intro i hi
    rw [hr]
    exact Vector.getElem_set_ne _ _ fun h => hi <| Fin.ext h.symm
  · rw [hm]
    exact ht

-- A glyph is drawn for the second time in the bottom right corner. Its place is in the flag
-- register, and its top left pixel goes out.
theorem draw_flips_mask_corner :
    let image := [0x6F, 0x3F, 0xDF, 0xF5, 0x6F, 0x3F, 0xDF, 0xF5]
    let e := (create ⟨fun _ => 0, 0⟩).performAll [.load image, .tick, .tick, .tick]
    e.machine.instr? = some (.draw 0xF 0xF 5) ∧
    e.machine.reg 0xF = 63 ∧
    e.machine.display.lit (63, 31) ∧
    e.tick.answer = .ok .draw ∧
    ¬e.tick.state.machine.display.lit (63, 31) ∧
    e.tick.state.machine.reg 0xF = 1 := by
  intro image e
  have ⟨hi, hs, hr, hl, hm⟩ :
      e.machine.instr? = some (.draw 0xF 0xF 5) ∧
      e.machine.index.toNat + UInt8.toNat 5 ≤ Memory.size ∧
      e.machine.reg 0xF = 63 ∧
      e.machine.display.lit (63, 31) ∧
      e.machine.mask 0xF 0xF 5 (63, 31) := by
    decide +kernel
  have ⟨ha, hd, hf, _⟩ := draw_flips_mask hi hs
  have hc : e.machine.Collides 0xF 0xF 5 := ⟨63, by decide, 31, by decide, hl, hm⟩
  refine ⟨hi, hr, hl, ha, ?_, ?_⟩
  · rw [hd, hl, hm]
    exact Bool.false_ne_true
  · exact hf.trans (if_pos hc)

end Emulator
end ChipEight
