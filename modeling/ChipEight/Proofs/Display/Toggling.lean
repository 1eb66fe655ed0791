import ChipEight.Proofs.Display.Drawing
import ChipEight.Proofs.Emulator.History

namespace ChipEight

-- The sprite of `n` rows at the index register has a set bit at `p` when drawn at `Vx` and `Vy`.
def Machine.Covers (m : Machine) (x y n : UInt8) (p : Point) : Prop :=
  ∃ r < n.toNat, ∃ c < Sprite.width,
    (m.ram.read (m.index.toNat + r)).toNat.testBit (7 - c) ∧
    ((m.reg x).toNat + c) % Display.width = p.1 % Display.width ∧
    ((m.reg y).toNat + r) % Display.height = p.2 % Display.height

instance : Decidable (Machine.Covers m x y n p) :=
  inferInstanceAs (Decidable (∃ r < _, ∃ c < _, _))

theorem Machine.covers_iff {m : Machine} :
    m.Covers x y n p ↔
      ∃ q ∈ Sprite.points (m.ram.readSpan m.index.toNat n.toNat) (m.reg x).toNat (m.reg y).toNat,
        Display.index q = Display.index p := by
  simp only [Covers, Sprite.mem_points, Memory.getElem?_readSpan, Display.index_eq_iff]
  constructor
  case mp =>
    intro ⟨r, hr, c, hc, hb, hx, hy⟩
    exact ⟨_, ⟨r, _, if_pos hr, c, hc, hb, rfl⟩, hx, hy⟩
  case mpr =>
    intro ⟨_, ⟨r, _, hr, c, hc, hb, hq⟩, hx, hy⟩
    have ⟨hl, hr⟩ := Option.ite_none_right_eq_some.mp hr
    injection hr with hr
    subst hq hr
    exact ⟨r, hl, c, hc, hb, hx, hy⟩

namespace Moment

variable {t : Moment}

-- The screen is blank afterwards.
def wipes (t : Moment) : Bool :=
  t.restarts || t.executed? == some .clear

-- A sprite is drawn over `p`.
def drawsOver (p : Point) (t : Moment) : Bool :=
  match t.executed? with
  | some (.draw x y n) => t.before.machine.Covers x y n p
  | _                  => false

theorem Kind.display_after (k : t.Kind) (hw : t.wipes = false)
    (hd : ∀ x y n, t.executed? ≠ some (.draw x y n)) :
    t.after.machine.display = t.before.machine.display := by
  cases k
  case restart hr _ => simp [wipes, hr] at hw
  case rest h => exact h.display
  case execute i _ hr hi hx =>
    have hf := Machine.Frame.of_execute hx
    refine hf.display (fun hc => ?_) (fun x y n hc => hd x y n <| hc ▸ hi)
    simp [wipes, hi, hc] at hw

theorem Kind.lit_after (k : t.Kind) (p : Point) :
    t.after.machine.display.lit p =
      if t.wipes then false else (t.before.machine.display.lit p ^^ t.drawsOver p) := by
  have hk := k
  cases k
  case restart hr h =>
    obtain ⟨_, h⟩ := h
    simp [wipes, hr, h, Machine.withImage]
  case rest hr hi h => simp [wipes, drawsOver, hr, hi, h.display]
  case execute i _ hr hi hx =>
    cases i
    case clear => simp [wipes, hi, Machine.execute_clear hx]
    case draw x y n =>
      obtain ⟨_, _, hi'⟩ := executed?_eq_some_iff.mp hi
      obtain ⟨_, _, hn⟩ := Machine.wellFormed_of_instr? hi'
      have hw : t.wipes = false := by simp [wipes, hr, hi]
      have hd : t.drawsOver p = decide (t.before.machine.Covers x y n p) := by simp [drawsOver, hi]
      have hl : (t.before.machine.ram.readSpan t.before.machine.index.toNat n.toNat).length ≤ 32 := by
        rw [Memory.length_readSpan]
        omega
      rw [Machine.execute_draw hx, hw, hd]
      simp only [Machine.covers_iff]
      exact Sprite.lit_draw_points t.before.machine.display hl p
    all_goals
      have hw : t.wipes = false := by simp [wipes, hr, hi]
      have hd : t.drawsOver p = false := by simp [drawsOver, hi]
      simp [hw, hd, hk.display_after hw (by simp [hi])]

end Moment

-- How many sprites were drawn over `p` since the screen was last blank.
def layers (p : Point) (h : List Moment) : Nat :=
  h.takeWhile (!·.wipes) |>.countP (·.drawsOver p)

theorem layers_cons (p : Point) (t : Moment) (h : List Moment) :
    layers p (t :: h) = if t.wipes then 0 else layers p h + if t.drawsOver p then 1 else 0 := by
  cases hw : t.wipes <;> simp [layers, hw, List.countP_cons]

theorem Emulator.Leads.lit_eq (l : Leads e h e') (he : e.machine.display = .blank) (p : Point) :
    e'.machine.display.lit p = decide (Odd <| layers p h) := by
  induction l
  case nil => simp [he, layers]
  case cons t _ hs hi =>
    rw [(Moment.kind hs).lit_after, hi, layers_cons]
    cases t.wipes <;> cases t.drawsOver p <;> simp [Nat.odd_add_one, ← Nat.not_even_iff_odd]

-- The order in which sprites are drawn does not matter, and a sprite that is drawn once more at its
-- place is gone.
theorem lit_iff_odd_layers (noise : Noise) (ops : List Operation) :
    let e := (Emulator.create noise).performAll ops
    let h := (Emulator.create noise).history ops
    (∀ p, e.machine.display.lit p ↔ Odd (layers p h)) ∧
    (∀ t ∈ h, t.wipes = false → (∀ x y n, t.executed? ≠ some (.draw x y n)) →
      t.after.machine.display = t.before.machine.display) ∧
    (∀ (d : Display) rows x y rows' x' y',
      let s  := Sprite.points rows x y
      let s' := Sprite.points rows' x' y'
      ((d.draw s).1.draw s').1 = ((d.draw s').1.draw s).1 ∧ ((d.draw s).1.draw s).1 = d) := by
  intro e h
  have l : Emulator.Leads _ h e := Emulator.leads_history _ ops
  refine ⟨?_, ?_, ?_⟩
  · intro p
    rw [l.lit_eq rfl p, decide_eq_true_iff]
  · intro t ht hw hd
    exact Moment.kind (l.single_of_mem ht) |>.display_after hw hd
  · intro d rows x y rows' x' y'
    exact ⟨Display.draw_comm, Display.draw_draw⟩

end ChipEight
