import ChipEight.Display
import Mathlib.Algebra.Ring.Parity
import Mathlib.Data.List.Nodup
import Mathlib.Tactic.IntervalCases

namespace ChipEight

namespace Display

-- The second part tells whether a pixel was erased on the way.
def draw (d : Display) (ps : List Point) : Display × Bool :=
  ps.foldl step (d, false)
where
  step (s : Display × Bool) (p : Point) : Display × Bool :=
    let erased := s.2 || s.1.lit p
    (s.1.flip p, erased)

variable {d d' : Display} {ps qs : List Point}

theorem index_eq_iff {p q : Point} :
    index p = index q ↔ p.1 % 64 = q.1 % 64 ∧ p.2 % 32 = q.2 % 32 := by
  simp only [index, Fin.mk.injEq]
  omega

theorem index_mod_div (h : i < 2048) : index (i % 64, i / 64) = ⟨i, h⟩ := by
  simp only [index, Fin.mk.injEq]
  omega

theorem ext_lit (h : ∀ p, d.lit p = d'.lit p) : d = d' := by
  ext i hi
  simpa [lit, index_mod_div hi] using h (i % 64, i / 64)

theorem litCount_eq (d : Display) :
    d.litCount = (List.range 2048).countP fun i => d.lit (i % 64, i / 64) := by
  have hc : d.cells.toList = (List.range 2048).map fun i => d.lit (i % 64, i / 64) := by
    apply List.ext_getElem
    · simp
    · intro i hi _
      have hi : i < 2048 := by simpa using hi
      simp [lit, index_mod_div hi]
  rw [litCount, hc, List.count, List.countP_map]
  exact List.countP_congr fun i _ => by simp

theorem lit_foldl_step (ps : List Point) (s : Display × Bool) (q : Point) :
    (ps.foldl draw.step s).1.lit q = (s.1.lit q ^^ decide (Odd <| (ps.map index).count (index q))) := by
  induction ps generalizing s
  case nil => simp
  case cons p ps hi =>
    rw [List.foldl_cons, hi, draw.step, lit_flip, List.map_cons, List.count_cons]
    by_cases h : index p = index q
    case pos =>
      simp only [h, if_true, beq_self_eq_true, Nat.odd_add_one, decide_not, Bool.xor_not,
        Bool.not_xor]
    case neg => simp [h]

theorem lit_draw (d : Display) (ps : List Point) (q : Point) :
    (d.draw ps).1.lit q = (d.lit q ^^ decide (Odd <| (ps.map index).count (index q))) :=
  lit_foldl_step ps (d, false) q

theorem draw_comm : ((d.draw ps).1.draw qs).1 = ((d.draw qs).1.draw ps).1 := by
  apply ext_lit
  intro p
  simp only [lit_draw, Bool.xor_assoc]
  congr 1
  exact Bool.xor_comm ..

theorem draw_draw : ((d.draw ps).1.draw ps).1 = d := by
  apply ext_lit
  intro p
  simp only [lit_draw, Bool.xor_assoc, Bool.xor_self, Bool.xor_false]

end Display

namespace Sprite

variable {rows : List UInt8} {x y : Nat}

theorem mem_points {p : Point} :
    p ∈ points rows x y ↔
      ∃ r row, rows[r]? = some row ∧ ∃ c < 8, row.toNat.testBit (7 - c) ∧ p = (x + c, y + r) := by
  simp only [points, List.mem_flatMap, Prod.exists, List.mem_zipIdx_iff_getElem?, List.mem_filterMap,
    List.mem_range, width, Option.ite_none_right_eq_some, Option.some.injEq]
  constructor
  case mp  => intro ⟨row, r, hr, c, hc, hb, hp⟩; exact ⟨r, row, hr, c, hc, hb, hp.symm⟩
  case mpr => intro ⟨r, row, hr, c, hc, hb, hp⟩; exact ⟨row, r, hr, c, hc, hb, hp.symm⟩

theorem nodup_points (rows : List UInt8) (x y : Nat) : (points rows x y).Nodup := by
  rw [points, List.nodup_flatMap]
  constructor
  case left =>
    intro _ _
    exact List.nodup_range.filterMap (by grind)
  case right =>
    have h : (rows.zipIdx.map Prod.snd).Nodup := by
      rw [List.zipIdx_map_snd]
      exact List.nodup_range'
    apply List.pairwise_map.mp h |>.imp
    intro a b hn p ha hb
    simp only [List.mem_filterMap, List.mem_range] at ha hb
    grind

-- Eight columns and 32 rows do not reach around the screen.
theorem nodup_index_points (h : rows.length ≤ 32) :
    ((points rows x y).map Display.index).Nodup := by
  apply (nodup_points rows x y).map_on
  intro p hp q hq hi
  have ⟨r, _, hr, c, hc, _, hp⟩ := mem_points.mp hp
  have ⟨r', _, hr', c', hc', _, hq⟩ := mem_points.mp hq
  have := List.getElem?_eq_some_iff.mp hr |>.choose
  have := List.getElem?_eq_some_iff.mp hr' |>.choose
  subst hp hq
  have ⟨_, _⟩ := Display.index_eq_iff.mp hi
  ext <;> simp only at * <;> omega

-- Drawing a sprite flips each pixel under it once.
theorem lit_draw_points (d : Display) (h : rows.length ≤ 32) (q : Point) :
    (d.draw (points rows x y)).1.lit q =
      (d.lit q ^^ decide (∃ p ∈ points rows x y, Display.index p = Display.index q)) := by
  have hn : ((points rows x y).map Display.index).count (Display.index q) ≤ 1 :=
    List.nodup_iff_count_le_one.mp (nodup_index_points h) _
  have hm : (∃ p ∈ points rows x y, Display.index p = Display.index q) ↔
      0 < ((points rows x y).map Display.index).count (Display.index q) := by
    rw [List.count_pos_iff, List.mem_map]
  have ho : Odd (((points rows x y).map Display.index).count (Display.index q)) ↔
      ∃ p ∈ points rows x y, Display.index p = Display.index q := by
    rw [hm]
    interval_cases ((points rows x y).map Display.index).count (Display.index q) <;> simp
  simp only [Display.lit_draw, ho]

end Sprite
end ChipEight
