import ChipEight.Proofs.Display.Drawing

namespace ChipEight

-- Where the items are that come from one of many lists of the same length.
theorem getElem?_flatMap_range {f : Nat → List α} (hl : ∀ j, (f j).length = len) (hj : j < n)
    (hi : i < len) : ((List.range n).flatMap f)[len * j + i]? = (f j)[i]? := by
  have hs (n : Nat) : ((List.range n).flatMap f).length = len * n := by
    simp [List.length_flatMap, hl, Nat.mul_comm]
  induction n
  case zero => contradiction
  case succ n ih =>
    rw [List.range_succ, List.flatMap_append, List.flatMap_singleton]
    rcases Nat.lt_succ_iff_lt_or_eq.mp hj with hj | rfl
    case inl =>
      have hb : len * j + i < len * n := calc
        len * j + i < len * (j + 1) := by rw [Nat.mul_succ]; omega
        _ ≤ len * n                 := Nat.mul_le_mul_left len hj
      rw [List.getElem?_append_left (hs n ▸ hb), ih hj]
    case inr =>
      rw [List.getElem?_append_right (hs j ▸ Nat.le_add_right ..), hs, Nat.add_sub_cancel_left]

namespace Display

variable {d d' : Display}

-- The row at `y`, with its line break.
def line (d : Display) (y : Nat) : List Char :=
  (d.row y).map (if · then '#' else '.') ++ ['\n']

@[simp]
theorem length_row (d : Display) (y : Nat) : (d.row y).length = width := by
  simp [row]

@[simp]
theorem length_line (d : Display) (y : Nat) : (d.line y).length = width + 1 := by
  simp [line]

theorem toList_text (d : Display) : d.text.toList = (List.range height).flatMap d.line :=
  String.toList_ofList

theorem length_text (d : Display) : d.text.length = height * (width + 1) := by
  simp [text, row]

theorem getElem?_text (d : Display) (hy : y < height) (hx : x < width + 1) :
    d.text.toList[(width + 1) * y + x]? = (d.line y)[x]? := by
  rw [toList_text]
  exact getElem?_flatMap_range d.length_line hy hx

-- Within the edges a row and the coordinates of a point lead to the same cell.
theorem getElem?_row (d : Display) (hy : y < height) (hx : x < width) :
    (d.row y)[x]? = some (d.lit (x, y)) := by
  have hi : (index (x, y)).val = x + y * width := by
    simp only [height, width, index] at hy hx ⊢
    omega
  have hc : d.cells[x + y * width]? = some (d.lit (x, y)) := by
    rw [← hi]
    exact Vector.getElem?_eq_getElem (index (x, y)).isLt
  rw [row, List.getElem?_map, List.getElem?_range hx, Option.map_some, hc, Option.getD_some]

theorem getElem?_line_of_lt (d : Display) (hy : y < height) (hx : x < width) :
    (d.line y)[x]? = some (if d.lit (x, y) then '#' else '.') := by
  rw [line, List.getElem?_append_left (by simpa using hx), List.getElem?_map,
    d.getElem?_row hy hx, Option.map_some]

theorem getElem?_line_width (d : Display) (y : Nat) : (d.line y)[width]? = some '\n' := by
  rw [line, List.getElem?_append_right (by simp)]
  simp

theorem lit_mod (d : Display) (x y : Nat) : d.lit (x, y) = d.lit (x % width, y % height) := by
  have hi : index (x, y) = index (x % width, y % height) :=
    index_eq_iff.mpr ⟨(Nat.mod_mod ..).symm, (Nat.mod_mod ..).symm⟩
  simp only [lit, hi]

theorem text_injective (h : d.text = d'.text) : d = d' := by
  apply ext_lit
  intro (x, y)
  have hx : x % width < width := Nat.mod_lt _ (by decide)
  have hy : y % height < height := Nat.mod_lt _ (by decide)
  have hc : (if d.lit (x % width, y % height) then '#' else '.') =
      if d'.lit (x % width, y % height) then '#' else '.' := by
    have ht := d.getElem?_text hy (Nat.lt_succ_of_lt hx)
    rw [h, d'.getElem?_text hy (Nat.lt_succ_of_lt hx), getElem?_line_of_lt _ hy hx,
      getElem?_line_of_lt _ hy hx] at ht
    exact Option.some.inj ht.symm
  rw [lit_mod, d'.lit_mod]
  grind

-- Each character of the text shows the pixel at its place, wherever the coordinates wrap around to,
-- and screens with the same text are the same.
theorem text_shows_display (d : Display) :
    d.text.length = 32 * 65 ∧
    (∀ x < 64, ∀ y < 32,
      d.text.toList[65 * y + x]? = some (if d.lit (x, y) then '#' else '.')) ∧
    (∀ y < 32, d.text.toList[65 * y + 64]? = some '\n') ∧
    (∀ d' : Display, d.text = d'.text ↔ d = d') ∧
    (∀ x y, d.lit (x, y) = d.lit (x % 64, y % 32) ∧
      some (d.lit (x, y)) = d.cells[x % 64 + 64 * (y % 32)]?) := by
  refine ⟨d.length_text, ?_, ?_, ?_, ?_⟩
  · intro x hx y hy
    rw [← d.getElem?_line_of_lt hy hx]
    exact d.getElem?_text hy (Nat.lt_succ_of_lt hx)
  · intro y hy
    rw [← d.getElem?_line_width y]
    exact d.getElem?_text hy (Nat.lt_succ_self width)
  · exact fun d' => ⟨text_injective, congrArg text⟩
  · intro x y
    refine ⟨d.lit_mod x y, ?_⟩
    rw [Vector.getElem?_eq_getElem (by omega)]
    rfl

-- A pixel is lit from beyond the edges, in the sixth place of the fourth line.
theorem text_shows_display_dot :
    let d := blank.flip (69, 35)
    d.text.toList[65 * 3 + 5]? = some '#' ∧ d.text.toList[65 * 3 + 64]? = some '\n' ∧
    d.text ≠ blank.text := by
  intro d
  have hl : d.lit (69, 35) := by
    rw [lit_flip, if_pos rfl, lit_blank]
    rfl
  have ⟨_, hp, hb, ht, hm⟩ := text_shows_display d
  have hm : d.lit (5, 3) = true := (hm 69 35).left.symm.trans hl
  refine ⟨?_, hb 3 (by decide), ?_⟩
  · rw [hp 5 (by decide) 3 (by decide), if_pos hm]
  · intro h
    rw [(ht blank).mp h, lit_blank] at hm
    exact Bool.false_ne_true hm

end Display
end ChipEight
