import ChipEight.Proofs.Maze.Code
import ChipEight.Proofs.Noise.Drawing

namespace ChipEight.Maze

open Emulator

section

variable {pc index : UInt16} {v₀ v₁ v₂ : UInt8} {d : Display} {source : Noise}

-- The left half of a sprite has one dot in each row, the right half has none.
def dot (b : UInt8) (row column : Nat) : Bool :=
  ((rows b)[row]?.getD 0).toNat.testBit (7 - column)

theorem dot_of_four_le (b : UInt8) (hr : row < 4) (hc : 4 ≤ column ∧ column < 8) :
    dot b row column = false := by
  have ⟨_, _⟩ := hc
  unfold dot rows
  interval_cases row <;> interval_cases column <;> split <;> rfl

theorem countP_dot (b : UInt8) (hr : row < 4) : (List.range 4).countP (dot b row) = 1 := by
  unfold dot rows
  interval_cases row <;> split <;> rfl

-- The number of the cell that a pixel lies in.
def cell (p : Point) : Nat :=
  p.1 % Display.width / 4 + 16 * (p.2 % Display.height / 4)

def column (c : Nat) : UInt8 := .ofNat (4 * (c % 16))

def row (c : Nat) : UInt8 := .ofNat (4 * (c / 16))

theorem toNat_column (c : Nat) : (column c).toNat = 4 * (c % 16) := by
  simp only [column, UInt8.toNat_ofNat']
  omega

theorem toNat_row (hc : c ≤ 128) : (row c).toNat = 4 * (c / 16) := by
  simp only [row, UInt8.toNat_ofNat']
  omega

theorem four_le_height : UInt8.toNat 4 ≤ Display.height := by
  decide

-- The sprite of a cell covers the dots of this cell only.
theorem mask_eq (b : UInt8) (hc : c < 128) (p : Point) :
    (machine pc (sprite b) (column c) (row c) v₂ d).mask 0 1 4 p =
      (decide (cell p = c) && dot b (p.2 % 4) (p.1 % 4)) := by
  have hx : (machine pc (sprite b) (column c) (row c) v₂ d).reg 0 = column c := rfl
  have hy : (machine pc (sprite b) (column c) (row c) v₂ d).reg 1 = row c := rfl
  have h4 : UInt8.toNat 4 = 4 := rfl
  simp only [Machine.mask, hx, hy, h4, toNat_column, toNat_row (Nat.le_of_lt hc), Display.width,
    Display.height, Sprite.width]
  generalize hq : ((p.1 : Int) - ↑(4 * (c % 16))) % ↑64 = q
  generalize hr : ((p.2 : Int) - ↑(4 * (c / 16))) % ↑32 = r
  by_cases hp : cell p = c
  case pos =>
    have hp' := hp
    simp only [cell, Display.width, Display.height] at hp'
    have hq : q = ↑(p.1 % 4) := by omega
    have hr : r = ↑(p.2 % 4) := by omega
    have hw : q < ((8 : Nat) : Int) := by omega
    have hn : r < ((4 : Nat) : Int) := by omega
    have hb := read_sprite b <| Nat.mod_lt p.2 (by decide : 0 < 4)
    rw [decide_eq_true hw, decide_eq_true hn, decide_eq_true hp, hq, hr, Int.toNat_natCast,
      Int.toNat_natCast, dot, ← hb]
    rfl
  case neg =>
    rw [decide_eq_false hp, Bool.false_and, Bool.eq_false_iff]
    intro hm
    simp only [Bool.and_eq_true, decide_eq_true_iff] at hm
    obtain ⟨⟨hn, hw⟩, hb⟩ := hm
    simp only [cell, Display.width, Display.height] at hp
    have hf : dot b r.toNat q.toNat = false := dot_of_four_le b (by omega) (by omega)
    rw [dot, ← read_sprite b (by omega)] at hf
    exact Bool.false_ne_true <| hf.symm.trans hb

-- What the screen shows when `c` cells are drawn.
def shows (source : Noise) (c : Nat) (p : Point) : Bool :=
  cell p < c && dot (source.upcoming <| cell p) (p.2 % 4) (p.1 % 4)

-- The cells that are drawn already lie elsewhere.
theorem not_collides (hd : ∀ p, d.lit p = shows source c p) (hc : c < 128) :
    ¬(machine pc (sprite <| source.upcoming c) (column c) (row c) v₂ d).Collides 0 1 4 := by
  rintro ⟨px, _, py, _, hl, hm⟩
  have hl : d.lit (px, py) = true := hl
  rw [hd, shows, Bool.and_eq_true, decide_eq_true_iff] at hl
  rw [mask_eq _ hc, Bool.and_eq_true, decide_eq_true_iff] at hm
  omega

theorem drawSprite_eq (hn : ¬(machine pc index v₀ v₁ v₂ d).Collides 0 1 4) :
    (machine pc index v₀ v₁ v₂ d).drawSprite 0 1 4 =
      machine pc index v₀ v₁ v₂ ((machine pc index v₀ v₁ v₂ d).drawSprite 0 1 4).display := by
  let m := machine pc index v₀ v₁ v₂ d
  have hr : (m.drawSprite 0 1 4).regs = m.regs := by
    rw [Machine.regs_drawSprite four_le_height, if_neg hn]
    rfl
  calc
    m.drawSprite 0 1 4
    _ = { m with regs := (m.drawSprite 0 1 4).regs, display := (m.drawSprite 0 1 4).display } := rfl
    _ = machine pc index v₀ v₁ v₂ (m.drawSprite 0 1 4).display := by rw [hr]; rfl

theorem shows_succ (source : Noise) (c : Nat) (p : Point) :
    shows source (c + 1) p =
      (shows source c p ^^
        (decide (cell p = c) && dot (source.upcoming c) (p.2 % 4) (p.1 % 4))) := by
  rcases Nat.lt_trichotomy (cell p) c with h | h | h
  · simp [shows, h, Nat.ne_of_lt h, Nat.lt_succ_of_lt h]
  · simp [shows, h]
  · simp [shows, Nat.ne_of_gt h, Nat.not_lt_of_gt h, Nat.not_lt.mpr h]

theorem draws (hd : ∀ p, d.lit p = shows source c p) (hc : c < 128) (v₂ : UInt8) (s : Noise) :
    ∃ d' : Display, (∀ p, d'.lit p = shows source (c + 1) p) ∧
      Path ⟨machine 0x208 (sprite <| source.upcoming c) (column c) (row c) v₂ d, s⟩ 2
        ⟨machine 0x20C (sprite <| source.upcoming c) (column c + 4) (row c) v₂ d', s⟩ := by
  let m := machine 0x20A (sprite <| source.upcoming c) (column c) (row c) v₂ d
  refine ⟨(m.drawSprite 0 1 4).display, ?_, ?_⟩
  · intro p
    rw [Machine.lit_drawSprite four_le_height, mask_eq _ hc, shows_succ, ← hd]
    rfl
  · have p₁ : Path ⟨machine 0x208 (sprite <| source.upcoming c) (column c) (row c) v₂ d, s⟩ 1
        ⟨m.drawSprite 0 1 4, s⟩ :=
      .of_draw (instr?_of_mem <| by decide) (spans_sprite _)
    rw [drawSprite_eq <| not_collides hd hc] at p₁
    exact p₁.trans <| executes (i := .addByte 0 4) (by decide) rfl

theorem column_add_four (h : (c + 1) % 16 ≠ 0) : column c + 4 = column (c + 1) := by
  simp only [← UInt8.toNat_inj, UInt8.toNat_add, toNat_column, UInt8.reduceToNat]
  omega

theorem column_last (h : (c + 1) % 16 = 0) : column c + 4 = 0x40 ∧ column (c + 1) = 0 := by
  simp only [← UInt8.toNat_inj, UInt8.toNat_add, toNat_column, UInt8.reduceToNat]
  omega

theorem row_add_four (hc : c < 128) (h : (c + 1) % 16 = 0) : row c + 4 = row (c + 1) := by
  simp only [← UInt8.toNat_inj, UInt8.toNat_add, toNat_row (Nat.le_of_lt hc), toNat_row hc,
    UInt8.reduceToNat]
  omega

-- From one cell to the next takes longer at the end of a row.
theorem advances (hc : c < 128) (index : UInt16) (v₂ : UInt8) (d : Display) (s : Noise) :
    ∃ n ≤ 2 + (if (c + 1) % 16 = 0 then 3 else 0),
      Path ⟨machine 0x20C index (column c + 4) (row c) v₂ d, s⟩ n
        ⟨machine (if c + 1 < 128 then 0x200 else 0x218) index (column (c + 1)) (row (c + 1)) v₂ d,
          s⟩ := by
  by_cases h : (c + 1) % 16 = 0
  case neg =>
    have hn : c + 1 < 128 := by omega
    have hr : row (c + 1) = row c := by simp only [row, show (c + 1) / 16 = c / 16 by omega]
    have hv : column (c + 1) ≠ 0x40 := by
      simp only [ne_eq, ← UInt8.toNat_inj, toNat_column, UInt8.reduceToNat]
      omega
    rw [if_neg h, if_pos hn, hr, column_add_four h]
    exact ⟨2, Nat.le_refl 2, goes_on hv⟩
  case pos =>
    have ⟨hv, h0⟩ := column_last h
    have p : Path ⟨machine 0x20C index (column c + 4) (row c) v₂ d, s⟩ 3
        ⟨machine 0x214 index 0 (row c + 4) v₂ d, s⟩ := hv ▸ wraps
    rw [row_add_four hc h] at p
    rw [if_pos h, h0]
    by_cases hn : c + 1 < 128
    case pos =>
      have hr : row (c + 1) ≠ 0x20 := by
        simp only [ne_eq, ← UInt8.toNat_inj, toNat_row hc, UInt8.reduceToNat]
        omega
      rw [if_pos hn]
      exact ⟨5, Nat.le_refl 5, p.trans <| starts_row hr⟩
    case neg =>
      have hr : row (c + 1) = 0x20 := by
        simp only [← UInt8.toNat_inj, toNat_row hc, UInt8.reduceToNat]
        omega
      rw [hr] at p
      rw [if_neg hn, hr]
      exact ⟨4, by decide, p.trans ends⟩

end

-- The emulator is about to draw cell `c`, or is done when there are no more cells.
inductive Stage (source : Noise) (c : Nat) : Emulator → Prop
  | intro (hd : ∀ p, d.lit p = shows source c p) :
    Stage source c
      ⟨machine (if c < 128 then 0x200 else 0x218) index (column c) (row c) v₂ d, source.skip c⟩

-- No more ticks than these are needed for the first `c` cells.
def ticks (c : Nat) : Nat :=
  8 * c + 3 * (c / 16)

theorem Stage.next (h : Stage source c e) (hc : c < 128) :
    ∃ n e', ticks c + n ≤ ticks (c + 1) ∧ Path e n e' ∧ Stage source (c + 1) e' := by
  obtain @⟨index, v₂, d, hd⟩ := h
  rw [if_pos hc]
  have ⟨k, hk, v, p₁⟩ := chooses index (column c) (row c) v₂ d (source.skip c)
  have ⟨d', hd', p₂⟩ := draws hd hc v (source.skip <| c + 1)
  have ⟨l, hl, p₃⟩ := advances hc (sprite <| source.upcoming c) v d' (source.skip <| c + 1)
  refine ⟨k + 2 + l, _, ?_, p₁.trans p₂ |>.trans p₃, .intro hd'⟩
  simp only [ticks]
  split at hl <;> omega

theorem reaches (hc : c ≤ 128) (h : Stage source 0 e) :
    ∃ n e', n ≤ ticks c ∧ Path e n e' ∧ Stage source c e' := by
  induction c
  case zero => exact ⟨0, e, Nat.le_refl 0, .refl e, h⟩
  case succ c hi =>
    have ⟨m, e', hm, p, h⟩ := hi <| Nat.le_of_succ_le hc
    have ⟨n, e'', hn, p', h⟩ := h.next hc
    exact ⟨m + n, e'', by omega, p.trans p', h⟩

theorem countP_range_mul {p : Nat → Bool}
    (h : ∀ k < n, (List.range m).countP (p <| m * k + ·) = a) :
    (List.range (m * n)).countP p = a * n := by
  induction n
  case zero => rfl
  case succ n hi =>
    rw [Nat.mul_succ, List.range_add, List.countP_append, List.countP_map, Nat.mul_succ,
      hi fun k hk => h k (Nat.lt_succ_of_lt hk)]
    exact congrArg _ <| h n (Nat.lt_succ_self n)

-- When all cells are drawn, each of them has one dot in every row.
theorem litCount_of_shows {d : Display} (hd : ∀ p, d.lit p = shows source 128 p) :
    d.litCount = 512 := by
  rw [Display.litCount_eq]
  apply countP_range_mul (m := 4) (n := 512) (a := 1)
  intro k hk
  have hr : k / 16 % 4 < 4 := Nat.mod_lt _ (by decide)
  rw [← countP_dot (source.upcoming <| k % 16 + 16 * (k / 64)) hr]
  apply List.countP_congr
  intro j hj
  have hj := List.mem_range.mp hj
  have hx : cell ((4 * k + j) % 64, (4 * k + j) / 64) = k % 16 + 16 * (k / 64) := by
    simp only [cell, Display.width, Display.height]
    omega
  have hl : cell ((4 * k + j) % 64, (4 * k + j) / 64) < 128 := by omega
  have hr : (4 * k + j) / 64 % 4 = k / 16 % 4 := by omega
  have hc : (4 * k + j) % 64 % 4 = j := by omega
  rw [hd, shows, decide_eq_true hl, Bool.true_and, hx, hr, hc]

-- The bytes that decide on the cells are the next ones of the source, so they are its first ones
-- when no random byte was drawn before the program was loaded.
theorem maze_is_drawn (noise : Noise) (ops : List Operation) :
    let before := (create noise).performAll ops
    let loaded := before.load image
    let byte c := noise.upcoming (drawn ((create noise).history ops) + c)
    loaded.answer = .ok () ∧
    (∀ n, ∃ signal, (loaded.state.afterTicks n).tick.answer = .ok signal) ∧
    ∀ n ≥ 1200,
      let m := (loaded.state.afterTicks n).machine
      m.pc = 0x218 ∧ m.reg 0xF = 0 ∧ m.display.litCount = 512 ∧
      m.ram = loaded.state.machine.ram ∧
      ∀ c < 128, ∀ x < 4, ∀ y < 4,
        m.display.lit (4 * (c % 16) + x, 4 * (c / 16) + y) =
          (m.ram.read ((if byte c % 2 = 1 then 0x21E else 0x21A) + y)).toNat.testBit (7 - x) := by
  intro before loaded byte
  let source := noise.skip <| drawn ((create noise).history ops)
  have hl : loaded = _ := load_of_fits (by decide)
  have hs : before.noise = source := (leads_history _ ops).noise_eq
  have h : Stage source 0 loaded.state := by
    rw [hl, withImage_image, hs]
    exact .intro fun p => by simp [shows]
  have ⟨k, e, hk, p, h⟩ := reaches (Nat.le_refl 128) h
  have hk : k ≤ 1200 := Nat.le_trans hk (by decide)
  obtain @⟨index, v₂, d, hd⟩ := h
  have hp (n : Nat) (hn : k ≤ n) := p.settles spins hn
  refine ⟨by rw [hl], fun n => ?_, fun n hn => ?_⟩
  · exact (hp (n + 1 + k) (Nat.le_add_left ..)).succeeds n (by omega)
  · rw [(hp n (Nat.le_trans hk hn)).after]
    refine ⟨rfl, rfl, litCount_of_shows hd, by rw [hl]; rfl, fun c hc x hx y hy => ?_⟩
    have hn : cell (4 * (c % 16) + x, 4 * (c / 16) + y) = c := by
      simp only [cell, Display.width, Display.height]
      omega
    have hr : (4 * (c / 16) + y) % 4 = y := by omega
    have hw : (4 * (c % 16) + x) % 4 = x := by omega
    have hb : source.upcoming c = byte c := Noise.upcoming_skip ..
    rw [show (machine _ _ _ _ _ d).display = d from rfl, hd, shows, hn, decide_eq_true hc,
      Bool.true_and, hr, hw, hb, dot, ← read_sprite _ hy, toNat_sprite]
    rfl

-- A random byte was drawn before, so the second byte of the source decides on the first cell.
theorem maze_is_drawn_later :
    let ops := [.load [0xC0, 0xFF], .tick]
    let loaded := ((create ⟨.ofNat, 0⟩).performAll ops).load image
    let m := (loaded.state.afterTicks 1200).machine
    m.pc = 0x218 ∧ m.display.lit (2, 0) = true ∧ m.display.lit (4, 0) = true := by
  intro ops
  have ⟨_, _, h⟩ := maze_is_drawn ⟨.ofNat, 0⟩ ops
  have ⟨hp, _, _, hr, hc⟩ := h 1200 (Nat.le_refl 1200)
  have hd : drawn ((create ⟨.ofNat, 0⟩).history ops) = 1 := by decide +kernel
  rw [hr, hd] at hc
  have h₀ := hc 0 (by decide) 2 (by decide) 0 (by decide)
  have h₁ := hc 1 (by decide) 0 (by decide) 0 (by decide)
  dsimp only
  exact ⟨hp, h₀.trans <| by decide +kernel, h₁.trans <| by decide +kernel⟩

end ChipEight.Maze
