import ChipEight.Proofs.Emulator.Path

namespace ChipEight.Maze

open Emulator

-- For each cell of four by four pixels, from left to right and from top to bottom, the program
-- draws one of two sprites, as a random bit says. In the end it jumps to itself.
def image : List UInt8 := [
  0xA2, 0x1E, 0xC2, 0x01, 0x32, 0x01, 0xA2, 0x1A,
  0xD0, 0x14, 0x70, 0x04, 0x30, 0x40, 0x12, 0x00,
  0x60, 0x00, 0x71, 0x04, 0x31, 0x20, 0x12, 0x00,
  0x12, 0x18, 0x80, 0x40, 0x20, 0x10, 0x20, 0x40,
  0x80, 0x10]

-- The instructions of the program. The two sprites follow them.
def listing : List (UInt16 × Instr) := [
  (0x200, .setIndex 0x21E),
  (0x202, .random 2 1),
  (0x204, .skip (.eqByte 2 1)),
  (0x206, .setIndex 0x21A),
  (0x208, .draw 0 1 4),
  (0x20A, .addByte 0 4),
  (0x20C, .skip (.eqByte 0 0x40)),
  (0x20E, .jump 0x200),
  (0x210, .loadByte 0 0),
  (0x212, .addByte 1 4),
  (0x214, .skip (.eqByte 1 0x20)),
  (0x216, .jump 0x200),
  (0x218, .jump 0x218)]

-- Where the sprite is that is drawn for a random byte.
def sprite (b : UInt8) : UInt16 :=
  if b % 2 = 1 then 0x21E else 0x21A

def rows (b : UInt8) : List UInt8 :=
  if b % 2 = 1 then [0x20, 0x40, 0x80, 0x10] else [0x80, 0x40, 0x20, 0x10]

def memory : Memory :=
  Memory.fresh.writeSpan Memory.programStart image

theorem read_memory (h : i < image.length) : memory.read (0x200 + i) = image[i]?.getD 0 := by
  rw [List.getElem?_eq_getElem h]
  exact Memory.read_writeSpan_inside (by decide) h

theorem toNat_sprite (b : UInt8) : (sprite b).toNat = if b % 2 = 1 then 0x21E else 0x21A := by
  unfold sprite
  split <;> rfl

theorem spans_sprite (b : UInt8) : Memory.Spans (sprite b).toNat 4 := by
  unfold sprite
  split <;> decide

theorem read_sprite (b : UInt8) (hr : row < 4) :
    memory.read ((sprite b).toNat + row) = (rows b)[row]?.getD 0 := by
  have hs (i : Nat) (hi : i + row < image.length) :
      memory.read (0x200 + i + row) = image[i + row]?.getD 0 := by
    rw [Nat.add_assoc]
    exact read_memory hi
  have hl : image.length = 34 := rfl
  rw [toNat_sprite, rows]
  split
  case isTrue =>
    rw [hs 0x1E (by omega)]
    interval_cases row <;> rfl
  case isFalse =>
    rw [hs 0x1A (by omega)]
    interval_cases row <;> rfl

-- The program writes no other parts of the machine.
def machine (pc index : UInt16) (v₀ v₁ v₂ : UInt8) (display : Display) : Machine :=
  { pc, index, display
    regs := #v[v₀, v₁, v₂, 0, 0, 0, 0, 0, 0, 0, 0, 0, 0, 0, 0, 0]
    ram  := memory }

theorem withImage_image : Machine.withImage image = machine 0x200 0 0 0 0 .blank :=
  rfl

section

variable {pc index : UInt16} {v₀ v₁ v₂ : UInt8} {d : Display} {s : Noise}

-- The word at an address of the program.
def word (address : UInt16) : Word :=
  .ofBytes (image[address.toNat - 0x200]?.getD 0) (image[address.toNat - 0x200 + 1]?.getD 0)

theorem fetch_machine (h : 0x200 ≤ pc.toNat ∧ pc.toNat + 1 < 0x200 + image.length) :
    (machine pc index v₀ v₁ v₂ d).fetch = .ok (word pc) := by
  have hl : image.length = 34 := rfl
  have ⟨i, hi⟩ := Nat.exists_eq_add_of_le h.left
  refine Machine.fetch_eq_ok_iff.mpr ⟨?_, ?_⟩
  · have hp : (machine pc index v₀ v₁ v₂ d).pc.toNat = pc.toNat := rfl
    rw [hp, Memory.size]
    omega
  · have hp : (machine pc index v₀ v₁ v₂ d).pc.toNat = 0x200 + i := hi
    have hr : (machine pc index v₀ v₁ v₂ d).ram = memory := rfl
    rw [hp, hr, Nat.add_assoc, read_memory (by omega), read_memory (by omega), word, hi,
      Nat.add_sub_cancel_left]

theorem instr?_of_mem (h : (pc, i) ∈ listing) :
    (machine pc index v₀ v₁ v₂ d).instr? = some i := by
  have hl : ∀ l ∈ listing, (0x200 ≤ l.1.toNat ∧ l.1.toNat + 1 < 0x200 + image.length) ∧
      Instr.decode (word l.1) = .ok l.2 := by
    decide
  have ⟨hb, hd⟩ := hl _ h
  exact Machine.instr?_eq_some_iff.mpr ⟨_, fetch_machine hb, hd⟩

theorem executes (h : (pc, i) ∈ listing)
    (hx : (machine (pc + 2) index v₀ v₁ v₂ d).execute s i = .ok (signal, m)) :
    Path ⟨machine pc index v₀ v₁ v₂ d, s⟩ 1 ⟨m, if i.drawsRandom then s.advance else s⟩ :=
  .of_execute (instr?_of_mem h) hx

theorem skips (h : (pc, .skip c) ∈ listing) :
    Path ⟨machine pc index v₀ v₁ v₂ d, s⟩ 1
      ⟨machine (pc + if (machine pc index v₀ v₁ v₂ d).holds c then 4 else 2) index v₀ v₁ v₂ d, s⟩ :=
  .of_skip <| instr?_of_mem h

theorem one_and_eq_mod (b : UInt8) : 1 &&& b = b % 2 := by
  rw [← UInt8.toNat_inj, UInt8.toNat_and, Nat.and_comm]
  exact Nat.and_one_is_mod b.toNat

-- The low bit of the next random byte chooses the sprite.
theorem chooses (index : UInt16) (v₀ v₁ v₂ : UInt8) (d : Display) (s : Noise) :
    ∃ n ≤ 4, ∃ v, Path ⟨machine 0x200 index v₀ v₁ v₂ d, s⟩ n
      ⟨machine 0x208 (sprite s.byte) v₀ v₁ v d, s.advance⟩ := by
  have p₁ : Path ⟨machine 0x200 index v₀ v₁ v₂ d, s⟩ 1 ⟨machine 0x202 0x21E v₀ v₁ v₂ d, s⟩ :=
    executes (i := .setIndex 0x21E) (by decide) rfl
  have p₂ : Path ⟨machine 0x202 0x21E v₀ v₁ v₂ d, s⟩ 1
      ⟨machine 0x204 0x21E v₀ v₁ (1 &&& s.byte) d, s.advance⟩ :=
    executes (i := .random 2 1) (by decide) rfl
  have p₃ : Path ⟨machine 0x204 0x21E v₀ v₁ (1 &&& s.byte) d, s.advance⟩ 1
      ⟨machine (0x204 + if 1 &&& s.byte == 1 then 4 else 2) 0x21E v₀ v₁ (1 &&& s.byte) d,
        s.advance⟩ :=
    skips (c := .eqByte 2 1) (by decide)
  have p := p₁.trans p₂ |>.trans p₃
  rw [one_and_eq_mod] at p
  by_cases hb : s.byte % 2 = 1
  case pos =>
    rw [hb] at p
    rw [sprite, if_pos hb]
    exact ⟨3, by decide, 1, p⟩
  case neg =>
    rw [sprite, if_neg hb]
    rw [if_neg (by simpa using hb)] at p
    have p₄ : Path ⟨machine 0x206 0x21E v₀ v₁ (s.byte % 2) d, s.advance⟩ 1
        ⟨machine 0x208 0x21A v₀ v₁ (s.byte % 2) d, s.advance⟩ :=
      executes (i := .setIndex 0x21A) (by decide) rfl
    exact ⟨4, by decide, _, p.trans p₄⟩

-- Past the last column the next row of cells starts, and past the last row the program ends.
theorem goes_on (h : v₀ ≠ 0x40) :
    Path ⟨machine 0x20C index v₀ v₁ v₂ d, s⟩ 2 ⟨machine 0x200 index v₀ v₁ v₂ d, s⟩ := by
  have p₁ : Path ⟨machine 0x20C index v₀ v₁ v₂ d, s⟩ 1
      ⟨machine (0x20C + if v₀ == 0x40 then 4 else 2) index v₀ v₁ v₂ d, s⟩ :=
    skips (c := .eqByte 0 0x40) (by decide)
  rw [if_neg (by simpa using h)] at p₁
  exact p₁.trans <| executes (i := .jump 0x200) (by decide) rfl

theorem wraps :
    Path ⟨machine 0x20C index 0x40 v₁ v₂ d, s⟩ 3 ⟨machine 0x214 index 0 (v₁ + 4) v₂ d, s⟩ := by
  have p₁ : Path ⟨machine 0x20C index 0x40 v₁ v₂ d, s⟩ 1 ⟨machine 0x210 index 0x40 v₁ v₂ d, s⟩ :=
    skips (c := .eqByte 0 0x40) (by decide)
  have p₂ : Path ⟨machine 0x210 index 0x40 v₁ v₂ d, s⟩ 1 ⟨machine 0x212 index 0 v₁ v₂ d, s⟩ :=
    executes (i := .loadByte 0 0) (by decide) rfl
  exact p₁.trans p₂ |>.trans <| executes (i := .addByte 1 4) (by decide) rfl

theorem starts_row (h : v₁ ≠ 0x20) :
    Path ⟨machine 0x214 index v₀ v₁ v₂ d, s⟩ 2 ⟨machine 0x200 index v₀ v₁ v₂ d, s⟩ := by
  have p₁ : Path ⟨machine 0x214 index v₀ v₁ v₂ d, s⟩ 1
      ⟨machine (0x214 + if v₁ == 0x20 then 4 else 2) index v₀ v₁ v₂ d, s⟩ :=
    skips (c := .eqByte 1 0x20) (by decide)
  rw [if_neg (by simpa using h)] at p₁
  exact p₁.trans <| executes (i := .jump 0x200) (by decide) rfl

theorem ends :
    Path ⟨machine 0x214 index v₀ 0x20 v₂ d, s⟩ 1 ⟨machine 0x218 index v₀ 0x20 v₂ d, s⟩ :=
  skips (c := .eqByte 1 0x20) (by decide)

theorem spins :
    Path ⟨machine 0x218 index v₀ v₁ v₂ d, s⟩ 1 ⟨machine 0x218 index v₀ v₁ v₂ d, s⟩ :=
  executes (i := .jump 0x218) (by decide) rfl

end

end ChipEight.Maze
