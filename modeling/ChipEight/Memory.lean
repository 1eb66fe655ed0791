import ChipEight.Font

namespace ChipEight

abbrev Memory := Vector UInt8 4096

namespace Memory

def size : Nat := 4096

def programStart : Nat := 0x200

def programCapacity : Nat := size - programStart

def zero : Memory :=
  .replicate 4096 0

def read (ram : Memory) (a : Nat) : UInt8 :=
  ram[a]?.getD 0

def readSpan (ram : Memory) (a len : Nat) : List UInt8 :=
  (List.range len).map fun i => ram.read (a + i)

-- Bytes past the end of memory are dropped.
def writeSpan (ram : Memory) (a : Nat) : List UInt8 → Memory
  | []      => ram
  | b :: bs => writeSpan (ram.setIfInBounds a b) (a + 1) bs

-- Zeroed, with the font in place.
def fresh : Memory :=
  zero.writeSpan Font.start Font.glyphs

-- An empty span lies in memory unless it starts beyond the end.
def Spans (a len : Nat) : Prop :=
  a + len ≤ size

instance : Decidable (Spans a len) :=
  inferInstanceAs (Decidable (a + len ≤ size))

@[simp]
theorem length_readSpan (ram : Memory) (a len : Nat) : (ram.readSpan a len).length = len := by
  simp [readSpan]

theorem getElem?_readSpan (ram : Memory) (a len i : Nat) :
    (ram.readSpan a len)[i]? = if i < len then some (ram.read (a + i)) else none := by
  by_cases h : i < len <;> simp [readSpan, h]

theorem read_setIfInBounds (ram : Memory) (a i : Nat) (b : UInt8) :
    Memory.read (ram.setIfInBounds a b) i = if a = i ∧ a < size then b else ram.read i := by
  simp only [read, size, Vector.getElem?_setIfInBounds]
  by_cases h : a = i <;> by_cases hs : a < 4096 <;> grind

theorem read_writeSpan_outside {ram : Memory} (h : i < a ∨ a + bs.length ≤ i) :
    (ram.writeSpan a bs).read i = ram.read i := by
  induction bs generalizing ram a with
  | nil => rfl
  | cons b bs ih =>
    simp only [List.length_cons] at h
    rw [writeSpan, ih (by omega), read_setIfInBounds, if_neg (by omega)]

theorem read_writeSpan_inside {ram : Memory} {i : Nat} (hs : Spans a bs.length)
    (h : i < bs.length) : (ram.writeSpan a bs).read (a + i) = bs[i] := by
  induction bs generalizing ram a i with
  | nil => simp at h
  | cons b bs ih =>
    simp only [Spans, List.length_cons] at hs h
    match i with
    | 0 =>
      rw [writeSpan, read_writeSpan_outside (by omega), read_setIfInBounds, if_pos (by omega)]
      rfl
    | i + 1 =>
      rw [writeSpan, ← Nat.add_assoc, Nat.add_right_comm]
      exact ih (by simp only [Spans]; omega) (by omega)

theorem read_writeSpan {ram : Memory} (hs : Spans a bs.length) (i : Nat) :
    (ram.writeSpan a bs).read i = (if a ≤ i then bs[i - a]? else none).getD (ram.read i) := by
  by_cases h : a ≤ i ∧ i < a + bs.length
  case pos =>
    have hi : i - a < bs.length := by omega
    have hr : (ram.writeSpan a bs).read (a + (i - a)) = _ := read_writeSpan_inside hs hi
    rw [Nat.add_sub_of_le h.left] at hr
    rw [hr, if_pos h.left, List.getElem?_eq_getElem hi, Option.getD_some]
  case neg =>
    rw [read_writeSpan_outside (by omega)]
    split
    case isTrue  => rw [List.getElem?_eq_none (by omega), Option.getD_none]
    case isFalse => rfl

end Memory
end ChipEight
