namespace ChipEight

-- The lowest `depth` slots are live. A popped slot keeps its old address, which nothing reads any
-- more.
@[ext]
structure CallStack where
  slots    : Vector UInt16 16
  depth    : Nat
  depth_le : depth ≤ 16 := by omega
  deriving DecidableEq

namespace CallStack

def capacity : Nat := 16

def empty : CallStack where
  slots := .replicate 16 0
  depth := 0

-- The newest address comes last.
def toList (s : CallStack) : List UInt16 :=
  s.slots.toList.take s.depth

def push? (s : CallStack) (a : UInt16) : Option CallStack :=
  if h : s.depth < 16 then some { slots := s.slots.set s.depth a, depth := s.depth + 1 } else none

def pop? (s : CallStack) : Option (UInt16 × CallStack) :=
  match h : s.depth with
  | 0     => none
  | d + 1 =>
    have : d < 16 := by have := s.depth_le; omega
    some (s.slots[d], { slots := s.slots, depth := d })

theorem toList_empty : empty.toList = [] :=
  rfl

theorem length_toList (s : CallStack) : s.toList.length = s.depth := by
  have := s.depth_le
  simp [toList]
  omega

theorem toList_push {s t : CallStack} (h : s.push? a = some t) : t.toList = s.toList ++ [a] := by
  simp only [push?] at h
  split at h
  case isTrue hd =>
    injection h with h
    subst h
    simp only [toList, Vector.toList_set]
    rw [List.take_add_one, List.take_set_of_le (Nat.le_refl _)]
    simp [hd]
  case isFalse => contradiction

theorem toList_pop {s t : CallStack} (h : s.pop? = some (a, t)) : s.toList = t.toList ++ [a] := by
  simp only [pop?] at h
  split at h
  case h_1 => contradiction
  case h_2 d hd =>
    have : d < 16 := by have := s.depth_le; omega
    injection h with h
    injection h with ha ht
    subst ha ht
    simp only [toList, hd]
    rw [List.take_add_one]
    simp [this]

theorem push?_eq_none_iff {s : CallStack} : s.push? a = none ↔ s.toList.length = capacity := by
  have := s.depth_le
  simp [push?, length_toList, capacity]
  omega

theorem pop?_eq_none_iff {s : CallStack} : s.pop? = none ↔ s.toList = [] := by
  rw [← List.length_eq_zero_iff, length_toList]
  simp only [pop?]
  split <;> simp_all

end CallStack
end ChipEight
