import ChipEight.Text.Numeral

namespace ChipEight

abbrev Key := Fin 16

namespace Key

def count : Nat := 16

def ofNat? (n : Nat) : Option Key :=
  if h : n < count then some ⟨n, h⟩ else none

def all : List Key :=
  List.finRange 16

def text (k : Key) : String :=
  "k" ++ Numeral.lowerHex k

def rangeMessage : String :=
  "keycode must be in range 0 <= keycode < 16"

end Key

@[ext]
structure Keypad where
  bits : BitVec 16
  deriving DecidableEq

namespace Keypad

def released : Keypad :=
  ⟨0⟩

-- A number that names no key is never down.
def isDown (p : Keypad) (n : Nat) : Bool :=
  p.bits.getLsbD n

def anyDown (p : Keypad) : Bool :=
  p.bits != 0

def press (p : Keypad) (k : Key) : Keypad :=
  ⟨p.bits ||| BitVec.twoPow 16 k⟩

def release (p : Keypad) (k : Key) : Keypad :=
  ⟨p.bits &&& ~~~BitVec.twoPow 16 k⟩

def set (p : Keypad) (k : Key) (pressed : Bool) : Keypad :=
  if pressed then p.press k else p.release k

-- In ascending order.
def toList (p : Keypad) : List Key :=
  Key.all.filter fun k => p.isDown k

def first? (p : Keypad) : Option Key :=
  Key.all.find? fun k => p.isDown k

-- Empty when no key is down.
def text (p : Keypad) : String :=
  if p.anyDown then "keys: " ++ String.join (p.toList.map Key.text) else ""

@[simp]
theorem isDown_released (n : Nat) : released.isDown n = false := by
  simp [released, isDown]

theorem isDown_press (p : Keypad) (k : Key) (n : Nat) :
    (p.press k).isDown n = (p.isDown n || n == k) := by
  simp only [press, isDown, BitVec.getLsbD_or, BitVec.getLsbD_twoPow]
  grind

theorem isDown_release (p : Keypad) (k : Key) (n : Nat) :
    (p.release k).isDown n = (p.isDown n && n != k) := by
  simp only [release, isDown, BitVec.getLsbD_and, BitVec.getLsbD_not, BitVec.getLsbD_twoPow]
  cases h : p.bits.getLsbD n
  case false => simp
  case true =>
    have := BitVec.lt_of_getLsbD h
    grind

theorem isDown_set (p : Keypad) (k : Key) (pressed : Bool) (n : Nat) :
    (p.set k pressed).isDown n = if n = k then pressed else p.isDown n := by
  cases pressed
  case false => by_cases h : n = k <;> simp [set, isDown_release, h]
  case true  => by_cases h : n = k <;> simp [set, isDown_press, h]

theorem ext_isDown {p q : Keypad} (h : ∀ k : Key, p.isDown k = q.isDown k) : p = q := by
  ext i hi
  exact h ⟨i, hi⟩

theorem mem_toList {p : Keypad} {k : Key} : k ∈ p.toList ↔ p.isDown k := by
  simp [toList, Key.all]

end Keypad
end ChipEight
