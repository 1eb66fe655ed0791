import ChipEight.Proofs.Config.Grammar

namespace ChipEight

open Reading

namespace Yaml.Node

-- What a scalar resolves to. A collection resolves to nothing.
def resolved? : Node → Option Scalar
  | scalar style s => some (.resolve style s)
  | _              => none

end Yaml.Node

-- Integers carry their sign, and there is a negative zero.
def Yaml.Scalar.value? : Scalar → Option Int
  | integer false n => some n
  | integer true n  => some (-n)
  | _               => none

namespace Found

variable {s : Yaml.Scalar}

theorem ofScalar_eq_unit_iff : ofScalar s = .unit ↔ s = .null := by
  cases s
  case integer negative n => cases negative <;> simp only [ofScalar] <;> split <;> simp
  all_goals simp [ofScalar]

theorem ofScalar_eq_boolean_iff : ofScalar s = .boolean b ↔ s = .boolean b := by
  cases s
  case integer negative n => cases negative <;> simp only [ofScalar] <;> split <;> simp
  all_goals simp [ofScalar]

-- An integer of 64 bits, with or without a sign.
theorem ofScalar_eq_integer_iff :
    ofScalar s = .integer i ↔
      s.value? = some i ∧ -(UInt64.size / 2 : Int) ≤ i ∧ i < UInt64.size := by
  cases s
  case integer negative n =>
    simp only [UInt64.size]
    cases negative <;> simp only [ofScalar, Yaml.Scalar.value?, UInt64.size] <;> split <;> simp <;>
      omega
  all_goals simp [ofScalar, Yaml.Scalar.value?]

end Found

namespace Yaml.Node

variable {n : Node}

def IsNull (n : Node) : Prop :=
  n.resolved? = some .null

def IsBoolean (n : Node) (b : Bool) : Prop :=
  n.resolved? = some (.boolean b)

def IsInteger (n : Node) (i : Int) : Prop :=
  n.resolved? >>= Scalar.value? = some i

-- A numeral with a minus sign stands for no natural number, not even if it is a zero.
def IsNatural (n : Node) (v : Nat) : Prop :=
  n.resolved? = some (.integer false v) ∧ v < UInt64.size

def IsOptional (n : Node) : Option Nat → Prop
  | none   => n.IsNull
  | some v => n.IsNatural v

def IsPolicy (n : Node) : Policy → Prop
  | .halt   => n.text? = some "halt"
  | .ignore => n.text? = some "ignore"

-- Nothing at all is an empty sequence.
def IsSequence (n : Node) (ns : List Node) : Prop :=
  n = .sequence ns ∨ n = .empty ∧ ns = []

theorem found_eq_ok_iff {p : Scalar → Prop} {a : Found} (ha : ∀ s, Found.ofScalar s = a ↔ p s)
    (hs : a ≠ .sequence) (hm : a ≠ .mapping) :
    n.found = .ok a ↔ ∃ s, n.resolved? = some s ∧ p s := by
  cases n
  case scalar        => simp [found, resolved?, ha]
  case sequence      => simpa [found, resolved?] using hs.symm
  case mapping       => simpa [found, resolved?] using hm.symm
  case broken        => simp [found, resolved?]

theorem found_eq_unit_iff : n.found = .ok .unit ↔ n.IsNull := by
  rw [found_eq_ok_iff (fun s => Found.ofScalar_eq_unit_iff) nofun nofun, IsNull]
  simp

theorem found_eq_boolean_iff : n.found = .ok (.boolean b) ↔ n.IsBoolean b := by
  rw [found_eq_ok_iff (fun s => Found.ofScalar_eq_boolean_iff) nofun nofun, IsBoolean]
  simp

theorem found_eq_integer_iff :
    n.found = .ok (.integer i) ↔
      n.IsInteger i ∧ -(UInt64.size / 2 : Int) ≤ i ∧ i < UInt64.size := by
  rw [found_eq_ok_iff (fun s => Found.ofScalar_eq_integer_iff) nofun nofun, IsInteger]
  cases n.resolved? <;> simp

theorem natural_eq_ok_iff : n.natural expected = .ok v ↔ n.IsNatural v := by
  cases n
  case scalar style s =>
    simp only [natural, IsNatural, resolved?, Option.some.injEq]
    cases Scalar.resolve style s
    case integer negative i =>
      cases negative
      case true  => simp [refuse_ne_ok]
      case false =>
        simp only [Scalar.integer.injEq, true_and]
        split
        case isTrue hi  => simp; grind
        case isFalse hi => simp [refuse_ne_ok]; grind
    all_goals simp [refuse_ne_ok]
  all_goals simp [natural, IsNatural, resolved?, refuse_ne_ok]

theorem boolean_eq_ok_iff : n.boolean = .ok b ↔ n.IsBoolean b := by
  rw [← found_eq_boolean_iff, boolean]
  split
  case h_1 hf => simp [hf]
  case h_2 hf => exact iff_of_false refuse_ne_ok (hf b)

theorem optional_eq_ok_iff : n.optional (natural expected) = .ok v ↔ n.IsOptional v := by
  unfold optional
  split
  case h_1 hf =>
    have hn : n.IsNull := found_eq_unit_iff.mp hf
    cases v
    case none => simp [IsOptional, hn]
    case some v =>
      have hv : ¬n.IsNatural v := fun ⟨hv, _⟩ => by cases hn.symm.trans hv
      simp [IsOptional, hv]
  case h_2 hf =>
    have hn : ¬n.IsNull := mt found_eq_unit_iff.mpr hf
    rw [map_eq_ok_iff]
    simp only [natural_eq_ok_iff]
    cases v <;> simp [IsOptional, hn]

theorem policy_eq_ok_iff : n.policy = .ok p ↔ n.IsPolicy p := by
  cases n
  case scalar style s =>
    simp only [policy]
    cases p <;> simp only [IsPolicy, text?] <;> grind
  all_goals cases p <;> simp [policy, IsPolicy, text?, refuse_ne_ok]

theorem items_eq_ok_iff : n.items = .ok ns ↔ n.IsSequence ns := by
  unfold items
  split
  case h_1 => simp [IsSequence, empty, eq_comm]
  case h_2 => simp [IsSequence, empty, eq_comm]
  case h_3 hs he =>
    refine iff_of_false refuse_ne_ok ?_
    rintro (h | ⟨h, _⟩)
    · exact hs _ h
    · exact he h

-- A mapping where one is expected; nothing at all is an empty one.
theorem entries_eq_ok_iff :
    n.entries expected = .ok es ↔ n = .mapping es ∨ n = .empty ∧ es = [] := by
  unfold entries
  split
  case h_1 => simp [empty, eq_comm]
  case h_2 => simp [empty, eq_comm]
  case h_3 hm he =>
    refine iff_of_false refuse_ne_ok ?_
    rintro (h | ⟨h, _⟩)
    · exact hm _ h
    · exact he h

end Yaml.Node

namespace Key

theorem ofInt_eq_ok_iff {k : Key} : ofInt i = .ok k ↔ i = k.val := by
  rw [ofInt]
  split
  case isTrue hi =>
    simp only [Except.ok.injEq, Fin.ext_iff]
    omega
  case isFalse hi =>
    simp only [reduceCtorEq, false_iff]
    omega

-- No number is cut down to one that names a key.
theorem ofNode_eq_ok_iff {n : Yaml.Node} {k : Key} : ofNode n = .ok k ↔ n.IsInteger k.val := by
  have hk : (k.val : Int) < 16 := Int.ofNat_lt.mpr k.isLt
  unfold ofNode
  split
  case h_1 i hf =>
    have ⟨hi, _⟩ := Yaml.Node.found_eq_integer_iff.mp hf
    have hu : n.IsInteger k.val ↔ i = k.val := by
      rw [Yaml.Node.IsInteger, hi, Option.some.injEq]
    rw [hu]
    split
    case isTrue      => exact ofInt_eq_ok_iff
    case isFalse hl =>
      refine iff_of_false Yaml.Node.refuse_ne_ok ?_
      simp only [UInt64.size] at hl
      omega
  case h_2 hf =>
    refine iff_of_false Yaml.Node.refuse_ne_ok fun hi => hf k.val ?_
    refine Yaml.Node.found_eq_integer_iff.mpr ⟨hi, ?_, ?_⟩ <;> simp only [UInt64.size] <;> omega

end Key
end ChipEight
