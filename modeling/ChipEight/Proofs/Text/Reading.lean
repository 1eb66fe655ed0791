import ChipEight.Text.Numeral
import Mathlib.Tactic.IntervalCases

namespace ChipEight.Numeral

def ofDecimal (cs : List Char) : Nat :=
  Nat.ofDigitChars 10 cs 0

-- What an upper-case hexadecimal digit counts.
def digitValue (c : Char) : Nat :=
  if c.isDigit then c.toNat - '0'.toNat else c.toNat - 'A'.toNat + 10

def ofUpperHex (cs : List Char) : Nat :=
  cs.foldl (16 * · + digitValue ·) 0

def hexDigits (n : Nat) : List Char :=
  (Nat.toDigits 16 n).map Char.toUpper

theorem toList_decimal (n : Nat) : (decimal n).toList = Nat.toDigits 10 n :=
  String.toList_ofList

@[simp]
theorem ofDecimal_decimal (n : Nat) : ofDecimal (decimal n).toList = n := by
  rw [toList_decimal, ofDecimal, Nat.ofDigitChars_ten_toDigits]

theorem isDigit_of_mem_decimal (h : c ∈ (decimal n).toList) : c.isDigit := by
  rw [toList_decimal] at h
  exact Nat.isDigit_of_mem_toDigits (by decide) (by decide) h

theorem toList_upperHex (width n : Nat) :
    (upperHex width n).toList = .replicate (width - (hexDigits n).length) '0' ++ hexDigits n :=
  String.toList_ofList

theorem hexDigits_of_lt (h : n < 16) : hexDigits n = [n.digitChar.toUpper] := by
  rw [hexDigits, Nat.toDigits_of_lt_base h, List.map_singleton]

theorem hexDigits_of_le (h : 16 ≤ n) :
    hexDigits n = hexDigits (n / 16) ++ [(n % 16).digitChar.toUpper] := by
  rw [hexDigits, Nat.toDigits_of_base_le (by decide) h, List.map_append, List.map_singleton,
    hexDigits]

theorem digitValue_digitChar (h : d < 16) : digitValue d.digitChar.toUpper = d := by
  interval_cases d <;> rfl

theorem isAlphanum_digitChar (h : d < 16) : d.digitChar.toUpper.isAlphanum := by
  interval_cases d <;> rfl

theorem ofUpperHex_singleton (c : Char) : ofUpperHex [c] = digitValue c :=
  Nat.zero_add _

theorem ofUpperHex_concat (cs : List Char) (c : Char) :
    ofUpperHex (cs ++ [c]) = 16 * ofUpperHex cs + digitValue c := by
  rw [ofUpperHex, List.foldl_append]
  rfl

-- The last digit is the remainder, those before it are the quotient.
theorem ofUpperHex_hexDigits (n : Nat) : ofUpperHex (hexDigits n) = n := by
  induction n using Nat.strongRecOn
  case ind n hi =>
    rcases Nat.lt_or_ge n 16 with h | h
    case inl => rw [hexDigits_of_lt h, ofUpperHex_singleton, digitValue_digitChar h]
    case inr =>
      rw [hexDigits_of_le h, ofUpperHex_concat, hi (n / 16) (by omega),
        digitValue_digitChar (Nat.mod_lt n (by decide)), Nat.div_add_mod]

theorem ofUpperHex_zeros (k : Nat) (cs : List Char) :
    ofUpperHex (.replicate k '0' ++ cs) = ofUpperHex cs := by
  induction k
  case zero      => rfl
  case succ _ hi => exact hi

@[simp]
theorem ofUpperHex_upperHex (width n : Nat) : ofUpperHex (upperHex width n).toList = n := by
  rw [toList_upperHex, ofUpperHex_zeros, ofUpperHex_hexDigits]

theorem isAlphanum_of_mem_hexDigits (hc : c ∈ hexDigits n) : c.isAlphanum := by
  induction n using Nat.strongRecOn
  case ind n hi =>
    rcases Nat.lt_or_ge n 16 with h | h
    case inl =>
      rw [hexDigits_of_lt h, List.mem_singleton] at hc
      exact hc ▸ isAlphanum_digitChar h
    case inr =>
      rw [hexDigits_of_le h, List.mem_append, List.mem_singleton] at hc
      cases hc
      case inl hc => exact hi (n / 16) (by omega) hc
      case inr hc => exact hc ▸ isAlphanum_digitChar (Nat.mod_lt n (by decide))

theorem isAlphanum_of_mem_upperHex (h : c ∈ (upperHex width n).toList) : c.isAlphanum := by
  rw [toList_upperHex, List.mem_append] at h
  cases h
  case inl h => exact List.eq_of_mem_replicate h ▸ rfl
  case inr h => exact isAlphanum_of_mem_hexDigits h

end ChipEight.Numeral
