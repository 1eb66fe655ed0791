import ChipEight.Instr.Mnemonic
import ChipEight.Proofs.Text.Reading
import Mathlib.Data.List.Basic

namespace ChipEight

namespace Mnemonic

-- Text that stays in one piece.
def IsWord (s : String) : Prop :=
  ∀ c ∈ s.toList, c ≠ ' ' ∧ c ≠ ','

-- A comma is always before a blank and says nothing more.
def words (s : String) : List (List Char) :=
  (s.toList.filter (· != ',')).splitOn ' '

theorem isWord_of_alphanum (h : ∀ c ∈ s.toList, c.isAlphanum) : IsWord s := by
  intro c hc
  have ha := h c hc
  constructor <;> rintro rfl <;> contradiction

theorem IsWord.filter_eq (h : IsWord s) : s.toList.filter (· != ',') = s.toList :=
  List.filter_eq_self.mpr fun c hc => bne_iff_ne.mpr (h c hc).right

theorem toList_reg (x : UInt8) : (reg x).toList = 'v' :: (Numeral.upperHex 1 x.toNat).toList := by
  simp [reg]

theorem toList_address (nnn : UInt16) :
    (address nnn).toList = '0' :: 'x' :: (Numeral.upperHex 3 nnn.toNat).toList := by
  simp [address]

end Mnemonic

open Mnemonic

inductive Operand
  | reg     (x : UInt8)
  | byte    (nn : UInt8)
  | address (nnn : UInt16)
  | index
  | memory
  | delay
  | sound
  | key
  | glyph
  | digits

namespace Operand

def text : Operand → String
  | reg x       => Mnemonic.reg x
  | byte nn     => Mnemonic.byte nn
  | address nnn => Mnemonic.address nnn
  | index       => "I"
  | memory      => "[I]"
  | delay       => "DT"
  | sound       => "ST"
  | key         => "K"
  | glyph       => "F"
  | digits      => "B"

-- Of the operands only a byte is written in nothing but decimal digits.
def read? (cs : List Char) : Option Operand :=
  if cs.all Char.isDigit then
    some <| byte <| .ofNat <| Numeral.ofDecimal cs
  else
    match cs with
    | 'v' :: cs        => some <| reg <| .ofNat <| Numeral.ofUpperHex cs
    | '0' :: 'x' :: cs => some <| address <| .ofNat <| Numeral.ofUpperHex cs
    | ['I']            => some index
    | ['[', 'I', ']']  => some memory
    | ['D', 'T']       => some delay
    | ['S', 'T']       => some sound
    | ['K']            => some key
    | ['F']            => some glyph
    | ['B']            => some digits
    | _                => none

theorem read?_text (o : Operand) : read? o.text.toList = some o := by
  cases o
  case reg x       => simp [read?, text, toList_reg]
  case address nnn => simp [read?, text, toList_address]
  case byte nn =>
    have hd : (Mnemonic.byte nn).toList.all Char.isDigit :=
      List.all_eq_true.mpr fun _ => Numeral.isDigit_of_mem_decimal
    unfold read?
    rw [text, if_pos hd, Mnemonic.byte, Numeral.ofDecimal_decimal, UInt8.ofNat_toNat]
  all_goals rfl

theorem mapM_read?_text (os : List Operand) : (os.map (·.text.toList)).mapM read? = some os := by
  induction os
  case nil          => rfl
  case cons o os hi => simp [read?_text, hi]

theorem isWord_text (o : Operand) : IsWord o.text := by
  cases o
  case reg x =>
    apply isWord_of_alphanum
    rw [text, toList_reg]
    exact List.forall_mem_cons.mpr ⟨rfl, fun _ => Numeral.isAlphanum_of_mem_upperHex⟩
  case address nnn =>
    apply isWord_of_alphanum
    rw [text, toList_address]
    refine List.forall_mem_cons.mpr ⟨rfl, List.forall_mem_cons.mpr ⟨rfl, ?_⟩⟩
    exact fun _ => Numeral.isAlphanum_of_mem_upperHex
  case byte nn =>
    apply isWord_of_alphanum
    intro c hc
    simp [Char.isAlphanum, Numeral.isDigit_of_mem_decimal hc]
  all_goals simp [IsWord, text]

end Operand

namespace Instr

def name : Instr → String
  | nop               => "NOP"
  | clear             => "CLS"
  | ret               => "RET"
  | jump _            => "JP"
  | call _            => "CALL"
  | jumpV0 _          => "JP"
  | skip (.eqByte ..) => "SE"
  | skip (.neByte ..) => "SNE"
  | skip (.eqReg ..)  => "SE"
  | skip (.neReg ..)  => "SNE"
  | skip (.keyDown _) => "SKP"
  | skip (.keyUp _)   => "SKNP"
  | loadByte ..       => "LD"
  | addByte ..        => "ADD"
  | alu op _ _        => op.mnemonic
  | shiftR _          => "SHR"
  | shiftL _          => "SHL"
  | setIndex _        => "LD"
  | addIndex _        => "ADD"
  | glyph _           => "LD"
  | random ..         => "RND"
  | draw ..           => "DRW"
  | getDelay _        => "LD"
  | setDelay _        => "LD"
  | setSound _        => "LD"
  | waitKey _         => "LD"
  | digits _          => "LD"
  | save _            => "LD"
  | restore _         => "LD"

def operands : Instr → List Operand
  | nop                   => []
  | clear                 => []
  | ret                   => []
  | jump nnn              => [.address nnn]
  | call nnn              => [.address nnn]
  | jumpV0 nnn            => [.reg 0, .address nnn]
  | skip (.eqByte x nn)   => [.reg x, .byte nn]
  | skip (.neByte x nn)   => [.reg x, .byte nn]
  | skip (.eqReg x y)     => [.reg x, .reg y]
  | skip (.neReg x y)     => [.reg x, .reg y]
  | skip (.keyDown x)     => [.reg x]
  | skip (.keyUp x)       => [.reg x]
  | loadByte x nn         => [.reg x, .byte nn]
  | addByte x nn          => [.reg x, .byte nn]
  | alu _ x y             => [.reg x, .reg y]
  | shiftR x              => [.reg x]
  | shiftL x              => [.reg x]
  | setIndex nnn          => [.index, .address nnn]
  | addIndex x            => [.index, .reg x]
  | glyph x               => [.glyph, .reg x]
  | random x nn           => [.reg x, .byte nn]
  | draw x y n            => [.reg x, .reg y, .byte n]
  | getDelay x            => [.reg x, .delay]
  | setDelay x            => [.delay, .reg x]
  | setSound x            => [.sound, .reg x]
  | waitKey x             => [.reg x, .key]
  | digits x              => [.digits, .reg x]
  | save x                => [.memory, .reg x]
  | restore x             => [.reg x, .memory]

def ofWords? : String → List Operand → Option Instr
  | "NOP",  []                        => some nop
  | "CLS",  []                        => some clear
  | "RET",  []                        => some ret
  | "JP",   [.address nnn]            => some (jump nnn)
  | "JP",   [.reg 0, .address nnn]    => some (jumpV0 nnn)
  | "CALL", [.address nnn]            => some (call nnn)
  | "SE",   [.reg x, .byte nn]        => some (skip (.eqByte x nn))
  | "SNE",  [.reg x, .byte nn]        => some (skip (.neByte x nn))
  | "SE",   [.reg x, .reg y]          => some (skip (.eqReg x y))
  | "SNE",  [.reg x, .reg y]          => some (skip (.neReg x y))
  | "SKP",  [.reg x]                  => some (skip (.keyDown x))
  | "SKNP", [.reg x]                  => some (skip (.keyUp x))
  | "LD",   [.reg x, .byte nn]        => some (loadByte x nn)
  | "ADD",  [.reg x, .byte nn]        => some (addByte x nn)
  | "LD",   [.reg x, .reg y]          => some (alu .set x y)
  | "OR",   [.reg x, .reg y]          => some (alu .or x y)
  | "AND",  [.reg x, .reg y]          => some (alu .and x y)
  | "XOR",  [.reg x, .reg y]          => some (alu .xor x y)
  | "ADD",  [.reg x, .reg y]          => some (alu .add x y)
  | "SUB",  [.reg x, .reg y]          => some (alu .sub x y)
  | "SUBN", [.reg x, .reg y]          => some (alu .subFrom x y)
  | "SHR",  [.reg x]                  => some (shiftR x)
  | "SHL",  [.reg x]                  => some (shiftL x)
  | "LD",   [.index, .address nnn]    => some (setIndex nnn)
  | "ADD",  [.index, .reg x]          => some (addIndex x)
  | "LD",   [.glyph, .reg x]          => some (glyph x)
  | "RND",  [.reg x, .byte nn]        => some (random x nn)
  | "DRW",  [.reg x, .reg y, .byte n] => some (draw x y n)
  | "LD",   [.reg x, .delay]          => some (getDelay x)
  | "LD",   [.delay, .reg x]          => some (setDelay x)
  | "LD",   [.sound, .reg x]          => some (setSound x)
  | "LD",   [.reg x, .key]            => some (waitKey x)
  | "LD",   [.digits, .reg x]         => some (digits x)
  | "LD",   [.memory, .reg x]         => some (save x)
  | "LD",   [.reg x, .memory]         => some (restore x)
  | _,      _                         => none

def ofMnemonic? (s : String) : Option Instr :=
  match words s with
  | []               => none
  | name :: operands => operands.mapM Operand.read? |>.bind (ofWords? <| .ofList name)

theorem isWord_name (i : Instr) : IsWord i.name := by
  cases i
  case skip c => cases c <;> simp [IsWord, name]
  case alu op _ _ => cases op <;> simp [IsWord, name, AluOp.mnemonic]
  all_goals simp [IsWord, name]

theorem filter_mnemonic (i : Instr) :
    i.mnemonic.toList.filter (· != ',') =
      [' '].intercalate (i.name.toList :: i.operands.map (·.text.toList)) := by
  have hr x := Operand.isWord_text (.reg x) |>.filter_eq
  have hb nn := Operand.isWord_text (.byte nn) |>.filter_eq
  have ha nnn := Operand.isWord_text (.address nnn) |>.filter_eq
  simp only [Operand.text] at hr hb ha
  cases i
  case jumpV0 =>
    have h0 : (Mnemonic.reg 0).toList = ['v', '0'] := by decide
    simp [mnemonic, name, operands, Operand.text, ha, h0]
  case skip c =>
    cases c <;> simp [mnemonic, Condition.mnemonic, name, operands, Operand.text, hr, hb]
  case alu op _ _ =>
    cases op <;> simp [mnemonic, AluOp.mnemonic, name, operands, Operand.text, hr]
  all_goals simp [mnemonic, name, operands, Operand.text, hr, hb, ha]

theorem words_mnemonic (i : Instr) :
    words i.mnemonic = i.name.toList :: i.operands.map (·.text.toList) := by
  rw [words, filter_mnemonic]
  refine List.splitOn_intercalate ' ' ?_ (List.cons_ne_nil _ _)
  intro cs hc hb
  rcases List.mem_cons.mp hc with rfl | hc
  case inl => exact (i.isWord_name _ hb).left rfl
  case inr =>
    obtain ⟨o, _, rfl⟩ := List.mem_map.mp hc
    exact (o.isWord_text _ hb).left rfl

theorem ofWords?_words (i : Instr) : ofWords? i.name i.operands = some i := by
  cases i
  case skip c => cases c <;> rfl
  case alu op _ _ => cases op <;> rfl
  all_goals rfl

theorem ofMnemonic?_mnemonic (i : Instr) : ofMnemonic? i.mnemonic = some i := by
  rw [ofMnemonic?, words_mnemonic]
  simp only [Operand.mapM_read?_text, Option.bind_some, String.ofList_toList, ofWords?_words]

theorem mnemonic_injective : Function.Injective mnemonic := by
  intro i j h
  have hi := ofMnemonic?_mnemonic i
  rw [h, ofMnemonic?_mnemonic] at hi
  exact Option.some.inj hi.symm

end Instr
end ChipEight
