import ChipEight.Instr.Basic
import ChipEight.Text.Numeral

namespace ChipEight

namespace Mnemonic

def reg (x : UInt8) : String :=
  "v" ++ Numeral.upperHex 1 x.toNat

def byte (nn : UInt8) : String :=
  Numeral.decimal nn.toNat

def address (nnn : UInt16) : String :=
  "0x" ++ Numeral.upperHex 3 nnn.toNat

end Mnemonic

open Mnemonic

def Condition.mnemonic : Condition → String
  | eqByte x nn => "SE " ++ reg x ++ ", " ++ byte nn
  | neByte x nn => "SNE " ++ reg x ++ ", " ++ byte nn
  | eqReg x y   => "SE " ++ reg x ++ ", " ++ reg y
  | neReg x y   => "SNE " ++ reg x ++ ", " ++ reg y
  | keyDown x   => "SKP " ++ reg x
  | keyUp x     => "SKNP " ++ reg x

def AluOp.mnemonic : AluOp → String
  | set     => "LD"
  | or      => "OR"
  | and     => "AND"
  | xor     => "XOR"
  | add     => "ADD"
  | sub     => "SUB"
  | subFrom => "SUBN"

def Instr.mnemonic : Instr → String
  | nop           => "NOP"
  | clear         => "CLS"
  | ret           => "RET"
  | jump nnn      => "JP " ++ address nnn
  | call nnn      => "CALL " ++ address nnn
  | jumpV0 nnn    => "JP v0, " ++ address nnn
  | skip c        => c.mnemonic
  | loadByte x nn => "LD " ++ reg x ++ ", " ++ byte nn
  | addByte x nn  => "ADD " ++ reg x ++ ", " ++ byte nn
  | alu op x y    => op.mnemonic ++ " " ++ reg x ++ ", " ++ reg y
  | shiftR x      => "SHR " ++ reg x
  | shiftL x      => "SHL " ++ reg x
  | setIndex nnn  => "LD I, " ++ address nnn
  | addIndex x    => "ADD I, " ++ reg x
  | glyph x       => "LD F, " ++ reg x
  | random x nn   => "RND " ++ reg x ++ ", " ++ byte nn
  | draw x y n    => "DRW " ++ reg x ++ ", " ++ reg y ++ ", " ++ byte n
  | getDelay x    => "LD " ++ reg x ++ ", DT"
  | setDelay x    => "LD DT, " ++ reg x
  | setSound x    => "LD ST, " ++ reg x
  | waitKey x     => "LD " ++ reg x ++ ", K"
  | digits x      => "LD B, " ++ reg x
  | save x        => "LD [I], " ++ reg x
  | restore x     => "LD " ++ reg x ++ ", [I]"

end ChipEight
