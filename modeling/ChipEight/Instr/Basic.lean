namespace ChipEight

-- What the six skip instructions test.
inductive Condition
  | eqByte  (x nn : UInt8)
  | neByte  (x nn : UInt8)
  | eqReg   (x y : UInt8)
  | neReg   (x y : UInt8)
  | keyDown (x : UInt8)
  | keyUp   (x : UInt8)
  deriving DecidableEq

-- The operations of the `8xy_` family that read both of their registers.
inductive AluOp
  | set | or | and | xor | add | sub | subFrom
  deriving DecidableEq

-- The decoder only yields registers and nibbles below 16 and addresses below 4096.
inductive Instr
  | nop
  | clear
  | ret
  | jump     (nnn : UInt16)
  | call     (nnn : UInt16)
  | jumpV0   (nnn : UInt16)
  | skip     (c : Condition)
  | loadByte (x nn : UInt8)
  | addByte  (x nn : UInt8)
  | alu      (op : AluOp) (x y : UInt8)
  | shiftR   (x : UInt8)
  | shiftL   (x : UInt8)
  | setIndex (nnn : UInt16)
  | addIndex (x : UInt8)
  | glyph    (x : UInt8)
  | random   (x nn : UInt8)
  | draw     (x y n : UInt8)
  | getDelay (x : UInt8)
  | setDelay (x : UInt8)
  | setSound (x : UInt8)
  | waitKey  (x : UInt8)
  | digits   (x : UInt8)
  | save     (x : UInt8)
  | restore  (x : UInt8)
  deriving DecidableEq

namespace Instr

-- The one instruction that consumes a word of the random source.
def drawsRandom : Instr → Bool
  | random .. => true
  | _         => false

end Instr
end ChipEight
