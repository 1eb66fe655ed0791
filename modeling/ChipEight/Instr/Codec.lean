import ChipEight.Instr.Basic
import ChipEight.Instr.Word
import ChipEight.Text.Numeral

namespace ChipEight

-- A word that stands for no instruction.
structure UnknownWord where
  word : Word
  deriving DecidableEq

namespace UnknownWord

def message (e : UnknownWord) : String :=
  "invalid opcode " ++ Numeral.upperHex 4 e.word.toNat

end UnknownWord

namespace Instr

def decode (w : Word) : Except UnknownWord Instr :=
  match w.nibble 3 with
  | 0x0 =>
    match w.toNat with
    | 0x0000 => .ok .nop
    | 0x00E0 => .ok .clear
    | 0x00EE => .ok .ret
    | _      => .error ⟨w⟩
  | 0x1 => .ok (.jump w.nnn)
  | 0x2 => .ok (.call w.nnn)
  | 0x3 => .ok (.skip (.eqByte w.x w.nn))
  | 0x4 => .ok (.skip (.neByte w.x w.nn))
  | 0x5 =>
    match w.nibble 0 with
    | 0x0 => .ok (.skip (.eqReg w.x w.y))
    | _   => .error ⟨w⟩
  | 0x6 => .ok (.loadByte w.x w.nn)
  | 0x7 => .ok (.addByte w.x w.nn)
  | 0x8 =>
    match w.nibble 0 with
    | 0x0 => .ok (.alu .set w.x w.y)
    | 0x1 => .ok (.alu .or w.x w.y)
    | 0x2 => .ok (.alu .and w.x w.y)
    | 0x3 => .ok (.alu .xor w.x w.y)
    | 0x4 => .ok (.alu .add w.x w.y)
    | 0x5 => .ok (.alu .sub w.x w.y)
    | 0x6 => .ok (.shiftR w.x)
    | 0x7 => .ok (.alu .subFrom w.x w.y)
    | 0xE => .ok (.shiftL w.x)
    | _   => .error ⟨w⟩
  | 0x9 =>
    match w.nibble 0 with
    | 0x0 => .ok (.skip (.neReg w.x w.y))
    | _   => .error ⟨w⟩
  | 0xA => .ok (.setIndex w.nnn)
  | 0xB => .ok (.jumpV0 w.nnn)
  | 0xC => .ok (.random w.x w.nn)
  | 0xD => .ok (.draw w.x w.y w.n)
  | 0xE =>
    match w.toNat % 256 with
    | 0x9E => .ok (.skip (.keyDown w.x))
    | 0xA1 => .ok (.skip (.keyUp w.x))
    | _    => .error ⟨w⟩
  | _ =>
    match w.toNat % 256 with
    | 0x07 => .ok (.getDelay w.x)
    | 0x0A => .ok (.waitKey w.x)
    | 0x15 => .ok (.setDelay w.x)
    | 0x18 => .ok (.setSound w.x)
    | 0x1E => .ok (.addIndex w.x)
    | 0x29 => .ok (.glyph w.x)
    | 0x33 => .ok (.digits w.x)
    | 0x55 => .ok (.save w.x)
    | 0x65 => .ok (.restore w.x)
    | _    => .error ⟨w⟩

-- Where the table ignores the nibble `y`, it is zero.
def encode : Instr → Word
  | nop                => 0x0000
  | clear              => 0x00E0
  | ret                => 0x00EE
  | jump nnn           => .ofAddress 0x1 nnn
  | call nnn           => .ofAddress 0x2 nnn
  | skip (.eqByte x nn) => .ofByte 0x3 x nn
  | skip (.neByte x nn) => .ofByte 0x4 x nn
  | skip (.eqReg x y)  => .ofNibbles 0x5 x y 0x0
  | loadByte x nn      => .ofByte 0x6 x nn
  | addByte x nn       => .ofByte 0x7 x nn
  | alu .set x y       => .ofNibbles 0x8 x y 0x0
  | alu .or x y        => .ofNibbles 0x8 x y 0x1
  | alu .and x y       => .ofNibbles 0x8 x y 0x2
  | alu .xor x y       => .ofNibbles 0x8 x y 0x3
  | alu .add x y       => .ofNibbles 0x8 x y 0x4
  | alu .sub x y       => .ofNibbles 0x8 x y 0x5
  | shiftR x           => .ofNibbles 0x8 x 0x0 0x6
  | alu .subFrom x y   => .ofNibbles 0x8 x y 0x7
  | shiftL x           => .ofNibbles 0x8 x 0x0 0xE
  | skip (.neReg x y)  => .ofNibbles 0x9 x y 0x0
  | setIndex nnn       => .ofAddress 0xA nnn
  | jumpV0 nnn         => .ofAddress 0xB nnn
  | random x nn        => .ofByte 0xC x nn
  | draw x y n         => .ofNibbles 0xD x y n
  | skip (.keyDown x)  => .ofByte 0xE x 0x9E
  | skip (.keyUp x)    => .ofByte 0xE x 0xA1
  | getDelay x         => .ofByte 0xF x 0x07
  | waitKey x          => .ofByte 0xF x 0x0A
  | setDelay x         => .ofByte 0xF x 0x15
  | setSound x         => .ofByte 0xF x 0x18
  | addIndex x         => .ofByte 0xF x 0x1E
  | glyph x            => .ofByte 0xF x 0x29
  | digits x           => .ofByte 0xF x 0x33
  | save x             => .ofByte 0xF x 0x55
  | restore x          => .ofByte 0xF x 0x65

end Instr
end ChipEight
