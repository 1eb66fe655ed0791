namespace ChipEight

-- A word `kxyn` has four nibbles; its low byte is `nn`, its low twelve bits are the address `nnn`.
abbrev Word := UInt16

namespace Word

-- Nibbles are counted from the low end.
def nibble (w : Word) (i : Nat) : Nat :=
  w.toNat >>> (4 * i) % 16

def x (w : Word) : UInt8 := .ofNat (w.nibble 2)

def y (w : Word) : UInt8 := .ofNat (w.nibble 1)

def n (w : Word) : UInt8 := .ofNat (w.nibble 0)

def nn (w : Word) : UInt8 := .ofNat (w.toNat % 256)

def nnn (w : Word) : UInt16 := .ofNat (w.toNat % 4096)

-- The first byte in memory is the high one.
def ofBytes (high low : UInt8) : Word :=
  .ofNat (high.toNat * 256 + low.toNat)

def ofAddress (kind : Nat) (nnn : UInt16) : Word :=
  .ofNat (kind * 4096 + nnn.toNat)

def ofByte (kind : Nat) (x nn : UInt8) : Word :=
  .ofNat (kind * 4096 + x.toNat * 256 + nn.toNat)

def ofNibbles (kind : Nat) (x y n : UInt8) : Word :=
  .ofNat (kind * 4096 + x.toNat * 256 + y.toNat * 16 + n.toNat)

end Word
end ChipEight
