namespace ChipEight

-- Nothing but `advance` moves the position, so the stream may be any stream at all.
structure Noise where
  stream   : Nat → UInt32
  position : Nat

namespace Noise

-- The low byte of the next word.
def byte (s : Noise) : UInt8 :=
  (s.stream s.position).toUInt8

def advance (s : Noise) : Noise :=
  { s with position := s.position + 1 }

end Noise
end ChipEight
