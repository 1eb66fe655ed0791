import ChipEight.Noise.Basic

namespace ChipEight.ChaCha

-- ChaCha with twelve rounds, a 64-bit block counter and a zero nonce. The key comes from a 64-bit
-- seed by a linear congruential generator with permuted output.
abbrev KeyWords := Vector UInt32 8

abbrev Block := Vector UInt32 16

-- Shift amounts count modulo 32, so a rotation by zero is the identity.
def rotateLeft (w k : UInt32) : UInt32 :=
  w <<< k ||| w >>> (32 - k : UInt32)

def rotateRight (w k : UInt32) : UInt32 :=
  w >>> k ||| w <<< (32 - k : UInt32)

-- The whole state steps first, then a 32-bit word is drawn from it.
def seedStep (s : UInt64) : UInt64 :=
  s * 6364136223846793005 + 11634580027462260723

def seedWord (s : UInt64) : UInt32 :=
  rotateRight ((s >>> 18 ^^^ s) >>> 27).toUInt32 (s >>> 59).toUInt32

def expandSeed (seed : UInt64) : KeyWords :=
  .ofFn fun i => seedWord (Nat.repeat seedStep (i + 1) seed)

def quarterRound (s : Block) (a b c d : Fin 16) : Block :=
  let s := s.set a (s[a] + s[b])
  let s := s.set d (rotateLeft (s[d] ^^^ s[a]) 16)
  let s := s.set c (s[c] + s[d])
  let s := s.set b (rotateLeft (s[b] ^^^ s[c]) 12)
  let s := s.set a (s[a] + s[b])
  let s := s.set d (rotateLeft (s[d] ^^^ s[a]) 8)
  let s := s.set c (s[c] + s[d])
  s.set b (rotateLeft (s[b] ^^^ s[c]) 7)

-- The columns, then the diagonals.
def doubleRound (s : Block) : Block :=
  let s := quarterRound s 0 4 8 12
  let s := quarterRound s 1 5 9 13
  let s := quarterRound s 2 6 10 14
  let s := quarterRound s 3 7 11 15
  let s := quarterRound s 0 5 10 15
  let s := quarterRound s 1 6 11 12
  let s := quarterRound s 2 7 8 13
  quarterRound s 3 4 9 14

def initial (key : KeyWords) (counter : UInt64) : Block :=
  #v[0x61707865, 0x3320646e, 0x79622d32, 0x6b206574,
    key[0], key[1], key[2], key[3], key[4], key[5], key[6], key[7],
    counter.toUInt32, (counter >>> 32).toUInt32, 0, 0]

def block (key : KeyWords) (counter : UInt64) : Block :=
  let s := initial key counter
  s.zipWith (· + ·) (Nat.repeat doubleRound 6 s)

-- Sixteen words of each block follow one another.
def word (key : KeyWords) (i : Nat) : UInt32 :=
  (block key (.ofNat (i / 16)))[i % 16]

end ChaCha

def Noise.ofSeed (seed : UInt64) : Noise :=
  let key := ChaCha.expandSeed seed
  { stream := ChaCha.word key, position := 0 }

end ChipEight
