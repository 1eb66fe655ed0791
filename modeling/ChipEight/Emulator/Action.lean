import ChipEight.Fault
import ChipEight.Instr.Basic
import ChipEight.Machine.Basic
import ChipEight.Noise.Basic

namespace ChipEight

-- What an executed instruction tells the host: that the program counter left its course, that the
-- display or the sound timer was written, or that the instruction stands still until a key is down.
inductive Signal
  | next
  | jump
  | draw
  | sound
  | stall
  deriving DecidableEq

-- The value of an operation, and the flag it sets, if any.
def AluOp.eval (x y : UInt8) : AluOp → UInt8 × Option Bool
  | set     => (y, none)
  | or      => (x ||| y, none)
  | and     => (x &&& y, none)
  | xor     => (x ^^^ y, none)
  | add     => (x + y, some (x.toNat + y.toNat > 255))
  | sub     => (x - y, some (x ≥ y))
  | subFrom => (y - x, some (y ≥ x))

-- Hundreds, tens and ones.
def bcd (v : UInt8) : List UInt8 :=
  [v / 100, v / 10 % 10, v % 10]

namespace Machine

def reg (m : Machine) (x : UInt8) : UInt8 :=
  m.regs.read x

def setReg (m : Machine) (x v : UInt8) : Machine :=
  { m with regs := m.regs.write x v }

def holds (m : Machine) : Condition → Bool
  | .eqByte x nn => m.reg x == nn
  | .neByte x nn => m.reg x != nn
  | .eqReg x y   => m.reg x == m.reg y
  | .neReg x y   => m.reg x != m.reg y
  | .keyDown x   => m.keys.isDown (m.reg x).toNat
  | .keyUp x     => !m.keys.isDown (m.reg x).toNat

end Machine

@[ext]
structure Emulator where
  machine : Machine
  noise   : Noise

-- Actions work on the emulator in place, so a fault leaves behind whatever was written before it.
abbrev Action := EStateM Fault Emulator

namespace Action

def machine : Action Machine := do
  return (← get).machine

def change (f : Machine → Machine) : Action Unit :=
  modify fun e => { e with machine := f e.machine }

def setReg (x v : UInt8) : Action Unit :=
  change (·.setReg x v)

-- The flag is written after the result, so it wins when the flag register is the destination.
def setFlagged (x v : UInt8) (flagged : Bool) : Action Unit := do
  setReg x v
  setReg Registers.flag flagged.toUInt8

def jump (a : UInt16) : Action Unit :=
  change ({ · with pc := a })

-- To the next instruction word.
def advance : Action Unit :=
  change fun m => { m with pc := m.pc + 2 }

-- The word at the program counter, high byte first.
def fetch : Action Word := do
  let m ← machine
  if m.pc.toNat + 1 < Memory.size then
    advance
    return .ofBytes (m.ram.read m.pc.toNat) (m.ram.read (m.pc.toNat + 1))
  else
    throw (.outsideProgram m.pc)

-- The call is at the word before its return address.
def push (a : UInt16) : Action Unit := do
  match (← machine).stack.push? a with
  | none       => throw (.stackOverflow (a - 2))
  | some stack => change ({ · with stack })

def pop : Action UInt16 := do
  let m ← machine
  match m.stack.pop? with
  | none            => throw (.stackUnderflow (m.pc - 2))
  | some (a, stack) => do
    change ({ · with stack })
    return a

-- Where the `len` bytes at the index register start. All of them have to lie in memory.
def span (len : Nat) : Action Nat := do
  let start := (← machine).index.toNat
  if Memory.Spans start len then
    return start
  else
    throw (.outsideMemory start len)

def store (start : Nat) (bytes : List UInt8) : Action Unit :=
  change fun m => { m with ram := m.ram.writeSpan start bytes }

def random : Action UInt8 := do
  let e ← get
  set { e with noise := e.noise.advance }
  return e.noise.byte

-- Tells whether the pixel was lit.
def flip (p : Point) : Action Bool := do
  let lit := (← machine).display.lit p
  change fun m => { m with display := m.display.flip p }
  return lit

-- Tells whether a pixel was erased on the way.
def flipAll (ps : List Point) : Action Bool :=
  ps.foldlM (fun erased p => return erased || (← flip p)) false

-- The program counter is past the instruction already.
def execute : Instr → Action Signal
  | .nop => return .next
  | .clear => do
    change ({ · with display := .blank })
    return .draw
  | .ret => do
    jump (← pop)
    return .jump
  | .jump nnn => do
    jump nnn
    return .jump
  | .call nnn => do
    push (← machine).pc
    jump nnn
    return .jump
  | .jumpV0 nnn => do
    jump (((← machine).reg 0).toUInt16 + nnn)
    return .jump
  | .skip c => do
    if (← machine).holds c then
      advance
    return .next
  | .loadByte x nn => do
    setReg x nn
    return .next
  | .addByte x nn => do
    setReg x ((← machine).reg x + nn)
    return .next
  | .alu op x y => do
    let m ← machine
    match op.eval (m.reg x) (m.reg y) with
    | (v, none)         => setReg x v
    | (v, some flagged) => setFlagged x v flagged
    return .next
  | .shiftR x => do
    let v := (← machine).reg x
    setFlagged x (v >>> 1) (v % 2 == 1)
    return .next
  | .shiftL x => do
    let v := (← machine).reg x
    setFlagged x (v <<< 1) (v ≥ 128)
    return .next
  | .setIndex nnn => do
    change ({ · with index := nnn })
    return .next
  | .addIndex x => do
    change fun m => { m with index := m.index + (m.reg x).toUInt16 }
    return .next
  | .glyph x => do
    change fun m => { m with index := .ofNat (Font.start + (m.reg x).toNat * Font.height) }
    return .next
  | .random x nn => do
    setReg x (nn &&& (← random))
    return .next
  | .draw x y n => do
    let start ← span n.toNat
    let m ← machine
    let rows := m.ram.readSpan start n.toNat
    let erased ← flipAll (Sprite.points rows (m.reg x).toNat (m.reg y).toNat)
    setReg Registers.flag erased.toUInt8
    return .draw
  | .getDelay x => do
    setReg x (← machine).delay
    return .next
  | .setDelay x => do
    change fun m => { m with delay := m.reg x }
    return .next
  | .setSound x => do
    change fun m => { m with sound := m.reg x }
    return .sound
  | .waitKey x => do
    match (← machine).keys.first? with
    | some k => do
      setReg x (.ofNat k)
      change ({ · with waiting := false })
      return .next
    | none   => do
      change fun m => { m with pc := m.pc - 2 }
      change ({ · with waiting := true })
      return .stall
  | .digits x => do
    let start ← span 3
    store start (bcd ((← machine).reg x))
    return .next
  | .save x => do
    let start ← span (x.toNat + 1)
    store start ((← machine).regs.upTo x)
    return .next
  | .restore x => do
    let start ← span (x.toNat + 1)
    change fun m => { m with regs := m.regs.writeAll (m.ram.readSpan start (x.toNat + 1)) }
    return .next

end Action
end ChipEight
