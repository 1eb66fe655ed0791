import ChipEight.Emulator.Operation

namespace ChipEight.Checked

-- Where a check fails the checked emulator has no answer: a sum, difference or product has to fit
-- into a word, a timer to count down has to be above zero, an index has to lie in its array.
def add (a b : UInt16) : Option UInt16 :=
  if a.toNat + b.toNat < UInt16.size then some (a + b) else none

def sub (a b : UInt16) : Option UInt16 :=
  if b.toNat ≤ a.toNat then some (a - b) else none

def mul (a b : UInt16) : Option UInt16 :=
  if a.toNat * b.toNat < UInt16.size then some (a * b) else none

def decrement (v : UInt8) : Option UInt8 :=
  if 1 ≤ v.toNat then some (v - 1) else none

-- One, shifted to the left.
def bit (k : Nat) : Option (BitVec 16) :=
  if k < 16 then some (1#16 <<< k) else none

def get (v : Vector α n) (i : Nat) : Option α :=
  v[i]?

def set (v : Vector α n) (i : Nat) (a : α) : Option (Vector α n) :=
  if h : i < n then some (v.set i a) else none

-- A whole span of memory is read and written at once.
def readSpan (ram : Memory) (a len : Nat) : Option (List UInt8) :=
  if a + len ≤ Memory.size then some (ram.readSpan a len) else none

def writeSpan (ram : Memory) (a : Nat) (bytes : List UInt8) : Option Memory :=
  if a + bytes.length ≤ Memory.size then some (ram.writeSpan a bytes) else none

def isDown (p : Keypad) (n : Nat) : Option Bool :=
  if n < Key.count then do return p.bits &&& (← bit n) != 0 else some false

def firstKey (p : Keypad) : Option (Option Key) :=
  Key.all.findM? fun k => isDown p k

def setKey (p : Keypad) (k : Key) (pressed : Bool) : Option Keypad := do
  let b ← bit k
  return if pressed then ⟨p.bits ||| b⟩ else ⟨p.bits &&& ~~~b⟩

def plot (s : Display × Bool) (p : Point) : Option (Display × Bool) := do
  let i := p.1 % Display.width + p.2 % Display.height * Display.width
  let lit ← get s.1.cells i
  let cells ← set s.1.cells i !lit
  return (⟨cells⟩, s.2 || lit)

def draw (d : Display) (ps : List Point) : Option (Display × Bool) :=
  ps.foldlM plot (d, false)

section Machine

variable (m : Machine)

def reg (x : UInt8) : Option UInt8 :=
  get m.regs x.toNat

def setReg (x v : UInt8) : Option Machine := do
  return { m with regs := ← set m.regs x.toNat v }

def setFlagged (x v : UInt8) (flagged : Bool) : Option Machine := do
  setReg (← setReg m x v) Registers.flag flagged.toUInt8

-- The first `len` registers.
def firstRegs (len : Nat) : Option (List UInt8) :=
  if len ≤ 16 then some (m.regs.toList.take len) else none

def setFirstRegs (vs : List UInt8) : Option Machine :=
  if vs.length ≤ 16 then some { m with regs := m.regs.writeAll vs } else none

def holds : Condition → Option Bool
  | .eqByte x nn => do return (← reg m x) == nn
  | .neByte x nn => do return (← reg m x) != nn
  | .eqReg x y   => do return (← reg m x) == (← reg m y)
  | .neReg x y   => do return (← reg m x) != (← reg m y)
  | .keyDown x   => do isDown m.keys (← reg m x).toNat
  | .keyUp x     => do return !(← isDown m.keys (← reg m x).toNat)

def skip (c : Condition) : Option Machine := do
  if ← holds m c then
    return { m with pc := ← add m.pc 2 }
  else
    return m

def drawSprite (x y n : UInt8) : Option Machine := do
  let rows ← (List.range n.toNat).mapM fun r => get m.ram (m.index.toNat + r)
  let points := Sprite.points rows (← reg m x).toNat (← reg m y).toNat
  let (display, erased) ← draw m.display points
  setReg { m with display } Registers.flag erased.toUInt8

def store (bytes : List UInt8) : Option Machine := do
  return { m with ram := ← writeSpan m.ram m.index.toNat bytes }

def push (a : UInt16) : Option (Option CallStack) :=
  if h : m.stack.depth < CallStack.capacity then do
    let slots ← set m.stack.slots m.stack.depth a
    return some { slots, depth := m.stack.depth + 1, depth_le := h }
  else
    some none

def pop : Option (Option (UInt16 × CallStack)) :=
  if m.stack.depth = 0 then
    some none
  else do
    let depth := m.stack.depth - 1
    let a ← get m.stack.slots depth
    return some (a, { m.stack with depth, depth_le := Nat.le_trans (Nat.sub_le ..) m.stack.depth_le })

end Machine

abbrev Step := Except Fault (Signal × Machine)

def next (m : Option Machine) : Option Step :=
  m.map fun m => .ok (.next, m)

def onSpan (m : Machine) (len : Nat) (signal : Signal) (after : Option Machine) : Option Step :=
  if Memory.Spans m.index.toNat len then
    after.map fun m => .ok (signal, m)
  else
    some (.error (.outsideMemory m.index.toNat len))

-- The address of a call or a return wraps by intent.
def execute (m : Machine) (noise : Noise) : Instr → Option Step
  | .nop => next <| some m
  | .clear => some (.ok (.draw, { m with display := .blank }))
  | .ret => do
    match ← pop m with
    | none            => return .error (.stackUnderflow (m.pc - 2))
    | some (a, stack) => return .ok (.jump, { m with pc := a, stack })
  | .jump nnn => some (.ok (.jump, { m with pc := nnn }))
  | .call nnn => do
    match ← push m m.pc with
    | none       => return .error (.stackOverflow (m.pc - 2))
    | some stack => return .ok (.jump, { m with pc := nnn, stack })
  | .jumpV0 nnn => do return .ok (.jump, { m with pc := ← add (← reg m 0).toUInt16 nnn })
  | .skip c => next <| skip m c
  | .loadByte x nn => next <| setReg m x nn
  | .addByte x nn => next do setReg m x ((← reg m x) + nn)
  | .alu op x y => next do
    match op.eval (← reg m x) (← reg m y) with
    | (v, none)         => setReg m x v
    | (v, some flagged) => setFlagged m x v flagged
  | .shiftR x => next do
    let v ← reg m x
    setFlagged m x (v >>> 1) (v % 2 == 1)
  | .shiftL x => next do
    let v ← reg m x
    setFlagged m x (v <<< 1) (v ≥ 128)
  | .setIndex nnn => next <| some { m with index := nnn }
  | .addIndex x => next do return { m with index := m.index + (← reg m x).toUInt16 }
  | .glyph x => next do
    let offset ← mul (← reg m x).toUInt16 (.ofNat Font.height)
    return { m with index := ← add (.ofNat Font.start) offset }
  | .random x nn => next <| setReg m x (nn &&& noise.byte)
  | .draw x y n => onSpan m n.toNat .draw <| drawSprite m x y n
  | .getDelay x => next <| setReg m x m.delay
  | .setDelay x => next do return { m with delay := ← reg m x }
  | .setSound x => do return .ok (.sound, { m with sound := ← reg m x })
  | .waitKey x => do
    match ← firstKey m.keys with
    | some k => next do return { ← setReg m x (.ofNat k) with waiting := false }
    | none   => return .ok (.stall, { m with pc := ← sub m.pc 2, waiting := true })
  | .digits x => onSpan m 3 .next do store m (bcd (← reg m x))
  | .save x => onSpan m (x.toNat + 1) .next do store m (← firstRegs m (x.toNat + 1))
  | .restore x => onSpan m (x.toNat + 1) .next do
    setFirstRegs m (← readSpan m.ram m.index.toNat (x.toNat + 1))

def countTimer (v : UInt8) : Option UInt8 :=
  if v = 0 then some 0 else decrement v

def countDown (m : Machine) : Option Machine := do
  return { m with delay := ← countTimer m.delay, sound := ← countTimer m.sound }

def fresh : Option Machine := do
  return { ram := ← writeSpan .zero Font.start Font.glyphs }

def withImage (image : List UInt8) : Option Machine := do
  let m ← fresh
  return { m with ram := ← writeSpan m.ram Memory.programStart image }

section Emulator

variable (e : Emulator)

def tick : Option Outcome.Tick :=
  let pc := e.machine.pc
  if Memory.size ≤ pc.toNat + 1 then
    some { answer := .error (.outsideProgram pc), state := e }
  else do
    let word := .ofBytes (← get e.machine.ram pc.toNat) (← get e.machine.ram (pc.toNat + 1))
    let past := { e.machine with pc := ← add pc 2 }
    match Instr.decode word with
    | .error u =>
      return { answer := .error (.unsupported u.word pc), state := { e with machine := past } }
    | .ok i =>
      match ← execute past e.noise i with
      | .error f =>
        return {
          answer  := .error f
          state   := { e with machine := past }
          records := #[.executing pc i, .failed f] }
      | .ok (signal, machine) =>
        return {
          answer  := .ok signal
          state   := { machine, noise := if i.drawsRandom then e.noise.advance else e.noise }
          records := #[.executing pc i] }

def run : Nat → Emulator → Signal → Array Record → Option Outcome.Tick
  | 0,     e, signal, records => some { answer := .ok signal, state := e, records }
  | n + 1, e, _,      records => do
    let o ← tick e
    match o.answer with
    | .error f   => return { answer := .error f, state := o.state, records := records ++ o.records }
    | .ok signal => run n o.state signal (records ++ o.records)

def load (image : List UInt8) : Option (Outcome Emulator (Except Fault Unit)) :=
  if image.length ≤ Memory.programCapacity then do
    return {
      answer  := .ok ()
      state   := { e with machine := ← withImage image }
      records := #[.wasReset, .loaded image.length] }
  else
    some {
      answer := .error (.oversized image.length Memory.programCapacity)
      state  := e }

def create (noise : Noise) : Option Emulator := do
  return { machine := ← fresh, noise }

def perform : Operation → Option (Outcome Emulator Reply)
  | .tick => do return (← tick e).map .signal
  | .run n => do return (← run n e .next #[]).map .signal
  | .countDown => do
    return {
      answer := .tone e.machine.nextTone
      state  := { e with machine := ← countDown e.machine } }
  | .switchKey k pressed => do
    let keys ← setKey e.machine.keys k pressed
    let machine := { e.machine with keys, waiting := e.machine.waiting && !pressed }
    return { answer := .done, state := { e with machine } }
  | .releaseKeys => some { answer := .done, state := e.releaseKeys }
  | .reset => do
    return { answer := .done, state := { e with machine := ← fresh }, records := #[.wasReset] }
  | .load image => do return (← load e image).map .loaded

end Emulator
end ChipEight.Checked
