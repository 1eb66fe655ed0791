import ChipEight.Emulator.Action
import ChipEight.Proofs.Display.Drawing

namespace ChipEight

def Registers.writeFlagged (r : Registers) (x v : UInt8) (flagged : Bool) : Registers :=
  r.write x v |>.write flag flagged.toUInt8

namespace Machine

def setFlagged (m : Machine) (x v : UInt8) (flagged : Bool) : Machine :=
  { m with regs := m.regs.writeFlagged x v flagged }

-- The `len` bytes at the index register are only touched when all of them lie in memory.
def onSpan (m : Machine) (len : Nat) (next : Signal × Machine) : Except Fault (Signal × Machine) :=
  if Memory.Spans m.index.toNat len then .ok next else .error (.outsideMemory m.index.toNat len)

def drawSprite (m : Machine) (x y n : UInt8) : Machine :=
  let rows := m.ram.readSpan m.index.toNat n.toNat
  let (display, erased) := m.display.draw (Sprite.points rows (m.reg x).toNat (m.reg y).toNat)
  { m with display, regs := m.regs.write Registers.flag erased.toUInt8 }

def store (m : Machine) (bytes : List UInt8) : Machine :=
  { m with ram := m.ram.writeSpan m.index.toNat bytes }

-- What an instruction comes to, as a function of the machine before it. Unlike an action it has no
-- machine to show for a fault, as nothing has been written by then: see `Action.run_execute`.
def execute (m : Machine) (noise : Noise) : Instr → Except Fault (Signal × Machine)
  | .nop => .ok (.next, m)
  | .clear => .ok (.draw, { m with display := .blank })
  | .ret =>
    match m.stack.pop? with
    | none            => .error (.stackUnderflow (m.pc - 2))
    | some (a, stack) => .ok (.jump, { m with pc := a, stack })
  | .jump nnn => .ok (.jump, { m with pc := nnn })
  | .call nnn =>
    match m.stack.push? m.pc with
    | none       => .error (.stackOverflow (m.pc - 2))
    | some stack => .ok (.jump, { m with pc := nnn, stack })
  | .jumpV0 nnn => .ok (.jump, { m with pc := (m.reg 0).toUInt16 + nnn })
  | .skip c => .ok (.next, if m.holds c then { m with pc := m.pc + 2 } else m)
  | .loadByte x nn => .ok (.next, m.setReg x nn)
  | .addByte x nn => .ok (.next, m.setReg x (m.reg x + nn))
  | .alu op x y =>
    match op.eval (m.reg x) (m.reg y) with
    | (v, none)         => .ok (.next, m.setReg x v)
    | (v, some flagged) => .ok (.next, m.setFlagged x v flagged)
  | .shiftR x => .ok (.next, m.setFlagged x (m.reg x >>> 1) (m.reg x % 2 == 1))
  | .shiftL x => .ok (.next, m.setFlagged x (m.reg x <<< 1) (m.reg x ≥ 128))
  | .setIndex nnn => .ok (.next, { m with index := nnn })
  | .addIndex x => .ok (.next, { m with index := m.index + (m.reg x).toUInt16 })
  | .glyph x =>
    .ok (.next, { m with index := .ofNat (Font.start + (m.reg x).toNat * Font.height) })
  | .random x nn => .ok (.next, m.setReg x (nn &&& noise.byte))
  | .draw x y n => m.onSpan n.toNat (.draw, m.drawSprite x y n)
  | .getDelay x => .ok (.next, m.setReg x m.delay)
  | .setDelay x => .ok (.next, { m with delay := m.reg x })
  | .setSound x => .ok (.sound, { m with sound := m.reg x })
  | .waitKey x =>
    match m.keys.first? with
    | some k => .ok (.next, { m.setReg x (.ofNat k) with waiting := false })
    | none   => .ok (.stall, { m with pc := m.pc - 2, waiting := true })
  | .digits x => m.onSpan 3 (.next, m.store (bcd (m.reg x)))
  | .save x => m.onSpan (x.toNat + 1) (.next, m.store (m.regs.upTo x))
  | .restore x =>
    m.onSpan (x.toNat + 1)
      (.next, { m with regs := m.regs.writeAll (m.ram.readSpan m.index.toNat (x.toNat + 1)) })

def fetch (m : Machine) : Except Fault Word :=
  if m.pc.toNat + 1 < Memory.size then
    .ok (.ofBytes (m.ram.read m.pc.toNat) (m.ram.read (m.pc.toNat + 1)))
  else
    .error (.outsideProgram m.pc)

end Machine

namespace Emulator

-- The program counter is past the word that it pointed at.
def past (e : Emulator) : Emulator :=
  { e with machine := { e.machine with pc := e.machine.pc + 2 } }

end Emulator

namespace Action

variable {e : Emulator}

theorem run_machine : machine.run e = .ok e.machine e :=
  rfl

theorem run_push (a : UInt16) :
    (push a).run e =
      match e.machine.stack.push? a with
      | none       => .error (.stackOverflow (a - 2)) e
      | some stack => .ok () { e with machine := { e.machine with stack } } := by
  simp only [push, EStateM.run_bind, run_machine]
  cases e.machine.stack.push? a <;> rfl

theorem run_pop :
    pop.run e =
      match e.machine.stack.pop? with
      | none            => .error (.stackUnderflow (e.machine.pc - 2)) e
      | some (a, stack) => .ok a { e with machine := { e.machine with stack } } := by
  simp only [pop, EStateM.run_bind, run_machine]
  cases e.machine.stack.pop? <;> rfl

theorem run_span (len : Nat) :
    (span len).run e =
      if Memory.Spans e.machine.index.toNat len then
        .ok e.machine.index.toNat e
      else
        .error (.outsideMemory e.machine.index.toNat len) e := by
  simp only [span, EStateM.run_bind, run_machine]
  split <;> rfl

-- Pixel by pixel on the display of the emulator, or on a display of its own.
theorem run_flips (ps : List Point) (erased : Bool) :
    (ps.foldlM (fun erased p => return erased || (← flip p)) erased : Action Bool).run e =
      let (display, erased) := ps.foldl Display.draw.step (e.machine.display, erased)
      .ok erased { e with machine := { e.machine with display } } := by
  induction ps generalizing e erased
  case nil => rfl
  case cons p ps hi =>
    rw [List.foldlM_cons, EStateM.run_bind]
    exact hi _

theorem run_flipAll (ps : List Point) :
    (flipAll ps).run e =
      let (display, erased) := e.machine.display.draw ps
      .ok erased { e with machine := { e.machine with display } } :=
  run_flips ps false

theorem run_fetch :
    fetch.run e =
      match e.machine.fetch with
      | .error f => .error f e
      | .ok w    => .ok w e.past := by
  simp only [fetch, Machine.fetch, EStateM.run_bind, run_machine]
  split <;> rfl

-- An instruction that accesses memory checks all of it before it does anything else.
theorem run_of_span {next : Nat → Action Signal}
    (h : (next e.machine.index.toNat).run e = .ok signal { e with machine := m }) :
    (span len >>= next).run e =
      match e.machine.onSpan len (signal, m) with
      | .error f              => .error f e
      | .ok (signal, machine) => .ok signal { e with machine } := by
  rw [EStateM.run_bind, run_span, Machine.onSpan]
  by_cases hs : Memory.Spans e.machine.index.toNat len
  case pos => simp only [if_pos hs, h]
  case neg => simp only [if_neg hs]

-- The checks of an instruction come before its writes, so an action that fails leaves the emulator
-- as it was.
theorem run_execute (i : Instr) :
    (execute i).run e =
      match e.machine.execute e.noise i with
      | .error f              => .error f e
      | .ok (signal, machine) =>
        .ok signal { machine, noise := if i.drawsRandom then e.noise.advance else e.noise } := by
  cases i
  case ret =>
    simp only [execute, Machine.execute, EStateM.run_bind, run_pop]
    cases e.machine.stack.pop? <;> rfl
  case call =>
    simp only [execute, Machine.execute, EStateM.run_bind, run_machine, run_push]
    cases e.machine.stack.push? e.machine.pc <;> rfl
  case alu op x y =>
    simp only [execute, Machine.execute, EStateM.run_bind, run_machine]
    cases op <;> rfl
  case skip c =>
    simp only [execute, Machine.execute, EStateM.run_bind, run_machine]
    cases e.machine.holds c <;> rfl
  case waitKey =>
    simp only [execute, Machine.execute, EStateM.run_bind, run_machine]
    cases e.machine.keys.first? <;> rfl
  case draw =>
    refine run_of_span ?_
    simp only [EStateM.run_bind, run_machine, run_flipAll]
    rfl
  case digits | save | restore => exact run_of_span rfl
  all_goals rfl

end Action
end ChipEight
