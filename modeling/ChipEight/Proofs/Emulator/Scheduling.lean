import ChipEight.Proofs.Emulator.Outcomes
import ChipEight.Proofs.Keypad.Resuming

namespace ChipEight

-- The instruction reads or writes what the clock and the player write: the timers, the keys, or the
-- flag of a machine that waits for a key.
def Instr.usesDevices : Instr → Bool
  | getDelay _ | setDelay _ | setSound _ | waitKey _ | skip (.keyDown _) | skip (.keyUp _) => true
  | _                                                                                      => false

namespace Machine

variable {m m' t p : Machine}

-- The timers of `t`, the keys of `p`, and all else of `m`.
def merge (m t p : Machine) : Machine :=
  { m with delay := t.delay, sound := t.sound, keys := p.keys, waiting := p.waiting }

theorem onSpan_merge (len : Nat) (signal : Signal) (m' : Machine) :
    (m.merge t p).onSpan len (signal, m'.merge t p) =
      (m.onSpan len (signal, m')).map (Prod.map id (·.merge t p)) := by
  by_cases h : Memory.Spans m.index.toNat len <;> simp [onSpan, merge, h, Except.map]

theorem holds_merge (hc : ¬(Instr.skip c).usesDevices) : (m.merge t p).holds c = m.holds c := by
  cases c
  case keyDown | keyUp => simp [Instr.usesDevices] at hc
  all_goals rfl

theorem execute_merge (hi : ¬i.usesDevices) (noise : Noise) (t p : Machine) :
    (m.merge t p).execute noise i = (m.execute noise i).map (Prod.map id (·.merge t p)) := by
  cases i
  case getDelay | setDelay | setSound | waitKey => simp [Instr.usesDevices] at hi
  case draw x y n => exact onSpan_merge n.toNat .draw (m.drawSprite x y n)
  case digits x => exact onSpan_merge 3 .next (m.store (bcd (m.reg x)))
  case save x => exact onSpan_merge (x.toNat + 1) .next (m.store (m.regs.upTo x))
  case restore x =>
    exact onSpan_merge (x.toNat + 1) .next { m with regs := m.regs.writeAll _ }
  case skip c =>
    simp only [execute, holds_merge hi]
    split <;> rfl
  case ret =>
    have hs : (m.merge t p).stack = m.stack := rfl
    simp only [execute, hs]
    split <;> rfl
  case call nnn =>
    have hs : (m.merge t p).stack.push? (m.merge t p).pc = m.stack.push? m.pc := rfl
    simp only [execute, hs]
    split <;> rfl
  case alu op x y =>
    have hr (x : UInt8) : (m.merge t p).reg x = m.reg x := rfl
    simp only [execute, hr]
    split <;> rfl
  all_goals rfl

theorem Refuses.not_usesDevices (h : m.Refuses i f) : ¬i.usesDevices := by
  cases h
  case call | ret => simp [Instr.usesDevices]
  case access ha => cases i <;> simp [Instr.usesDevices, Instr.access?] at ha ⊢

end Machine

-- No instruction that uses the timers or the keys was executed.
def Moment.Detached (t : Moment) : Prop :=
  ∀ i ∈ t.executed?, ¬i.usesDevices

instance : DecidablePred Moment.Detached := fun t =>
  inferInstanceAs (Decidable (∀ i ∈ t.executed?, ¬i.usesDevices))

-- Turns of the three parties: `n` ticks, `k` counts of the timers, and the keys in their order.
inductive Schedule : Nat → Nat → List Operation → List Operation → Prop
  | nil : Schedule 0 0 [] []
  | tick (s : Schedule n k keying ops) : Schedule (n + 1) k keying (.tick :: ops)
  | countDown (s : Schedule n k keying ops) : Schedule n (k + 1) keying (.countDown :: ops)
  | key (ho : op.Keying) (s : Schedule n k keying ops) : Schedule n k (op :: keying) (op :: ops)

theorem Schedule.mem_keying (s : Schedule n k keying ops) : ∀ op ∈ keying, op.Keying := by
  induction s
  case nil => simp
  case tick hi      => exact hi
  case countDown hi => exact hi
  case key ho _ hi  => exact List.forall_mem_cons.mpr ⟨ho, hi⟩

-- First all of the ticks, then all of the counts, then all of the keys.
theorem Schedule.inTurn (n k : Nat) (hk : ∀ op ∈ keying, op.Keying) :
    Schedule n k keying (.replicate n .tick ++ (.replicate k .countDown ++ keying)) := by
  induction n
  case succ n hi => exact .tick hi
  case zero =>
    induction k
    case succ k hi => exact .countDown hi
    case zero =>
      induction keying
      case nil => exact .nil
      case cons op keying hi =>
        have ⟨ho, hk⟩ := List.forall_mem_cons.mp hk
        exact .key ho (hi hk)

namespace Reply

def signal? : Reply → Option (Except Fault Signal)
  | signal s => some s
  | _        => none

def tone? : Reply → Option Tone
  | tone t => some t
  | _      => none

end Reply

namespace Emulator

variable {e t p : Emulator}

-- What the ticks among the operations answer.
def signals (e : Emulator) (ops : List Operation) : List (Except Fault Signal) :=
  (e.outcomes ops).filterMap (·.answer.signal?)

-- What the counts of the timers among the operations answer.
def tones (e : Emulator) (ops : List Operation) : List Tone :=
  (e.outcomes ops).filterMap (·.answer.tone?)

def merge (e t p : Emulator) : Emulator :=
  { e with machine := e.machine.merge t.machine p.machine }

theorem tick_merge (hd : (Moment.mk e .tick).Detached) (t p : Emulator) :
    (e.merge t p).tick = { e.tick with state := e.tick.state.merge t p } := by
  have hf : (e.merge t p).machine.fetch = e.machine.fetch := rfl
  cases hw : e.machine.fetch
  case error => simp only [tick, tickWith_eq, hf, hw]
  case ok w =>
    cases hi : Instr.decode w
    case error => simp only [tick, tickWith_eq, hf, hw, hi]; rfl
    case ok i =>
      have hn := Machine.instr?_eq_some_iff.mpr ⟨w, hw, hi⟩
      have hn := Moment.of_instr? hd (fun _ hr => hr.not_usesDevices) hn
      have hx : Machine.execute
          { (e.merge t p).machine with pc := (e.merge t p).machine.pc + 2 } (e.merge t p).noise i =
          _ :=
        e.past.machine.execute_merge hn e.noise t.machine p.machine
      simp only [tick, tickWith_eq, hf, hw, hi, hx, past]
      cases Machine.execute _ e.noise i <;> rfl

theorem perform_key (ho : op.Keying) (e t p : Emulator) :
    (e.merge t p).perform op = { answer := .done, state := e.merge t (p.perform op).state } := by
  cases op
  case switchKey | releaseKeys => rfl
  all_goals contradiction

-- What the parties come to together: the program from `e`, the clock from `t`, the player from `p`.
structure Merges (e t p : Emulator) (n k : Nat) (keying ops : List Operation) : Prop where
  signals : (e.merge t p).signals ops = e.signals (.replicate n .tick)
  tones   : (e.merge t p).tones ops = t.tones (.replicate k .countDown)
  state   : (e.merge t p).performAll ops =
    (e.performAll (.replicate n .tick)).merge (t.performAll (.replicate k .countDown))
      (p.performAll keying)

namespace Merges

theorem tick (m : e.tick.state.Merges t p n k keying ops) (hd : (Moment.mk e .tick).Detached) :
    e.Merges t p (n + 1) k keying (.tick :: ops) := by
  have ht := tick_merge hd t p
  have hp : (e.merge t p).perform .tick = (e.merge t p).tick.map .signal := rfl
  rw [ht] at hp
  constructor
  case signals =>
    rw [Emulator.signals, outcomes, hp]
    exact congrArg (_ :: ·) m.signals
  case tones =>
    rw [Emulator.tones, outcomes, hp]
    exact m.tones
  case state =>
    rw [performAll, List.foldl_cons, hp]
    exact m.state

theorem countDown (m : e.Merges t.countDown.state p n k keying ops) :
    e.Merges t p n (k + 1) keying (.countDown :: ops) where
  signals := m.signals
  tones   := congrArg (_ :: ·) m.tones
  state   := m.state

theorem key (m : e.Merges t (p.perform op).state n k keying ops) (ho : op.Keying) :
    e.Merges t p n k (op :: keying) (op :: ops) := by
  have hp := perform_key ho e t p
  constructor
  case signals =>
    rw [Emulator.signals, outcomes, hp]
    exact m.signals
  case tones =>
    rw [Emulator.tones, outcomes, hp]
    exact m.tones
  case state =>
    rw [performAll, List.foldl_cons, hp]
    exact m.state

theorem of_schedule (s : Schedule n k keying ops)
    (hd : ∀ m ∈ e.history (.replicate n .tick), m.Detached) : e.Merges t p n k keying ops := by
  induction s generalizing e t p
  case nil => exact ⟨rfl, rfl, rfl⟩
  case tick hi =>
    have hd (m) (hm : m ∈ _) := hd m hm
    rw [List.replicate_succ, history] at hd
    have ht := hd _ <| List.mem_append_right _ <| List.mem_singleton_self _
    refine tick (hi fun m hm => hd m <| List.mem_append_left _ hm) ht
  case countDown hi => exact countDown (hi hd)
  case key ho _ hi  => exact key (hi hd) ho

end Merges

-- The parties may take turns in any order.
theorem turns_in_any_order (s : Schedule n k keying ops) (e : Emulator)
    (hd : ∀ t ∈ e.history (.replicate n .tick), t.Detached) :
    let inTurn := .replicate n .tick ++ (.replicate k .countDown ++ keying)
    e.signals ops = e.signals inTurn ∧ e.tones ops = e.tones inTurn ∧
    e.performAll ops = e.performAll inTurn := by
  intro inTurn
  have m : e.Merges e e n k keying ops := .of_schedule s hd
  have m' : e.Merges e e n k keying inTurn := .of_schedule (.inTurn n k s.mem_keying) hd
  refine ⟨?_, ?_, ?_⟩
  · exact m.signals.trans m'.signals.symm
  · exact m.tones.trans m'.tones.symm
  · exact m.state.trans m'.state.symm

-- A return fails, and the sound timer runs down.
theorem turns_in_any_order_beep :
    let image := [0x60, 0x02, 0xF0, 0x18, 0x70, 0x01, 0x00, 0xEE]
    let e := (create ⟨fun _ => 0, 0⟩).performAll [.load image, .run 2]
    let ops := [.countDown, .tick, .switchKey 3 true, .tick, .countDown, .releaseKeys, .tick]
    let inTurn := [.tick, .tick, .tick, .countDown, .countDown, .switchKey 3 true, .releaseKeys]
    (∀ t ∈ e.history (.replicate 3 .tick), t.Detached) ∧
    e.signals ops = [.ok .next, .error (.stackUnderflow 0x206), .ok .next] ∧
    e.tones ops = [.silent, .beep] ∧ e.performAll ops = e.performAll inTurn := by
  intro image e ops inTurn
  have ⟨hd, hs, ht⟩ : (∀ t ∈ e.history (.replicate 3 .tick), t.Detached) ∧
      e.signals inTurn = [.ok .next, .error (.stackUnderflow 0x206), .ok .next] ∧
      e.tones inTurn = [.silent, .beep] := by
    decide +kernel
  have s : Schedule 3 2 [.switchKey 3 true, .releaseKeys] ops :=
    .countDown <| .tick <| .key trivial <| .tick <| .countDown <| .key trivial <| .tick .nil
  have ⟨hs', ht', he⟩ := turns_in_any_order s e hd
  exact ⟨hd, hs'.trans hs, ht'.trans ht, he⟩

end Emulator
end ChipEight
