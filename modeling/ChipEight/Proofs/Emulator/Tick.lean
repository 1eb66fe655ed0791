import ChipEight.Emulator.Operation
import ChipEight.Proofs.Instr.WellFormed
import ChipEight.Proofs.Machine.Effect
import Mathlib.Data.List.Basic

namespace ChipEight

-- The instruction at the program counter, if there is one.
def Machine.instr? (m : Machine) : Option Instr :=
  match m.fetch with
  | .ok w    => (Instr.decode w).toOption
  | .error _ => none

namespace Machine

variable {m : Machine}

theorem fetch_eq_ok_iff :
    m.fetch = .ok w ↔
      m.pc.toNat + 1 < Memory.size ∧
      w = .ofBytes (m.ram.read m.pc.toNat) (m.ram.read (m.pc.toNat + 1)) := by
  unfold fetch
  split <;> simp [*, eq_comm]

theorem fetch_eq_error_iff :
    m.fetch = .error f ↔ Memory.size ≤ m.pc.toNat + 1 ∧ f = .outsideProgram m.pc := by
  unfold fetch
  split
  case isTrue h  => simp [Nat.not_le.mpr h]
  case isFalse h => simp [Nat.not_lt.mp h, eq_comm]

theorem instr?_eq_some_iff : m.instr? = some i ↔ ∃ w, m.fetch = .ok w ∧ Instr.decode w = .ok i := by
  unfold instr?
  cases m.fetch
  case error => simp
  case ok w => cases h : Instr.decode w <;> simp [h, Except.toOption]

theorem instr?_congr {m' : Machine} (hp : m'.pc = m.pc) (hr : m'.ram = m.ram) :
    m'.instr? = m.instr? := by
  have hf : m'.fetch = m.fetch := by simp only [fetch, hp, hr]
  simp only [instr?, hf]

theorem wellFormed_of_instr? (h : m.instr? = some i) : i.WellFormed :=
  have ⟨_, _, hd⟩ := instr?_eq_some_iff.mp h
  Instr.decode_wellFormed hd

theorem pc_lt_of_instr? (h : m.instr? = some i) : m.pc.toNat + 1 < Memory.size :=
  have ⟨_, hf, _⟩ := instr?_eq_some_iff.mp h
  fetch_eq_ok_iff.mp hf |>.left

end Machine

namespace Emulator

variable {e : Emulator}

-- Every action of a tick that fails leaves the emulator as it was, so the fetch is the only one to
-- show in the state after a fault.
theorem tickWith_eq (decode : Decoder) (e : Emulator) :
    e.tickWith decode =
      match e.machine.fetch with
      | .error f => { answer := .error f, state := e }
      | .ok w    =>
        match decode w with
        | .error u => { answer := .error (.unsupported u.word e.machine.pc), state := e.past }
        | .ok i    =>
          match e.past.machine.execute e.noise i with
          | .error f =>
            { answer  := .error f
              state   := e.past
              records := #[.executing e.machine.pc i, .failed f] }
          | .ok (signal, machine) =>
            { answer  := .ok signal
              state   := { machine, noise := if i.drawsRandom then e.noise.advance else e.noise }
              records := #[.executing e.machine.pc i] } := by
  rw [tickWith, Action.run_fetch]
  cases e.machine.fetch
  case error => rfl
  case ok w =>
    simp only
    cases decode w
    case error => rfl
    case ok i =>
      simp only [Action.run_execute, past]
      cases Machine.execute { e.machine with pc := e.machine.pc + 2 } e.noise i <;> rfl

theorem past_pc (h : e.machine.pc.toNat + 1 < Memory.size) :
    e.past.machine.pc.toNat = e.machine.pc.toNat + 2 := by
  simp only [Memory.size] at h
  simp only [past, UInt16.toNat_add, UInt16.reduceToNat]
  omega

theorem past_pc_sub_two : e.past.machine.pc - 2 = e.machine.pc := by
  simp [past]

-- The ways a tick can end.
inductive Ticks (e : Emulator) : Except Fault Signal → Emulator → Prop
  | lost (h : Memory.size ≤ e.machine.pc.toNat + 1) :
    Ticks e (.error (.outsideProgram e.machine.pc)) e
  | unknown (hf : e.machine.fetch = .ok w) (hd : Instr.decode w = .error ⟨w⟩) :
    Ticks e (.error (.unsupported w e.machine.pc)) e.past
  | refused (hi : e.machine.instr? = some i) (hr : e.past.machine.Refuses i f) :
    Ticks e (.error f) e.past
  | executed (hi : e.machine.instr? = some i)
      (hx : e.past.machine.execute e.noise i = .ok (signal, m)) :
    Ticks e (.ok signal) ⟨m, if i.drawsRandom then e.noise.advance else e.noise⟩

theorem ticks (e : Emulator) : e.Ticks e.tick.answer e.tick.state := by
  rw [tick, tickWith_eq]
  split
  case h_1 hf =>
    have ⟨h, he⟩ := Machine.fetch_eq_error_iff.mp hf
    subst he
    exact .lost h
  case h_2 w hf =>
    split
    case h_1 u hd =>
      have hu := Instr.decode_error hd
      subst hu
      exact .unknown hf hd
    case h_2 i hd =>
      have hi := Machine.instr?_eq_some_iff.mpr ⟨_, hf, hd⟩
      split
      case h_1 hx => exact .refused hi <| .of_execute hx
      case h_2 hx => exact .executed hi hx

theorem ticks_of_answer (h : e.tick.answer = a) : ∃ s, e.tick.state = s ∧ e.Ticks a s :=
  ⟨_, rfl, h ▸ e.ticks⟩

-- Keys are the host's.
theorem keys_tick (e : Emulator) : e.tick.state.machine.keys = e.machine.keys := by
  have ht := e.ticks
  generalize e.tick.answer = a, e.tick.state = s at ht
  cases ht
  case lost | unknown | refused => rfl
  case executed hx => exact Machine.Frame.of_execute hx |>.keys

theorem tick_of_refuses (hi : e.machine.instr? = some i) (hr : e.past.machine.Refuses i f) :
    e.tick.answer = .error f ∧ e.tick.state = e.past := by
  have ⟨_, hf, hd⟩ := Machine.instr?_eq_some_iff.mp hi
  have hx : e.past.machine.execute e.noise i = _ := hr.execute
  simp [tick, tickWith_eq, hf, hd, hx]

theorem tick_of_execute (hi : e.machine.instr? = some i)
    (hx : e.past.machine.execute e.noise i = .ok (signal, m)) :
    e.tick.answer = .ok signal ∧
      e.tick.state = ⟨m, if i.drawsRandom then e.noise.advance else e.noise⟩ := by
  have ⟨_, hf, hd⟩ := Machine.instr?_eq_some_iff.mp hi
  simp [tick, tickWith_eq, hf, hd, hx]

-- Whether a condition holds does not depend on the program counter.
theorem tick_skip (hi : e.machine.instr? = some (.skip c)) :
    e.tick.answer = .ok .next ∧
    e.tick.state =
      { e with machine := { e.machine with pc := e.machine.pc + if e.machine.holds c then 4 else 2 } } := by
  have hx : e.past.machine.execute e.noise (.skip c) =
      .ok (.next, { e.machine with pc := e.machine.pc + if e.machine.holds c then 4 else 2 }) := by
    have hh : e.past.machine.holds c = e.machine.holds c := by cases c <;> rfl
    simp only [Machine.execute, hh]
    split
    case isTrue  => simp only [past, UInt16.add_assoc]; rfl
    case isFalse => rfl
  exact tick_of_execute hi hx

-- The answer says what went wrong and where, and nothing but the program counter has changed.
theorem tick_fault (h : e.tick.answer = .error f) :
    match f with
    | .outsideProgram pc =>
      pc = e.machine.pc ∧ Memory.size ≤ pc.toNat + 1 ∧ e.tick.state = e
    | .unsupported word address =>
      address = e.machine.pc ∧
      word.toNat =
        256 * (e.machine.ram.read address.toNat).toNat +
          (e.machine.ram.read (address.toNat + 1)).toNat ∧
      (∀ i, Instr.decode word ≠ .ok i) ∧
      e.tick.state = e.past ∧ e.past.machine.pc.toNat = e.machine.pc.toNat + 2
    | .stackOverflow address =>
      address = e.machine.pc ∧
      (∃ nnn, e.machine.instr? = some (.call nnn)) ∧
      e.machine.stack.depth = CallStack.capacity ∧
      e.tick.state = e.past ∧ e.past.machine.pc.toNat = e.machine.pc.toNat + 2
    | .stackUnderflow address =>
      address = e.machine.pc ∧
      e.machine.instr? = some .ret ∧
      e.machine.stack.depth = 0 ∧
      e.tick.state = e.past ∧ e.past.machine.pc.toNat = e.machine.pc.toNat + 2
    | .outsideMemory address len =>
      address = e.machine.index.toNat ∧
      (∃ i, e.machine.instr? = some i ∧ i.access? = some len) ∧
      Memory.size < address + len ∧
      e.tick.state = e.past ∧ e.past.machine.pc.toNat = e.machine.pc.toNat + 2
    | .oversized .. => False := by
  have ⟨s, hs, ht⟩ := ticks_of_answer h
  rw [hs]
  clear hs
  cases ht
  case lost hs => exact ⟨rfl, hs, rfl⟩
  case unknown w hf hd =>
    have ⟨hpc, hw⟩ := Machine.fetch_eq_ok_iff.mp hf
    subst hw
    exact ⟨rfl, Word.toNat_ofBytes .., by simp [hd], rfl, past_pc hpc⟩
  case refused i hi hr =>
    have hpc := past_pc <| Machine.pc_lt_of_instr? hi
    cases hr
    case call hs => exact ⟨past_pc_sub_two, ⟨_, hi⟩, CallStack.length_toList _ ▸ hs, rfl, hpc⟩
    case ret hs =>
      have hd := congrArg List.length hs
      exact ⟨past_pc_sub_two, hi, CallStack.length_toList _ ▸ hd, rfl, hpc⟩
    case access hs ha => exact ⟨rfl, ⟨_, hi, ha⟩, Nat.not_le.mp hs, rfl, hpc⟩

-- The index register points at the last byte of memory, and three digits do not fit there.
theorem tick_fault_digits :
    let e := (create ⟨fun _ => 0, 0⟩).performAll [.load [0xAF, 0xFF, 0xF0, 0x33], .tick]
    e.tick.answer = .error (.outsideMemory 0xFFF 3) ∧ e.tick.state = e.past := by
  intro e
  have h : e.tick.answer = .error (.outsideMemory 0xFFF 3) := by decide +kernel
  exact ⟨h, (tick_fault h).2.2.2.1⟩

end Emulator
end ChipEight
