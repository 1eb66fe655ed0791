import ChipEight.Proofs.Emulator.Tick

namespace ChipEight

namespace Machine

variable {m m' : Machine}

theorem execute_stall (h : m.execute noise i = .ok (.stall, m')) :
    ∃ x, i = .waitKey x ∧ m.keys.first? = none ∧
      m' = { m with pc := m.pc - 2, waiting := true } := by
  cases i <;>
    simp only [execute, onSpan_eq_ok_iff, Except.ok.injEq, Prod.mk.injEq, reduceCtorEq, false_and,
      and_false] at h
  case ret | call | alu => split at h <;> cases h
  case waitKey x =>
    split at h <;> cases h
    exact ⟨x, rfl, ‹_›, rfl⟩

-- The machine is to wait for a key, and none is down.
def Stalls (m : Machine) (x : UInt8) : Prop :=
  m.instr? = some (.waitKey x) ∧ m.keys.first? = none

end Machine

namespace Emulator

variable {e : Emulator}

-- The emulator after a tick that stalls.
def stalled (e : Emulator) : Emulator :=
  { e with machine := { e.machine with waiting := true } }

theorem tick_of_stalls (h : e.machine.Stalls x) :
    e.tick =
      { answer  := .ok .stall
        state   := e.stalled
        records := #[.executing e.machine.pc (.waitKey x)] } := by
  have ⟨hi, hk⟩ := h
  have ⟨_, hf, hd⟩ := Machine.instr?_eq_some_iff.mp hi
  simp [tick, tickWith_eq, hf, hd, Machine.execute, past, hk, stalled, Instr.drawsRandom]

theorem stalls_iff : e.tick.answer = .ok .stall ↔ ∃ x, e.machine.Stalls x := by
  constructor
  case mp =>
    intro h
    obtain ⟨_, -, ht⟩ := ticks_of_answer h
    cases ht
    case executed hi hx =>
      obtain ⟨x, rfl, hk, _⟩ := Machine.execute_stall hx
      exact ⟨x, hi, hk⟩
  case mpr =>
    intro ⟨_, h⟩
    rw [tick_of_stalls h]

theorem stalls_stalled (h : e.machine.Stalls x) : e.stalled.machine.Stalls x :=
  h

end Emulator
end ChipEight
