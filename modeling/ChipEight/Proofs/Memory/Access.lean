import ChipEight.Proofs.Memory.LastWrite

namespace ChipEight

theorem Memory.not_spans_iff :
    ¬Spans a len ↔ (∃ b, (a ≤ b ∧ b < a + len) ∧ size ≤ b) ∨ len = 0 ∧ size < a := by
  simp only [Spans, Nat.not_le]
  constructor
  case mp =>
    intro h
    cases len
    case zero     => exact .inr ⟨rfl, h⟩
    case succ len => exact .inl ⟨a + len, by omega⟩
  case mpr => rintro (⟨_, _, _⟩ | ⟨_, _⟩) <;> omega

theorem Memory.readSpan_congr {ram ram' : Memory}
    (h : ∀ b, a ≤ b ∧ b < a + len → ram'.read b = ram.read b) :
    ram'.readSpan a len = ram.readSpan a len :=
  List.map_congr_left fun i hi => by
    have hi := List.mem_range.mp hi
    exact h _ ⟨Nat.le_add_right .., Nat.add_lt_add_left hi _⟩

namespace Machine

variable {m m' : Machine} {noise : Noise} {i : Instr} {ram : Memory}

-- The addresses that an instruction reads or writes. Nothing is written elsewhere, by
-- `read_of_not_touches`, and nothing is read elsewhere, by `execute_congr_ram`.
def Touches (m : Machine) : Instr → Nat → Prop
  | .draw _ _ n, a             => m.index.toNat ≤ a ∧ a < m.index.toNat + n.toNat
  | .digits _, a               => m.index.toNat ≤ a ∧ a ≤ m.index.toNat + 2
  | .save x, a | .restore x, a => m.index.toNat ≤ a ∧ a ≤ m.index.toNat + x.toNat
  | _, _                       => False

theorem touches_iff (ha : i.access? = some len) :
    m.Touches i a ↔ m.index.toNat ≤ a ∧ a < m.index.toNat + len := by
  cases i <;> cases ha
  case draw => rfl
  all_goals
    simp only [Touches]
    omega

theorem read_store_of_not_touches (ha : i.access? = some len) (hl : bytes.length ≤ len)
    (hn : ¬m.Touches i a) : (m.store bytes).ram.read a = m.ram.read a := by
  rw [touches_iff ha] at hn
  exact Memory.read_writeSpan_outside <| by omega

theorem read_of_not_touches (h : m.execute noise i = .ok (signal, m')) (hn : ¬m.Touches i a) :
    m'.ram.read a = m.ram.read a := by
  cases i
  case digits =>
    have ⟨_, hm⟩ := execute_digits h
    rw [hm]
    exact read_store_of_not_touches rfl (Nat.le_refl 3) hn
  case save =>
    have ⟨_, hm⟩ := execute_save h
    rw [hm]
    exact read_store_of_not_touches rfl (List.length_take_le ..) hn
  all_goals
    have hf := Frame.of_execute h
    exact congrArg (Memory.read · a) <| hf.ram (by simp) (by simp)

-- The rest of the machine and the signal are the same with any memory that agrees on what is
-- touched.
theorem execute_congr_ram (ha : i.access? = some len) (h : m.execute noise i = .ok (signal, m'))
    (hr : ∀ a, m.Touches i a → ram.read a = m.ram.read a) :
    ∃ ram', { m with ram }.execute noise i = .ok (signal, { m' with ram := ram' }) := by
  have hr : ram.readSpan m.index.toNat len = m.ram.readSpan m.index.toNat len :=
    Memory.readSpan_congr fun a ht => hr a <| (touches_iff ha).mpr ht
  cases i <;> cases ha
  all_goals
    have ⟨hs, he⟩ := onSpan_eq_ok_iff.mp h
    cases he
  case draw =>
    refine ⟨ram, onSpan_eq_ok_iff.mpr ⟨hs, ?_⟩⟩
    simp only [drawSprite, hr]
    rfl
  case restore =>
    refine ⟨ram, onSpan_eq_ok_iff.mpr ⟨hs, ?_⟩⟩
    simp only [hr]
  case digits | save => exact ⟨_, onSpan_eq_ok_iff.mpr ⟨hs, rfl⟩⟩

theorem not_spans_iff_touches (ha : i.access? = some len) :
    ¬Memory.Spans m.index.toNat len ↔
      (∃ a, m.Touches i a ∧ 0xFFF < a) ∨ (∃ x y, i = .draw x y 0) ∧ 0x1000 < m.index.toNat := by
  have hl : len = 0 ↔ ∃ x y, i = .draw x y 0 := by
    cases i <;> cases ha
    case draw n =>
      rw [show n.toNat = 0 ↔ n = 0 from UInt8.toNat_inj (b := 0)]
      simp
    all_goals simp
  simp only [Memory.not_spans_iff, touches_iff ha, hl]
  rfl

-- An instruction that accesses memory is refused for no other reason.
theorem Refuses.spans (h : m.Refuses i f) (ha : i.access? = some len) :
    ¬Memory.Spans m.index.toNat len := by
  cases h
  case call | ret => contradiction
  case access hs ha' =>
    cases ha.symm.trans ha'
    exact hs

end Machine

namespace Emulator

variable {e : Emulator} {i : Instr}

theorem tick_of_spans (hi : e.machine.instr? = some i) (ha : i.access? = some len)
    (hs : Memory.Spans e.machine.index.toNat len) : ∃ signal, e.tick.answer = .ok signal := by
  cases hx : e.past.machine.execute e.noise i
  case ok => exact ⟨_, tick_of_execute hi hx |>.left⟩
  case error =>
    have hr := Machine.Refuses.of_execute hx
    exact absurd hs <| hr.spans ha

-- The addresses are numbers, so they do not wrap around.
theorem access_fails_past_end (hi : e.machine.instr? = some i) (ha : i.access? = some len) :
    let fails := (∃ a, e.machine.Touches i a ∧ 0xFFF < a) ∨
      (∃ x y, i = .draw x y 0) ∧ 0x1000 < e.machine.index.toNat
    (e.tick.answer = .error (.outsideMemory e.machine.index.toNat len) ↔ fails) ∧
    ((∃ signal, e.tick.answer = .ok signal) ↔ ¬fails) := by
  intro fails
  have hf : ¬Memory.Spans e.machine.index.toNat len ↔ fails := Machine.not_spans_iff_touches ha
  rw [← hf]
  by_cases hs : Memory.Spans e.machine.index.toNat len
  case pos =>
    have ⟨signal, h⟩ := tick_of_spans hi ha hs
    simp [h, hs]
  case neg =>
    have h : e.tick.answer = .error (.outsideMemory e.machine.index.toNat len) :=
      tick_of_refuses hi (.access ha hs) |>.left
    simp [h, hs]

-- Three registers are stored in the last three bytes, and four are too many.
theorem access_fails_past_end_save :
    let image := [0xAF, 0xFD, 0xF2, 0x55, 0xF3, 0x65]
    let e := (create ⟨fun _ => 0, 0⟩).performAll [.load image, .tick]
    (∃ signal, e.tick.answer = .ok signal) ∧
    e.tick.state.tick.answer = .error (.outsideMemory 0xFFD 4) := by
  intro image e
  have ⟨hi, hi', hx, hx'⟩ : e.machine.instr? = some (.save 2) ∧
      e.tick.state.machine.instr? = some (.restore 3) ∧
      e.machine.index.toNat = 0xFFD ∧ e.tick.state.machine.index.toNat = 0xFFD := by
    decide +kernel
  have ⟨_, hs⟩ := access_fails_past_end hi rfl
  have ⟨hf, _⟩ := access_fails_past_end hi' rfl
  rw [hx'] at hf
  refine ⟨hs.mpr ?within, hf.mpr <| .inl ⟨0x1000, ?touched, by decide⟩⟩
  case within =>
    rintro (⟨a, ⟨_, ha⟩, hl⟩ | ⟨⟨_, _, _⟩, _⟩)
    · rw [hx] at ha
      exact absurd hl <| Nat.not_lt.mpr ha
    · contradiction
  case touched => exact ⟨hx' ▸ by decide, hx' ▸ by decide⟩

-- The index register is moved past the end of memory, and a sprite without rows is drawn.
theorem empty_sprite_past_end :
    let image := [0xAF, 0xFF, 0x60, 0x02, 0xF0, 0x1E, 0xD0, 0x00]
    let e := (create ⟨fun _ => 0, 0⟩).performAll [.load image, .tick, .tick, .tick]
    e.machine.instr? = some (.draw 0 0 0) ∧
    (¬∃ a, e.machine.Touches (.draw 0 0 0) a ∧ 0xFFF < a) ∧
    e.tick.answer = .error (.outsideMemory 0x1001 0) := by
  intro image e
  have ⟨hi, ha⟩ : e.machine.instr? = some (.draw 0 0 0) ∧
      e.tick.answer = .error (.outsideMemory 0x1001 0) := by
    decide +kernel
  refine ⟨hi, ?_, ha⟩
  rintro ⟨a, ⟨hl, hu⟩, _⟩
  exact absurd hu <| Nat.not_lt.mpr hl

end Emulator
end ChipEight
