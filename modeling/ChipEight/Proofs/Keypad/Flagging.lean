import ChipEight.Proofs.Emulator.Signals

namespace ChipEight

def Operation.presses : Operation → Bool
  | switchKey _ pressed => pressed
  | _                   => false

namespace Machine

-- The machine stands where it stood, and it says that it waits if it did and no key was pressed.
structure Stands (m m' : Machine) (pressed : Bool) : Prop where
  pc      : m'.pc = m.pc
  ram     : m'.ram = m.ram
  waiting : m'.waiting = (m.waiting && !pressed)

namespace Stands

variable {m m' m'' : Machine}

theorem refl (m : Machine) : m.Stands m false :=
  ⟨rfl, rfl, (Bool.and_true _).symm⟩

theorem trans (s : m.Stands m' p) (s' : m'.Stands m'' p') : m.Stands m'' (p' || p) where
  pc      := s'.pc.trans s.pc
  ram     := s'.ram.trans s.ram
  waiting := by rw [s'.waiting, s.waiting, Bool.and_assoc, Bool.not_or, Bool.and_comm (!p)]

theorem instr? (s : m.Stands m' p) : m'.instr? = m.instr? :=
  instr?_congr s.pc s.ram

end Stands
end Machine

-- Neither a tick nor a restart.
def Moment.Between (t : Moment) : Prop :=
  t.op ≠ .tick ∧ ¬t.restarts

theorem Moment.Between.stands {t : Moment} (hs : t.op.Single) (hb : t.Between) :
    t.before.machine.Stands t.after.machine t.op.presses := by
  have ⟨ht, hr⟩ := hb
  obtain ⟨e, op⟩ := t
  cases op
  case tick      => exact absurd rfl ht
  case run n     => exact absurd rfl (hs n)
  case reset     => exact absurd rfl hr
  case switchKey => exact ⟨rfl, rfl, rfl⟩
  case load image =>
    rw [after_of_load rfl hr]
    exact .refl e.machine
  case countDown | releaseKeys => exact ⟨rfl, rfl, (Bool.and_true _).symm⟩

namespace Emulator

theorem Leads.stands (l : Leads e h e') (hb : ∀ s ∈ h, s.Between) :
    e.machine.Stands e'.machine (h.any (·.op.presses)) := by
  induction l
  case nil => exact .refl e.machine
  case cons hs hi =>
    have ⟨hb, ho⟩ := List.forall_mem_cons.mp hb
    rw [List.any_cons]
    exact hi ho |>.trans <| hb.stands hs

-- The newest tick stalled. The machine says that it waits unless a key was pressed since, whether or
-- not the key is still down; and the next tick stalls unless a key is down.
theorem waits_unless_pressed (noise : Noise) (ops : List Operation)
    (hh : (create noise).history ops = newer ++ t :: older) (ht : t.op = .tick)
    (ha : t.before.tick.answer = .ok .stall) (hb : ∀ s ∈ newer, s.Between) :
    let e := (create noise).performAll ops
    (e.machine.waiting ↔ ∀ s ∈ newer, ¬s.op.presses) ∧
    (e.tick.answer = .ok .stall ↔ ∀ k : Key, e.machine.keys.isDown k = false) := by
  intro e
  have l : (create noise).Leads _ e := leads_history _ ops
  rw [hh] at l
  have ⟨e', l, l'⟩ := l.exists_of_append
  have ⟨_, he⟩ := l.of_cons
  have ⟨x, hs⟩ := stalls_iff.mp ha
  have he : e' = t.before.stalled := by
    rw [he, Moment.after, ht]
    exact congrArg Outcome.state <| tick_of_stalls hs
  subst he
  have s := l'.stands hb
  constructor
  case left => simp [s.waiting, stalled]
  case right =>
    have hi : e.machine.instr? = some (.waitKey x) := s.instr?.trans hs.left
    rw [answer_eq_stall_iff]
    exact and_iff_right ⟨x, hi⟩

-- The timers are counted down and keys are released, and nothing is pressed.
theorem waits_unless_pressed_released :
    let ops := [.load [0xF1, 0x0A], .tick, .countDown, .switchKey 3 false, .releaseKeys]
    let e := (create ⟨fun _ => 0, 0⟩).performAll ops
    e.machine.waiting ∧ e.tick.answer = .ok .stall := by
  intro ops e
  let loaded := (create ⟨fun _ => 0, 0⟩).performAll [.load [0xF1, 0x0A]]
  have ⟨ha, hk⟩ : loaded.tick.answer = .ok .stall ∧
      ∀ k : Key, e.machine.keys.isDown k = false := by
    decide +kernel
  have hh (e : Emulator) (image : List UInt8) :
      e.history [.load image, .tick, .countDown, .switchKey 3 false, .releaseKeys] =
        (e.performAll [.load image, .tick]).history [.countDown, .switchKey 3 false, .releaseKeys] ++
          ⟨e.performAll [.load image], .tick⟩ :: e.history [.load image] :=
    rfl
  have ⟨hw, hs⟩ := waits_unless_pressed _ ops (hh _ _) rfl ha <| by
    simp [history, moments, Moment.Between, Moment.restarts]
  exact ⟨hw.mpr <| by simp [history, moments, Operation.presses], hs.mpr hk⟩

-- A key is pressed and let go again before the next tick, which stalls once more.
theorem pressed_while_stalled :
    let e := (create ⟨fun _ => 0, 0⟩).performAll [.load [0xF1, 0x0A]]
    let e' := e.performAll [.tick, .switchKey 3 true, .switchKey 3 false]
    e.tick.answer = .ok .stall ∧
    (∀ k : Key, e'.machine.keys.isDown k = false) ∧
    e'.tick.answer = .ok .stall ∧
    ¬e'.machine.waiting := by
  decide +kernel

end Emulator
end ChipEight
