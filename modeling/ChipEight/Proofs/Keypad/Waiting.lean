import ChipEight.Proofs.Emulator.Stall
import ChipEight.Proofs.Timer.Countdown

namespace ChipEight

namespace Keypad

variable {p : Keypad}

theorem first?_eq_none_iff : p.first? = none ↔ p = released := by
  constructor
  case mp =>
    intro h
    apply ext_isDown
    intro k
    have hk := List.find?_eq_none.mp h k (List.mem_finRange k)
    rw [isDown_released, Bool.eq_false_iff]
    exact hk
  case mpr =>
    intro h
    simp [h, first?]

theorem release_of_released (h : p = released) (k : Key) : p.set k false = p := by
  apply ext_isDown
  intro j
  simp [isDown_set, h]

theorem first?_least (h : p.first? = some k) : p.isDown k ∧ ∀ j : Key, p.isDown j → k ≤ j := by
  obtain ⟨hd, i, _, hk, hn⟩ := List.find?_eq_some_iff_getElem.mp h
  have hi : k.val = i := by simp [← hk, Key.all]
  refine ⟨hd, fun j hj => Nat.le_of_not_lt fun hl => ?_⟩
  have hn := hn j.val (hi ▸ hl)
  simp [Key.all, hj] at hn

end Keypad

namespace Machine

variable {m m' : Machine}

-- Whether a machine stalls depends on the word at the program counter and on the keys.
theorem Stalls.congr (h : m.Stalls x) (hp : m'.pc = m.pc) (hr : m'.ram = m.ram)
    (hk : m'.keys = m.keys) : m'.Stalls x :=
  ⟨(instr?_congr hp hr).trans h.left, hk ▸ h.right⟩

theorem Stalls.keys_eq (h : m.Stalls x) : m.keys = .released :=
  Keypad.first?_eq_none_iff.mp h.right

-- The machine does stall if it says that it is waiting.
def TrulyWaits (m : Machine) : Prop :=
  m.waiting → ∃ x, m.Stalls x

end Machine

namespace Emulator

variable {e : Emulator}

-- Only a stall makes a machine wait that did not wait before.
theorem waiting_of_tick (ha : e.tick.answer ≠ .ok .stall) (hw : e.tick.state.machine.waiting) :
    e.machine.waiting := by
  have ht := e.ticks
  generalize e.tick.answer = a, e.tick.state = s at ha hw ht
  cases ht
  case lost | unknown | refused => exact hw
  case executed i _ _ hi hx =>
    cases i
    case waitKey =>
      simp only [Machine.execute] at hx
      split at hx <;> cases hx
      · contradiction
      · contradiction
    all_goals
      have hf := Machine.Frame.of_execute hx
      exact (hf.waiting (by simp)).symm.trans hw

theorem trulyWaits_tick (h : e.machine.TrulyWaits) : e.tick.state.machine.TrulyWaits := by
  intro hw
  by_cases ha : e.tick.answer = .ok .stall
  case pos =>
    have ⟨x, hs⟩ := stalls_iff.mp ha
    rw [tick_of_stalls hs]
    exact ⟨x, stalls_stalled hs⟩
  case neg =>
    have hs := h <| waiting_of_tick ha hw
    exact absurd (stalls_iff.mpr hs) ha

end Emulator

theorem Moment.trulyWaits_after {t : Moment} (hs : t.op.Single)
    (h : t.before.machine.TrulyWaits) : t.after.machine.TrulyWaits := by
  obtain ⟨e, op⟩ := t
  cases op
  case tick => exact Emulator.trulyWaits_tick h
  case run n => exact absurd rfl (hs n)
  case countDown =>
    intro hw
    have ⟨x, hs⟩ := h hw
    exact ⟨x, hs.congr rfl rfl rfl⟩
  case switchKey k pressed =>
    intro hw
    have ⟨hw, hp⟩ : e.machine.waiting ∧ (!pressed) = true := Bool.and_eq_true_iff.mp hw
    have ⟨x, hs⟩ := h hw
    refine ⟨x, hs.congr rfl rfl ?_⟩
    rw [Bool.not_eq_true'] at hp
    subst hp
    exact Keypad.release_of_released hs.keys_eq k
  case releaseKeys =>
    intro hw
    have ⟨x, hs⟩ := h hw
    exact ⟨x, hs.congr rfl rfl hs.keys_eq.symm⟩
  case reset => nofun
  case load image =>
    by_cases hr : (Moment.mk e (.load image)).restarts
    case pos =>
      have ⟨_, ha⟩ := after_of_restarts hr
      rw [ha]
      nofun
    case neg =>
      rw [after_of_load rfl hr]
      exact h

theorem Emulator.Leads.trulyWaits (l : Leads e h e') (he : e.machine.TrulyWaits) :
    e'.machine.TrulyWaits := by
  induction l
  case nil => exact he
  case cons hs hi => exact Moment.trulyWaits_after hs hi

-- While a machine says that it is waiting, the instruction at the program counter is one that waits
-- for a key, no key is down, and a tick changes nothing.
theorem waiting_is_true (noise : Noise) (ops : List Operation) :
    let e := (Emulator.create noise).performAll ops
    e.machine.waiting →
      (∀ k : Key, e.machine.keys.isDown k = false) ∧
      e.machine.pc.toNat ≤ 0xFFE ∧
      (∃ x, Instr.decode (.ofBytes (e.machine.ram.read e.machine.pc.toNat)
        (e.machine.ram.read (e.machine.pc.toNat + 1))) = .ok (.waitKey x)) ∧
      e.tick.answer = .ok .stall ∧ e.tick.state = e := by
  intro e hw
  have l : Emulator.Leads (.create noise) _ e := Emulator.leads_history _ ops
  have hf : (Emulator.create noise).machine.TrulyWaits := nofun
  have ⟨x, hs⟩ := l.trulyWaits hf hw
  have ⟨w, hf, hd⟩ := Machine.instr?_eq_some_iff.mp hs.left
  have ⟨hp, hb⟩ := Machine.fetch_eq_ok_iff.mp hf
  have ht := Emulator.tick_of_stalls hs
  refine ⟨fun k => ?_, ?_, ⟨x, hb ▸ hd⟩, by rw [ht], ?_⟩
  · rw [hs.keys_eq, Keypad.isDown_released]
  · simp only [Memory.size] at hp
    omega
  · rw [ht, Emulator.stalled, ← hw]

-- A machine waits, its keys are released, and its timers are counted down.
theorem waiting_is_true_released :
    let ops := [.load [0xF3, 0x0A], .tick, .countDown, .switchKey 7 false, .releaseKeys]
    let e := (Emulator.create ⟨fun _ => 0, 0⟩).performAll ops
    e.machine.waiting ∧ e.tick.answer = .ok .stall ∧ e.tick.state = e := by
  intro ops e
  have hw : e.machine.waiting := by decide +kernel
  have ⟨_, _, _, ha, hs⟩ := waiting_is_true ⟨fun _ => 0, 0⟩ ops hw
  exact ⟨hw, ha, hs⟩

end ChipEight
