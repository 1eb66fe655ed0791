import ChipEight.Proofs.Keypad.Waiting

namespace ChipEight

namespace Machine

variable {m m' : Machine} {noise : Noise} {signal : Signal}

-- The signal of an instruction that is executed.
def signalOf (m : Machine) : Instr → Signal
  | .clear | .draw ..                    => .draw
  | .ret | .jump _ | .call _ | .jumpV0 _ => .jump
  | .setSound _                          => .sound
  | .waitKey _                           => if m.keys.first? = none then .stall else .next
  | _                                    => .next

theorem signalOf_waitKey (m : Machine) (x : UInt8) :
    m.signalOf (.waitKey x) = if m.keys.first? = none then .stall else .next :=
  rfl

theorem signal_of_execute (h : m.execute noise i = .ok (signal, m')) : signal = m.signalOf i := by
  cases i <;> simp only [execute, onSpan_eq_ok_iff, Except.ok.injEq, Prod.mk.injEq] at h
  case ret | call | alu => split at h <;> cases h <;> rfl
  case waitKey =>
    rw [signalOf_waitKey]
    split at h <;> cases h <;> simp [*]
  case draw | digits | save | restore =>
    obtain ⟨_, rfl, _⟩ := h
    rfl
  all_goals
    obtain ⟨rfl, _⟩ := h
    rfl

-- Each of these parts changes only together with an answer of its own.
structure Tells (m m' : Machine) (answer : Except Fault Signal) : Prop where
  display : m'.display ≠ m.display → answer = .ok .draw
  sound   : m'.sound ≠ m.sound → answer = .ok .sound
  stack   : m'.stack ≠ m.stack → answer = .ok .jump
  ram     : m'.ram ≠ m.ram → answer = .ok .next
  waiting : m.waiting = false → m'.waiting = true → answer = .ok .stall

theorem Tells.of_pc (m : Machine) (pc : UInt16) (answer : Except Fault Signal) :
    m.Tells { m with pc } answer := by
  constructor
  case waiting =>
    intro hn hw
    rw [hn] at hw
    contradiction
  all_goals exact fun h => absurd rfl h

theorem Tells.of_execute (h : m.execute noise i = .ok (signal, m')) : m.Tells m' (.ok signal) := by
  have f := Frame.of_execute h
  have hs : (.ok signal : Except Fault Signal) = .ok (m.signalOf i) :=
    congrArg _ <| signal_of_execute h
  constructor
  case display =>
    intro hd
    cases i
    case clear | draw => exact hs
    all_goals exact absurd (f.display (by simp) (by simp)) hd
  case sound =>
    intro hd
    cases i
    case setSound => exact hs
    all_goals exact absurd (f.sound (by simp)) hd
  case stack =>
    intro hd
    cases i
    case call | ret => exact hs
    all_goals exact absurd (f.stack (by simp) (by simp)) hd
  case ram =>
    intro hd
    cases i
    case digits | save => exact hs
    all_goals exact absurd (f.ram (by simp) (by simp)) hd
  case waiting =>
    intro hn hw
    cases i
    case waitKey =>
      simp only [execute] at h
      split at h <;> cases h
      · contradiction
      · rfl
    all_goals
      rw [f.waiting (by simp), hn] at hw
      contradiction

-- The program counter goes on or skips, unless the signal is that it jumped or stands still.
theorem Course.goes_on (c : m.Course i a) (hj : m.signalOf i ≠ .jump) (hs : m.signalOf i ≠ .stall) :
    a = m.pc ∨ (∃ c, i = .skip c) ∧ a = m.pc + 2 := by
  cases c
  case on | keep | wake           => exact .inl rfl
  case skip                       => exact .inr ⟨⟨_, rfl⟩, rfl⟩
  case jump | call | ret | jumpV0 => exact absurd rfl hj
  case stall h                    => exact absurd (if_pos h) hs

end Machine

namespace Emulator

variable {e : Emulator}

theorem tells_tick (e : Emulator) : e.machine.Tells e.tick.state.machine e.tick.answer := by
  have ht := e.ticks
  generalize e.tick.answer = a, e.tick.state = s at ht
  cases ht
  case lost | unknown | refused => exact .of_pc ..
  case executed hx =>
    have t := Machine.Tells.of_execute hx
    exact ⟨t.display, t.sound, t.stack, t.ram, t.waiting⟩

-- Where the program counter is after a tick that neither failed nor jumped nor stood still.
theorem pc_of_goes_on (ha : e.tick.answer = .ok signal) (hj : signal ≠ .jump)
    (hs : signal ≠ .stall) :
    e.tick.state.machine.pc.toNat = e.machine.pc.toNat + 2 ∨
    (∃ c, e.machine.instr? = some (.skip c)) ∧ signal = .next ∧
      e.tick.state.machine.pc.toNat = e.machine.pc.toNat + 4 := by
  have ⟨s, he, ht⟩ := ticks_of_answer ha
  rw [he]
  cases ht
  case executed i m hi hx =>
    have hp := Machine.pc_lt_of_instr? hi
    have hn := past_pc hp
    have hi' := Machine.signal_of_execute hx
    have c := Machine.Course.of_execute hx
    rcases c.goes_on (hi' ▸ hj) (hi' ▸ hs) with hc | ⟨⟨cond, rfl⟩, hc⟩
    case inl => exact .inl <| hc ▸ hn
    case inr =>
      refine .inr ⟨⟨cond, hi⟩, hi', ?_⟩
      simp only [Memory.size] at hp
      simp only [hc, UInt16.toNat_add, hn, UInt16.reduceToNat]
      omega

theorem answer_eq_stall_iff :
    e.tick.answer = .ok .stall ↔
      (∃ x, e.machine.instr? = some (.waitKey x)) ∧ ∀ k : Key, e.machine.keys.isDown k = false := by
  rw [stalls_iff]
  constructor
  case mp =>
    intro ⟨x, hs⟩
    refine ⟨⟨x, hs.left⟩, fun k => ?_⟩
    rw [hs.keys_eq, Keypad.isDown_released]
  case mpr =>
    intro ⟨⟨x, hi⟩, hk⟩
    refine ⟨x, hi, Keypad.first?_eq_none_iff.mpr ?_⟩
    apply Keypad.ext_isDown
    simpa using hk

end Emulator

namespace Moment

-- What a host draws that watches the answers of its ticks. It knows that a restart clears the
-- screen.
def redraw? (t : Moment) : Option Display :=
  match t.op, t.before.tick.answer with
  | .tick, .ok .draw => some t.after.machine.display
  | _,     _         => if t.restarts then some .blank else none

theorem display_after {t : Moment} (hs : t.op.Single) :
    t.after.machine.display = t.redraw?.getD t.before.machine.display := by
  obtain ⟨e, op⟩ := t
  cases op
  case tick =>
    simp only [redraw?]
    split
    · rfl
    · rename_i hn
      by_contra hd
      exact hn rfl <| e.tells_tick.display hd
  case run n => exact absurd rfl (hs n)
  case load image =>
    by_cases hr : (Moment.mk e (.load image)).restarts
    case pos =>
      have ⟨_, ha⟩ := after_of_restarts hr
      simp only [redraw?, hr, ha]
      rfl
    case neg =>
      rw [after_of_load rfl hr]
      simp [redraw?, hr]
  all_goals rfl

end Moment

-- The screen of a host that draws it anew only when it is told to.
def shown (start : Display) (h : List Moment) : Display :=
  (h.findSome? Moment.redraw?).getD start

namespace Emulator

-- What the host learns from the answer of the next tick.
structure TellsHost (e : Emulator) : Prop where
  parts  : e.machine.Tells e.tick.state.machine e.tick.answer
  course : ∀ signal, e.tick.answer = .ok signal → signal ≠ .jump → signal ≠ .stall →
    e.tick.state.machine.pc.toNat = e.machine.pc.toNat + 2 ∨
    (∃ c, e.machine.instr? = some (.skip c)) ∧ signal = .next ∧
      e.tick.state.machine.pc.toNat = e.machine.pc.toNat + 4
  stalls : e.tick.answer = .ok .stall ↔
    (∃ x, e.machine.instr? = some (.waitKey x)) ∧ ∀ k : Key, e.machine.keys.isDown k = false
  still  : e.tick.answer = .ok .stall →
    e.tick.state = { e with machine := { e.machine with waiting := true } }

-- No change goes unnoticed, and a host that draws only when it is told to shows the display.
theorem signals_tell_changes (e : Emulator) :
    e.TellsHost ∧
    ∀ ops, (e.performAll ops).machine.display = shown e.machine.display (e.history ops) := by
  constructor
  case left =>
    refine ⟨e.tells_tick, fun _ => pc_of_goes_on, answer_eq_stall_iff, fun ha => ?_⟩
    have ⟨_, hs⟩ := stalls_iff.mp ha
    rw [tick_of_stalls hs]
    rfl
  case right =>
    intro ops
    exact (leads_history e ops).eq_last_write (·.machine.display) Moment.redraw?
      fun t hs => t.display_after hs

-- A sprite is drawn, and a return fails.
theorem signals_tell_changes_drawn :
    let e := (create ⟨fun _ => 0, 0⟩).performAll [.load [0xD0, 0x05, 0x00, 0xEE]]
    let ops := [.tick, .countDown, .tick]
    e.tick.state.machine.display.lit (0, 0) ∧ e.tick.answer = .ok .draw ∧
    (e.performAll ops).machine.display = shown .blank (e.history ops) := by
  intro e ops
  have hb : e.machine.display = .blank := rfl
  have hl : e.tick.state.machine.display.lit (0, 0) := by decide +kernel
  have hd : e.tick.state.machine.display ≠ e.machine.display := by
    intro hd
    rw [hd, hb, Display.lit_blank] at hl
    exact Bool.false_ne_true hl
  have ⟨t, hs⟩ := signals_tell_changes e
  exact ⟨hl, t.parts.display hd, hb ▸ hs ops⟩

end Emulator
end ChipEight
