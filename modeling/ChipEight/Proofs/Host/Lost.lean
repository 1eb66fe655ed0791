import ChipEight.Proofs.Host.Limit

namespace ChipEight

-- No whole word lies at the program counter.
def Machine.Lost (m : Machine) : Prop :=
  0xFFE < m.pc.toNat

instance (m : Machine) : Decidable m.Lost :=
  inferInstanceAs (Decidable (0xFFE < m.pc.toNat))

namespace Emulator

variable {e e' e'' : Emulator}

theorem tick_of_lost (hl : e.machine.Lost) :
    e.tick = { answer := .error (.outsideProgram e.machine.pc), state := e } := by
  have hf : e.machine.fetch = .error (.outsideProgram e.machine.pc) :=
    Machine.fetch_eq_error_iff.mpr ⟨Nat.succ_le_succ hl, rfl⟩
  simp only [tick, tickWith_eq, hf]

theorem run_of_lost (hl : e.machine.Lost) (hn : 0 < n) :
    e.run n = { answer := .error (.outsideProgram e.machine.pc), state := e } := by
  obtain ⟨n, rfl⟩ := Nat.exists_eq_add_one_of_ne_zero (Nat.ne_zero_of_lt hn)
  simp only [run, run.go, tick_of_lost hl]
  rfl

-- The emulators differ at most in what the clock and the player write.
def Drifts (e e' : Emulator) : Prop :=
  ∃ delay sound keys waiting, e' =
    { e with machine := { e.machine with delay, sound, keys, waiting } }

namespace Drifts

theorem refl (e : Emulator) : e.Drifts e :=
  ⟨_, _, _, _, rfl⟩

theorem trans (d : e.Drifts e') (d' : e'.Drifts e'') : e.Drifts e'' := by
  obtain ⟨_, _, _, _, rfl⟩ := d
  obtain ⟨_, _, _, _, rfl⟩ := d'
  exact ⟨_, _, _, _, rfl⟩

theorem pc (d : e.Drifts e') : e'.machine.pc = e.machine.pc := by
  obtain ⟨_, _, _, _, rfl⟩ := d
  rfl

theorem lost (d : e.Drifts e') (hl : e.machine.Lost) : e'.machine.Lost := by
  rwa [Machine.Lost, d.pc]

end Drifts
end Emulator

theorem Moment.drifts {t : Moment} (hs : t.op.Single) (hr : ¬t.restarts)
    (hl : t.before.machine.Lost) : t.before.Drifts t.after := by
  obtain ⟨e, op⟩ := t
  cases op
  case tick =>
    have ht : (Moment.mk e .tick).after = e :=
      congrArg Outcome.state <| Emulator.tick_of_lost hl
    rw [ht]
    exact .refl e
  case run n => exact absurd rfl (hs n)
  case reset => exact absurd rfl hr
  case load =>
    rw [after_of_load rfl hr]
    exact .refl e
  case countDown | switchKey | releaseKeys => exact ⟨_, _, _, _, rfl⟩

namespace Emulator

variable {e e' : Emulator}

theorem Leads.drifts (l : Leads e ts e') (hr : ∀ t ∈ ts, ¬t.restarts) (hl : e.machine.Lost) :
    e.Drifts e' := by
  induction l
  case nil => exact .refl e
  case cons hs hi =>
    have ⟨ht, hr⟩ := List.forall_mem_cons.mp hr
    have d := hi hr
    exact d.trans <| Moment.drifts hs ht <| d.lost hl

-- Ticks fail at the program counter `pc` and change nothing. A restart puts it back to the start of
-- the program.
structure StuckAt (e : Emulator) (pc : UInt16) : Prop where
  tick  : e.tick = { answer := .error (.outsideProgram pc), state := e }
  run   : ∀ n, 0 < n → e.run n = { answer := .error (.outsideProgram pc), state := e }
  reset : e.reset.state.machine.pc = 0x200
  load  : ∀ image, (e.load image).answer = .ok () → (e.load image).state.machine.pc = 0x200

theorem pc_of_load {image : List UInt8} (ha : (e.load image).answer = .ok ()) :
    (e.load image).state.machine.pc = 0x200 := by
  by_cases hl : image.length ≤ Memory.programCapacity
  case pos => rw [load_of_fits hl]; rfl
  case neg => simp [load_of_oversized hl] at ha

theorem stuckAt (hl : e.machine.Lost) : e.StuckAt e.machine.pc where
  tick      := tick_of_lost hl
  run _     := run_of_lost hl
  reset     := rfl
  load _    := pc_of_load

end Emulator

namespace Host

variable {h h' h'' : Host}

-- The hosts differ at most in what the player writes.
def Idles (h h' : Host) : Prop :=
  ∃ keys waiting, h' =
    { h with emulator.machine := { h.emulator.machine with keys, waiting } }

namespace Idles

theorem refl (h : Host) : h.Idles h :=
  ⟨_, _, rfl⟩

theorem trans (i : h.Idles h') (i' : h'.Idles h'') : h.Idles h'' := by
  obtain ⟨_, _, rfl⟩ := i
  obtain ⟨_, _, rfl⟩ := i'
  exact ⟨_, _, rfl⟩

theorem pc (i : h.Idles h') : h'.emulator.machine.pc = h.emulator.machine.pc := by
  obtain ⟨_, _, rfl⟩ := i
  rfl

end Idles

-- The script only holds and releases keys.
theorem idles_script (events : List KeyEvent) (h : Host) :
    h.Idles { h with emulator := script events h.emulator } := by
  induction events generalizing h
  case nil => exact .refl h
  case cons event events hi =>
    have i : h.Idles { h with emulator := h.emulator.switchKey event.key event.pressed } :=
      ⟨_, _, rfl⟩
    exact i.trans (hi _)

-- A frame of the host can only fail, as there is nothing to fetch for its first tick.
structure Strands (h : Host) : Prop where
  lost  : h.emulator.machine.Lost
  ticks : 0 < h.config.ticksPerFrame

namespace Strands

theorem of_idles (s : h.Strands) (i : h.Idles h') : h'.Strands := by
  obtain ⟨_, _, rfl⟩ := i
  exact ⟨s.lost, s.ticks⟩

theorem failsAt (s : h.Strands) : h.FailsAt 0 (.outsideProgram h.emulator.machine.pc) := by
  have i := idles_script h.events h
  have ht : (script h.events h.emulator).tick.answer = .error (.outsideProgram _) :=
    congrArg Outcome.answer <| Emulator.tick_of_lost (s.of_idles i).lost
  rw [i.pc] at ht
  exact ⟨s.ticks, nofun, ht, by simp⟩

theorem playFrame_answer (s : h.Strands) :
    h.playFrame.answer = .error (.outsideProgram h.emulator.machine.pc) :=
  playFrame_eq_error_iff.mpr ⟨0, s.failsAt⟩

theorem idles_playFrame (s : h.Strands) : h.Idles h.playFrame.state := by
  have i := idles_script h.events h
  have ht : h.midFrame 1 = script h.events h.emulator :=
    congrArg Outcome.state <| Emulator.tick_of_lost (s.of_idles i).lost
  rw [s.failsAt.playFrame_state, ht]
  exact i

theorem idles_turn {t : Turn} (s : t.before.Strands) (hr : ¬t.restarts) :
    t.before.Idles t.after := by
  cases t
  case frame h => exact s.idles_playFrame
  case load h image =>
    have hl : ¬image.length ≤ Memory.programCapacity := fun hl => by
      simp [Turn.restarts, load_of_fits hl, Except.isOk, Except.toBool] at hr
    have ho : (Turn.load h image).after = h := congrArg Outcome.state <| load_of_oversized hl
    rw [ho]
    exact .refl h

theorem idles (s : h.Strands) (l : Leads h ts h') (hr : ∀ t ∈ ts, ¬t.restarts) : h.Idles h' := by
  induction l
  case nil => exact .refl h
  case cons hi =>
    have ⟨ht, hr⟩ := List.forall_mem_cons.mp hr
    have i := hi hr
    exact i.trans <| (s.of_idles i).idles_turn ht

end Strands

-- Frames fail at the program counter `pc`, and so do runs that have a frame left.
structure StuckAt (h : Host) (pc : UInt16) : Prop where
  frame : h.playFrame.answer = .error (.outsideProgram pc)
  run   : ¬h.atLimit → ∀ budget, 0 < budget →
    h.runResult? budget = some (.error (.outsideProgram pc), h.playFrame.state)
  load  : ∀ image, (h.load image).answer = .ok () →
    (h.load image).state.emulator.machine.pc = 0x200

theorem Strands.stuckAt (s : h.Strands) : h.StuckAt h.emulator.machine.pc where
  frame := s.playFrame_answer
  run hl budget hb := by
    obtain ⟨budget, rfl⟩ := Nat.exists_eq_add_one_of_ne_zero (Nat.ne_zero_of_lt hb)
    exact runResult_of_error hl s.playFrame_answer budget
  load image ha := by
    rw [answer_load] at ha
    rw [emulator_load]
    exact Emulator.pc_of_load ha

end Host

-- Nothing but a restart brings back a machine that is lost. Until then no frame of a host succeeds,
-- whatever its policy, so not even its timers are counted.
theorem lost_for_good {e : Emulator} {h : Host} (hl : e.machine.Lost) (s : h.Strands) :
    (∀ ops, (∀ t ∈ e.history ops, ¬t.restarts) →
      e.Drifts (e.performAll ops) ∧ (e.performAll ops).StuckAt e.machine.pc) ∧
    (∀ requests, (∀ t ∈ h.history requests, ¬t.restarts) →
      h.Idles (h.serveAll requests) ∧
      (h.serveAll requests).StuckAt h.emulator.machine.pc) := by
  constructor
  case left =>
    intro ops hr
    have d : e.Drifts (e.performAll ops) := (e.leads_history ops).drifts hr hl
    exact ⟨d, d.pc ▸ Emulator.stuckAt (d.lost hl)⟩
  case right =>
    intro requests hr
    have i : h.Idles (h.serveAll requests) := s.idles (h.leads_history requests) hr
    exact ⟨i, i.pc ▸ (s.of_idles i).stuckAt⟩

-- The first frame jumps to the last byte of memory. Later ones press a key in vain, although the
-- host ignores what it can.
theorem lost_for_good_jump :
    let config : Config :=
      { onError := .ignore, ticksPerFrame := 1, maxFrames := some 9, keys := [⟨1, 7, true⟩] }
    let h := (Host.create config ⟨fun _ => 0, 0⟩).serveAll [.load [0x1F, 0xFF], .frame]
    let ops := [.tick, .run 3, .countDown, .switchKey 5 true, .releaseKeys]
    let requests := [.frame, .run 4, .load (.replicate 3585 0)]
    h.emulator.Drifts (h.emulator.performAll ops) ∧
    (h.emulator.performAll ops).StuckAt 0xFFF ∧
    h.Idles (h.serveAll requests) ∧ (h.serveAll requests).StuckAt 0xFFF ∧
    (h.serveAll requests).emulator.machine.keys.isDown 7 := by
  intro config h ops requests
  obtain ⟨hp, ht, hr, hr', hd⟩ : h.emulator.machine.pc = 0xFFF ∧ 0 < h.config.ticksPerFrame ∧
      (∀ t ∈ h.emulator.history ops, ¬t.restarts) ∧ (∀ t ∈ h.history requests, ¬t.restarts) ∧
      (h.serveAll requests).emulator.machine.keys.isDown 7 := by
    decide +kernel
  have hl : h.emulator.machine.Lost := by
    rw [Machine.Lost, hp]
    decide
  have ⟨he, hh⟩ := lost_for_good hl ⟨hl, ht⟩
  have ⟨d, s⟩ := he ops hr
  have ⟨i, s'⟩ := hh requests hr'
  rw [hp] at s s'
  exact ⟨d, s, i, s', hd⟩

end ChipEight
