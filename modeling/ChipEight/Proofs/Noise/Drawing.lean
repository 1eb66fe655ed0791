import ChipEight.Proofs.Host.Lockstep

namespace ChipEight

namespace Noise

-- The low byte of the word that comes after `m` others.
def upcoming (s : Noise) (m : Nat) : UInt8 :=
  (s.stream (s.position + m)).toUInt8

def skip (s : Noise) (m : Nat) : Noise :=
  { s with position := s.position + m }

theorem byte_skip (s : Noise) (m : Nat) : (s.skip m).byte = s.upcoming m :=
  rfl

theorem upcoming_skip (s : Noise) (m n : Nat) : (s.skip m).upcoming n = s.upcoming (m + n) := by
  simp only [upcoming, skip, Nat.add_assoc]

theorem skip_skip (s : Noise) (m n : Nat) : (s.skip m).skip n = s.skip (m + n) := by
  simp only [skip, Nat.add_assoc]

end Noise

namespace Emulator

variable {e : Emulator}

-- An instruction that asks for a random byte never fails.
theorem tick_random (hi : e.machine.instr? = some (.random x nn)) :
    e.tick.answer = .ok .next ∧
    e.tick.state =
      { machine := { e.machine.setReg x (nn &&& e.noise.byte) with pc := e.machine.pc + 2 }
        noise   := e.noise.advance } :=
  tick_of_execute hi rfl

end Emulator

namespace Moment

variable {t : Moment}

-- An instruction was executed that asks for a random byte.
def draws (t : Moment) : Bool :=
  match t.executed? with
  | some (.random ..) => true
  | _                 => false

theorem draws_of_executed? (hi : t.executed? = some i) : t.draws = i.drawsRandom := by
  simp only [draws, hi]
  cases i <;> rfl

theorem noise_after_tick (h : t.op = .tick) :
    t.after.noise = t.before.noise.skip t.draws.toNat := by
  cases hi : t.executed?
  case none =>
    have hd : t.draws = false := by simp [draws, hi]
    rw [hd]
    cases after_of_fault h hi
    case inl ha => rw [ha]; rfl
    case inr ha => rw [ha]; rfl
  case some i =>
    have ⟨_, hx⟩ := execute_of_executed? hi
    have ⟨_, _, hi'⟩ := executed?_eq_some_iff.mp hi
    have ⟨_, hs⟩ := Emulator.tick_of_execute hi' hx
    have ha : t.after = t.before.tick.state := by simp only [after, h]; rfl
    rw [ha, hs, draws_of_executed? hi]
    cases i.drawsRandom <;> rfl

theorem noise_after (hs : t.op.Single) : t.after.noise = t.before.noise.skip t.draws.toNat := by
  have ⟨e, op⟩ := t
  cases op
  case tick => exact noise_after_tick rfl
  case run n => exact absurd rfl (hs n)
  case load image =>
    by_cases hl : image.length ≤ Memory.programCapacity
    case pos => simp only [after, Emulator.perform, Emulator.load_of_fits hl]; rfl
    case neg => simp only [after, Emulator.perform, Emulator.load_of_oversized hl]; rfl
  all_goals rfl

end Moment

-- How often the random source was used.
def drawn (h : List Moment) : Nat :=
  h.countP (·.draws)

theorem drawn_cons (t : Moment) (h : List Moment) : drawn (t :: h) = drawn h + t.draws.toNat := by
  cases ht : t.draws <;> simp [drawn, ht]

namespace Emulator

variable {e e' : Emulator} {noise : Noise}

theorem Leads.noise_eq (l : Leads e h e') : e'.noise = e.noise.skip (drawn h) := by
  induction l
  case nil => rfl
  case cons t _ hs hi => rw [Moment.noise_after hs, hi, drawn_cons, Noise.skip_skip]

-- The history of an emulator that draws its random bytes from a source, in the order of the source.
structure DrawsFrom (noise : Noise) (h : List Moment) (e : Emulator) : Prop where
  leads  : Leads (create noise) h e
  source : e.noise = noise.skip (drawn h)
  before : ∀ newer t older, h = newer ++ t :: older → t.before.noise = noise.skip (drawn older)
  random : ∀ newer t older x nn,
    h = newer ++ t :: older → t.op = .tick → t.before.machine.instr? = some (.random x nn) →
    t.executed? = some (.random x nn) ∧
    t.after.machine =
      { t.before.machine.setReg x (nn &&& noise.upcoming (drawn older)) with
        pc := t.before.machine.pc + 2 }

theorem Leads.before_noise_eq (l : Leads e (newer ++ t :: older) e') :
    t.before.noise = e.noise.skip (drawn older) := by
  have ⟨_, l, _⟩ := l.exists_of_append
  exact l.of_cons.left.noise_eq

theorem Leads.drawsFrom (l : Leads (create noise) h e) : DrawsFrom noise h e where
  leads  := l
  source := l.noise_eq
  before := fun newer t older hh => (hh ▸ l).before_noise_eq
  random := fun newer t older x nn hh ho hi => by
    have hn : t.before.noise = noise.skip (drawn older) := (hh ▸ l).before_noise_eq
    have ⟨ha, hs⟩ := tick_random hi
    refine ⟨Moment.executed?_eq_some_iff.mpr ⟨ho, ⟨_, ha⟩, hi⟩, ?_⟩
    have ht : t.after = t.before.tick.state := by simp only [Moment.after, ho]; rfl
    rw [ht, hs, hn, Noise.byte_skip]

-- The random byte of an instruction is that of the word whose number is the number of draws before.
theorem random_bytes_in_order (noise : Noise) (ops : List Operation) (config : Config)
    (requests : List Request) :
    let h := Host.create config noise
    DrawsFrom noise ((create noise).history ops) ((create noise).performAll ops) ∧
    DrawsFrom noise ((h.history requests).flatMap Turn.moments) (h.serveAll requests).emulator := by
  intro h
  have l : Host.Leads h (h.history requests) (h.serveAll requests) := h.leads_history requests
  exact ⟨(leads_history _ ops).drawsFrom, l.emulator.drawsFrom⟩

-- Two random bytes are drawn, a return fails, and a program is loaded again.
theorem random_bytes_in_order_reload :
    let noise : Noise := ⟨fun i => .ofNat (0x197 + 7 * i), 0⟩
    let image := [0xC0, 0x0F, 0xC1, 0x00, 0x00, 0xEE]
    let ops := [.load image, .run 3, .load (.replicate 3585 0), .reset, .load image]
    let e := (create noise).performAll ops
    drawn ((create noise).history ops) = 2 ∧ e.tick.state.machine.reg 0 = 0x0F &&& 0xA5 := by
  intro noise image ops e
  have ⟨hd, hi⟩ : drawn ((create noise).history ops) = 2 ∧
      e.machine.instr? = some (.random 0 0x0F) := by
    decide +kernel
  have ⟨hv, _⟩ := random_bytes_in_order noise (ops ++ [.tick]) {} []
  have ⟨_, hm⟩ := hv.random [] ⟨e, .tick⟩ ((create noise).history ops) 0 0x0F
    (history_concat _ ops nofun) rfl hi
  have hm : e.tick.state.machine = _ := hm
  have hb : noise.upcoming 2 = 0xA5 := by decide
  refine ⟨hd, ?_⟩
  rw [hm, hd, hb]
  exact (Registers.read_write ..).trans (if_pos rfl)

end Emulator
end ChipEight
