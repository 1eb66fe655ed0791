import ChipEight.Proofs.Host.History

namespace ChipEight

namespace Policy

variable {policy : Policy}

theorem tolerates_iff : policy.tolerates f ↔ policy = .ignore ∧ ∃ w a, f = .unsupported w a := by
  cases policy <;> cases f <;> simp [tolerates]

-- Whether a batch goes on after a tick with this answer.
def goesOn (policy : Policy) : Except Fault Signal → Bool
  | .ok .stall => false
  | .ok _      => true
  | .error f   => policy.tolerates f

theorem goesOn_error : policy.goesOn (.error f) = policy.tolerates f :=
  rfl

end Policy

namespace Emulator

variable {e : Emulator}

-- A tick that finds no word at the program counter changes nothing, every other failure leaves the
-- program counter past the word.
theorem tick_state_of_error (ha : e.tick.answer = .error f) :
    e.tick.state = match f with | .outsideProgram _ => e | _ => e.past := by
  have ⟨s, hs, ht⟩ := ticks_of_answer ha
  rw [hs]
  cases ht
  case lost | unknown => rfl
  case refused hr => cases hr <;> rfl

end Emulator

namespace Host

section

variable {policy : Policy} {e : Emulator}

theorem batch_of_goesOn (decode : Decoder) (n : Nat) (records : Array Record)
    (hg : policy.goesOn (e.tickWith decode).answer) :
    ∃ records', batch decode policy (n + 1) e records =
      batch decode policy n (e.tickWith decode).state records' := by
  rw [batch]
  cases ha : (e.tickWith decode).answer
  case error f =>
    rw [ha, Policy.goesOn_error] at hg
    simp only
    rw [if_pos hg]
    exact ⟨_, rfl⟩
  case ok signal =>
    rw [ha] at hg
    cases signal
    case stall => contradiction
    all_goals exact ⟨_, rfl⟩

theorem batch_of_not_goesOn (decode : Decoder) (n : Nat) (records : Array Record)
    (hg : ¬policy.goesOn (e.tickWith decode).answer) :
    batch decode policy (n + 1) e records =
      { answer  := (e.tickWith decode).answer.map fun _ => ()
        state   := (e.tickWith decode).state
        records := records ++ (e.tickWith decode).records } := by
  rw [batch]
  cases ha : (e.tickWith decode).answer
  case error f =>
    rw [ha, Policy.goesOn_error] at hg
    simp only
    rw [if_neg hg]
    rfl
  case ok signal =>
    rw [ha] at hg
    cases signal
    case stall => rfl
    all_goals exact absurd rfl hg

end

-- A batch of `n` ticks goes on up to tick `k`, which fails with a fault that is not ignored.
structure BatchFails (policy : Policy) (n : Nat) (e : Emulator) (k : Nat) (f : Fault) : Prop where
  lt      : k < n
  earlier : ∀ j < k, policy.goesOn (e.afterTicks j).tick.answer
  answer  : (e.afterTicks k).tick.answer = .error f
  fatal   : ¬(policy = .ignore ∧ ∃ w a, f = .unsupported w a)

namespace BatchFails

variable {policy : Policy} {e : Emulator} {n k : Nat} {f : Fault}

theorem succ_iff (hg : policy.goesOn e.tick.answer) :
    BatchFails policy (n + 1) e (k + 1) f ↔ BatchFails policy n e.tick.state k f := by
  constructor
  case mp =>
    intro b
    refine ⟨Nat.lt_of_succ_lt_succ b.lt, fun j hj => ?_, b.answer, b.fatal⟩
    exact b.earlier (j + 1) (Nat.succ_lt_succ hj)
  case mpr =>
    intro b
    refine ⟨Nat.succ_lt_succ b.lt, fun j hj => ?_, b.answer, b.fatal⟩
    cases j
    case zero   => exact hg
    case succ j => exact b.earlier j (Nat.lt_of_succ_lt_succ hj)

theorem ne_zero (b : BatchFails policy n e k f) (hg : policy.goesOn e.tick.answer) : k ≠ 0 := by
  intro hk
  subst hk
  have ha : e.tick.answer = .error f := b.answer
  rw [ha, Policy.goesOn_error] at hg
  exact b.fatal <| Policy.tolerates_iff.mp hg

theorem eq_zero (b : BatchFails policy n e k f) (hg : ¬policy.goesOn e.tick.answer) : k = 0 := by
  by_contra hk
  exact hg <| b.earlier 0 (Nat.pos_of_ne_zero hk)

end BatchFails

theorem batch_eq_error_iff {policy : Policy} {e : Emulator} :
    (batch Instr.decode policy n e records).answer = .error f ↔ ∃ k, BatchFails policy n e k f := by
  induction n generalizing e records
  case zero =>
    constructor
    case mp  => nofun
    case mpr => exact fun ⟨_, b⟩ => absurd b.lt (Nat.not_lt_zero _)
  case succ n hi =>
    by_cases hg : policy.goesOn e.tick.answer
    case pos =>
      have ⟨_, hb⟩ := batch_of_goesOn Instr.decode n records hg
      rw [hb, hi]
      constructor
      case mp =>
        intro ⟨k, b⟩
        exact ⟨k + 1, BatchFails.succ_iff hg |>.mpr b⟩
      case mpr =>
        intro ⟨k, b⟩
        obtain ⟨k, rfl⟩ := Nat.exists_eq_succ_of_ne_zero (b.ne_zero hg)
        exact ⟨k, BatchFails.succ_iff hg |>.mp b⟩
    case neg =>
      have hb := batch_of_not_goesOn Instr.decode n records hg
      rw [hb, ← Emulator.tick]
      constructor
      case mp =>
        intro ha
        have ha : e.tick.answer = .error f := by
          cases hf : e.tick.answer <;> rw [hf] at ha <;> cases ha
          rfl
        rw [ha, Policy.goesOn_error, Policy.tolerates_iff] at hg
        exact ⟨0, Nat.succ_pos n, by simp, ha, hg⟩
      case mpr =>
        rintro ⟨k, b⟩
        have hk := b.eq_zero hg
        subst hk
        have ha : e.tick.answer = .error f := b.answer
        rw [ha]
        rfl

theorem BatchFails.state_eq {policy : Policy} {e : Emulator} (b : BatchFails policy n e k f) :
    (batch Instr.decode policy n e records).state = e.afterTicks (k + 1) := by
  induction n generalizing e k records
  case zero => exact absurd b.lt (Nat.not_lt_zero k)
  case succ n hi =>
    by_cases hg : policy.goesOn e.tick.answer
    case pos =>
      have ⟨_, hb⟩ := batch_of_goesOn Instr.decode n records hg
      obtain ⟨k, rfl⟩ := Nat.exists_eq_succ_of_ne_zero (b.ne_zero hg)
      rw [hb, ← Emulator.tick, hi (BatchFails.succ_iff hg |>.mp b)]
      rfl
    case neg =>
      have hb := batch_of_not_goesOn Instr.decode n records hg
      rw [hb, b.eq_zero hg]
      rfl

-- The emulator in a frame, after the events of the script and a number of ticks.
def midFrame (h : Host) (k : Nat) : Emulator :=
  (script h.events h.emulator).afterTicks k

theorem midFrame_succ (h : Host) (k : Nat) : h.midFrame (k + 1) = (h.midFrame k).tick.state :=
  Emulator.afterTicks_succ ..

-- Tick `k` of a frame is the one that the frame fails with.
def FailsAt (h : Host) : Nat → Fault → Prop :=
  BatchFails h.config.onError h.config.ticksPerFrame (script h.events h.emulator)

variable {h : Host}

theorem playFrame_eq_error_iff : h.playFrame.answer = .error f ↔ ∃ k, h.FailsAt k f := by
  have hb : h.ticked.answer = .error f ↔ ∃ k, h.FailsAt k f := batch_eq_error_iff
  rw [← hb]
  constructor
  case mp  => exact ticked_of_error
  case mpr =>
    intro ha
    rw [playFrame_of_error ha]

theorem FailsAt.playFrame_state (a : h.FailsAt k f) :
    h.playFrame.state = { h with emulator := h.midFrame (k + 1) } := by
  have ha := ticked_of_error <| playFrame_eq_error_iff.mpr ⟨k, a⟩
  have hs : h.ticked.state = h.midFrame (k + 1) := a.state_eq
  rw [playFrame_of_error ha, hs]

end Host
end ChipEight
