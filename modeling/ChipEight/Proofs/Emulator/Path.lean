import ChipEight.Proofs.Display.Masking
import ChipEight.Proofs.Emulator.Batching

namespace ChipEight.Emulator

-- Ticks that succeed and lead from one emulator to another.
structure Path (e : Emulator) (n : Nat) (e' : Emulator) : Prop where
  succeeds : e.Succeeds n
  after    : e.afterTicks n = e'

namespace Path

variable {e e' e'' : Emulator} {x y n : UInt8}

theorem refl (e : Emulator) : Path e 0 e :=
  ⟨nofun, rfl⟩

theorem trans (p : Path e k e') (p' : Path e' l e'') : Path e (k + l) e'' := by
  obtain ⟨hs, rfl⟩ := p
  obtain ⟨hs', rfl⟩ := p'
  refine ⟨fun j hj => ?_, afterTicks_add e k l⟩
  rcases Nat.lt_or_ge j k with h | h
  case inl => exact hs j h
  case inr =>
    have ⟨d, hd⟩ := Nat.exists_eq_add_of_le h
    rw [hd, afterTicks_add]
    exact hs' d <| by omega

theorem of_tick (ht : e.tick.answer = .ok signal ∧ e.tick.state = e') : Path e 1 e' := by
  refine ⟨fun j hj => ?_, ht.right⟩
  rw [Nat.lt_one_iff.mp hj]
  exact ⟨signal, ht.left⟩

theorem of_execute (hi : e.machine.instr? = some i)
    (hx : e.past.machine.execute e.noise i = .ok (signal, m)) :
    Path e 1 ⟨m, if i.drawsRandom then e.noise.advance else e.noise⟩ :=
  of_tick <| tick_of_execute hi hx

theorem of_skip (hi : e.machine.instr? = some (.skip c)) :
    Path e 1
      { e with
        machine := { e.machine with pc := e.machine.pc + if e.machine.holds c then 4 else 2 } } :=
  of_tick <| tick_skip hi

theorem of_draw (hi : e.machine.instr? = some (.draw x y n))
    (hs : Memory.Spans e.machine.index.toNat n.toNat) :
    Path e 1 ⟨e.past.machine.drawSprite x y n, e.noise⟩ :=
  of_tick <| tick_draw hi hs

theorem cycle (p : Path e 1 e) (k : Nat) : Path e k e := by
  induction k
  case zero => exact refl e
  case succ hi => exact hi.trans p

-- A path into a cycle can be made as long as one likes.
theorem settles (p : Path e k e') (p' : Path e' 1 e') (hl : k ≤ l) : Path e l e' := by
  have ⟨d, hd⟩ := Nat.exists_eq_add_of_le hl
  exact hd ▸ p.trans (p'.cycle d)

end Path
end ChipEight.Emulator
