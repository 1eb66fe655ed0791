import ChipEight.Proofs.Host.Ignoring
import Mathlib.Algebra.Order.BigOperators.Group.List
import Mathlib.Algebra.Order.Group.Nat

namespace ChipEight

def Operation.isTick : Operation → Bool
  | tick => true
  | _    => false

theorem Emulator.countP_isTick_history {ops : List Operation} (hs : ∀ op ∈ ops, op.Single) :
    (history e ops).countP (·.op.isTick) = ops.countP (·.isTick) := by
  induction ops generalizing e
  case nil => rfl
  case cons op ops hi =>
    have ⟨ho, hs⟩ := List.forall_mem_cons.mp hs
    rw [history, moments_single ho, List.countP_append, hi hs, List.countP_cons, List.countP_cons]
    exact congrArg _ <| Nat.zero_add _

namespace Host

-- The host after a number of frames, whatever their answers are.
def afterFrames (h : Host) (n : Nat) : Host :=
  (·.playFrame.state)^[n] h

-- The next `n` frames succeed.
def PlaysOn (h : Host) (n : Nat) : Prop :=
  ∀ j < n, (h.afterFrames j).playFrame.answer = .ok ()

-- The next `k` frames succeed, and the one after them fails.
structure BreaksAt (h : Host) (k : Nat) (f : Fault) : Prop where
  earlier : h.PlaysOn k
  answer  : (h.afterFrames k).playFrame.answer = .error f

-- What a run comes to, if it is over after `budget` frames.
def runResult? (h : Host) (budget : Nat) : Option (Except Fault Unit × Host) :=
  (h.run? budget).map Outcome.result

def Ends (h : Host) (r : Except Fault Unit × Host) : Prop :=
  ∃ budget, h.runResult? budget = some r

variable {h h' : Host}

theorem maxFrames_playFrame (h : Host) :
    h.playFrame.state.config.maxFrames = h.config.maxFrames :=
  congrArg Config.maxFrames (Leads.frame h).config_eq

theorem frame_playFrame (h : Host) :
    h.playFrame.state.frame = h.frame + h.playFrame.answer.isOk.toNat :=
  (Turn.frame h).frame_after

theorem frame_playFrame_of_ok (ha : h.playFrame.answer = .ok ()) :
    h.playFrame.state.frame = h.frame + 1 := by
  rw [frame_playFrame, ha]
  rfl

theorem afterFrames_succ (h : Host) (n : Nat) :
    h.afterFrames (n + 1) = (h.afterFrames n).playFrame.state :=
  Function.iterate_succ_apply' ..

theorem maxFrames_afterFrames (h : Host) (n : Nat) :
    (h.afterFrames n).config.maxFrames = h.config.maxFrames := by
  induction n generalizing h
  case zero      => rfl
  case succ n hi => exact (hi _).trans h.maxFrames_playFrame

namespace PlaysOn

theorem mono (p : h.PlaysOn n) (hk : k ≤ n) : h.PlaysOn k :=
  fun j hj => p j <| Nat.lt_of_lt_of_le hj hk

theorem succ_iff :
    h.PlaysOn (n + 1) ↔ h.playFrame.answer = .ok () ∧ h.playFrame.state.PlaysOn n := by
  constructor
  case mp =>
    intro p
    exact ⟨p 0 n.succ_pos, fun j hj => p (j + 1) <| Nat.succ_lt_succ hj⟩
  case mpr =>
    rintro ⟨ha, p⟩ (_ | j) hj
    case zero => exact ha
    case succ => exact p j <| Nat.lt_of_succ_lt_succ hj

theorem frame (p : h.PlaysOn n) : (h.afterFrames n).frame = h.frame + n := by
  induction n generalizing h
  case zero => rfl
  case succ n hi =>
    have ⟨ha, p⟩ := succ_iff.mp p
    calc (h.afterFrames (n + 1)).frame
        = h.playFrame.state.frame + n := hi p
      _ = h.frame + 1 + n             := by rw [frame_playFrame_of_ok ha]
      _ = h.frame + (n + 1)           := by omega

end PlaysOn

theorem BreaksAt.frame (b : h.BreaksAt k f) : (h.afterFrames (k + 1)).frame = h.frame + k := by
  rw [afterFrames_succ, frame_playFrame, b.answer, b.earlier.frame]
  rfl

theorem playsOn_or_breaksAt (h : Host) (n : Nat) :
    h.PlaysOn n ∨ ∃ k < n, ∃ f, h.BreaksAt k f := by
  induction n
  case zero => exact .inl nofun
  case succ n hi =>
    rcases hi with p | ⟨k, hk, f, b⟩
    case inr => exact .inr ⟨k, Nat.lt_succ_of_lt hk, f, b⟩
    case inl =>
      cases ha : (h.afterFrames n).playFrame.answer
      case error f => exact .inr ⟨n, n.lt_succ_self, f, p, ha⟩
      case ok =>
        left
        intro j hj
        rcases Nat.lt_succ_iff_lt_or_eq.mp hj with hj | rfl
        · exact p j hj
        · exact ha

-- What a run comes to does not depend on what was on record before.
theorem result_go (budget : Nat) (h : Host) (records records' : Array Record) :
    (run?.go budget h records).map Outcome.result =
      (run?.go budget h records').map Outcome.result := by
  induction budget generalizing h records records'
  case zero =>
    unfold run?.go
    split <;> rfl
  case succ budget hi =>
    unfold run?.go
    split
    case isTrue => rfl
    case isFalse =>
      simp only
      cases h.playFrame.answer
      case error => rfl
      case ok    => exact hi ..

theorem runResult_of_atLimit (hl : h.atLimit) (budget : Nat) :
    h.runResult? budget = some (.ok (), h) := by
  rw [runResult?, run?, run?.go.eq_def, if_pos hl]
  rfl

theorem runResult_zero (hl : ¬h.atLimit) : h.runResult? 0 = none := by
  rw [runResult?, run?, run?.go, if_neg hl]
  rfl

theorem runResult_of_error (hl : ¬h.atLimit) (ha : h.playFrame.answer = .error f) (budget : Nat) :
    h.runResult? (budget + 1) = some (.error f, h.playFrame.state) := by
  rw [runResult?, run?, run?.go, if_neg hl]
  simp only [ha]
  rfl

theorem runResult_of_ok (hl : ¬h.atLimit) (ha : h.playFrame.answer = .ok ()) (budget : Nat) :
    h.runResult? (budget + 1) = h.playFrame.state.runResult? budget := by
  rw [runResult?, run?, run?.go, if_neg hl]
  simp only [ha]
  exact result_go ..

-- A run that is over stays as it is with a larger budget.
theorem runResult_add (hr : h.runResult? budget = some r) (extra : Nat) :
    h.runResult? (budget + extra) = some r := by
  induction budget generalizing h
  case zero =>
    by_cases hl : h.atLimit
    case pos => rwa [runResult_of_atLimit hl] at hr ⊢
    case neg => simp [runResult_zero hl] at hr
  case succ budget hi =>
    rw [Nat.succ_add]
    by_cases hl : h.atLimit
    case pos => rwa [runResult_of_atLimit hl] at hr ⊢
    case neg =>
      cases ha : h.playFrame.answer
      case error => rwa [runResult_of_error hl ha] at hr ⊢
      case ok    =>
        rw [runResult_of_ok hl ha] at hr ⊢
        exact hi hr

theorem runResult_mono (hr : h.runResult? budget = some r) (hb : budget ≤ budget') :
    h.runResult? budget' = some r := by
  obtain ⟨extra, rfl⟩ := Nat.exists_eq_add_of_le hb
  exact runResult_add hr extra

theorem Ends.unique (e : h.Ends r) (e' : h.Ends r') : r = r' := by
  obtain ⟨budget, hr⟩ := e
  obtain ⟨budget', hr'⟩ := e'
  have hr := runResult_mono hr <| Nat.le_max_left budget budget'
  have hr' := runResult_mono hr' <| Nat.le_max_right budget budget'
  exact Option.some.inj <| hr.symm.trans hr'

-- Without a limit there is no way for a run to succeed.
theorem not_ends_ok (hm : h.config.maxFrames = none) : ¬h.Ends (.ok (), h') := by
  rintro ⟨budget, hr⟩
  have hl {h : Host} (hm : h.config.maxFrames = none) : ¬h.atLimit := by simp [atLimit, hm]
  induction budget generalizing h
  case zero => simp [runResult_zero (hl hm)] at hr
  case succ budget hi =>
    cases ha : h.playFrame.answer
    case error => simp [runResult_of_error (hl hm) ha] at hr
    case ok    =>
      rw [runResult_of_ok (hl hm) ha] at hr
      exact hi (h.maxFrames_playFrame.trans hm) hr

section

variable {m : Nat}

theorem atLimit_iff (hm : h.config.maxFrames = some m) : h.atLimit ↔ m ≤ h.frame := by
  simp [atLimit, hm]

-- The frames that are played before a run are as good as those of the run.
theorem runResult_split (hm : h.config.maxFrames = some m) (hn : n ≤ m - h.frame)
    (p : h.PlaysOn n) (budget : Nat) :
    h.runResult? (n + budget) = (h.afterFrames n).runResult? budget := by
  induction n generalizing h
  case zero =>
    rw [Nat.zero_add]
    rfl
  case succ n hi =>
    have ⟨ha, p⟩ := PlaysOn.succ_iff.mp p
    have hf := frame_playFrame_of_ok ha
    have hl : ¬h.atLimit := by
      rw [atLimit_iff hm]
      omega
    rw [Nat.succ_add, runResult_of_ok hl ha]
    exact hi (h.maxFrames_playFrame.trans hm) (by omega) p

theorem runResult_of_playsOn (hm : h.config.maxFrames = some m) (p : h.PlaysOn (m - h.frame)) :
    h.runResult? (m - h.frame) = some (.ok (), h.afterFrames (m - h.frame)) := by
  have hl : (h.afterFrames (m - h.frame)).atLimit := by
    rw [atLimit_iff <| (h.maxFrames_afterFrames _).trans hm, p.frame]
    omega
  exact (runResult_split hm (Nat.le_refl _) p 0).trans <| runResult_of_atLimit hl 0

theorem runResult_of_breaksAt (hm : h.config.maxFrames = some m) (hk : k < m - h.frame)
    (b : h.BreaksAt k f) : h.runResult? (k + 1) = some (.error f, h.afterFrames (k + 1)) := by
  have hl : ¬(h.afterFrames k).atLimit := by
    rw [atLimit_iff <| (h.maxFrames_afterFrames _).trans hm, b.earlier.frame]
    omega
  rw [runResult_split hm (Nat.le_of_lt hk) b.earlier, runResult_of_error hl b.answer,
    afterFrames_succ]

theorem ends_iff (hm : h.config.maxFrames = some m) :
    h.Ends r ↔
      h.PlaysOn (m - h.frame) ∧ r = (.ok (), h.afterFrames (m - h.frame)) ∨
      ∃ k < m - h.frame, ∃ f, h.BreaksAt k f ∧ r = (.error f, h.afterFrames (k + 1)) := by
  constructor
  case mp =>
    intro e
    rcases h.playsOn_or_breaksAt (m - h.frame) with p | ⟨k, hk, f, b⟩
    · exact .inl ⟨p, e.unique ⟨_, runResult_of_playsOn hm p⟩⟩
    · exact .inr ⟨k, hk, f, b, e.unique ⟨_, runResult_of_breaksAt hm hk b⟩⟩
  case mpr =>
    rintro (⟨p, rfl⟩ | ⟨k, hk, f, b, rfl⟩)
    · exact ⟨_, runResult_of_playsOn hm p⟩
    · exact ⟨_, runResult_of_breaksAt hm hk b⟩

theorem runResult_isSome (hm : h.config.maxFrames = some m) (hb : m - h.frame ≤ budget) :
    ∃ r, h.runResult? budget = some r := by
  rcases h.playsOn_or_breaksAt (m - h.frame) with p | ⟨k, hk, f, b⟩
  · exact ⟨_, runResult_mono (runResult_of_playsOn hm p) hb⟩
  · exact ⟨_, runResult_mono (runResult_of_breaksAt hm hk b) (by omega)⟩

theorem length_runTurns_le (hm : h.config.maxFrames = some m) (budget : Nat) :
    (runTurns budget h).length ≤ m - h.frame := by
  induction budget generalizing h
  case zero => exact Nat.zero_le _
  case succ budget hi =>
    by_cases hl : h.atLimit
    case pos =>
      rw [runTurns, if_pos hl]
      exact Nat.zero_le _
    case neg =>
      rw [runTurns, if_neg hl]
      rw [atLimit_iff hm] at hl
      cases ha : h.playFrame.answer
      case error =>
        rw [List.length_singleton]
        omega
      case ok =>
        have hi := hi <| h.maxFrames_playFrame.trans hm
        have hf := frame_playFrame_of_ok ha
        rw [List.length_append, List.length_singleton]
        omega

end

theorem batchTicks_le (policy : Policy) (n : Nat) (e : Emulator) : batchTicks policy n e ≤ n := by
  induction n generalizing e
  case zero => exact Nat.le_refl 0
  case succ n hi =>
    rw [batchTicks]
    split
    · exact n.succ_pos
    · exact Nat.succ_le_succ (hi _)
    · split
      · exact Nat.succ_le_succ (hi _)
      · exact n.succ_pos

theorem countP_isTick_operations (h : Host) :
    h.operations.countP (·.isTick) =
      batchTicks h.config.onError h.config.ticksPerFrame (script h.events h.emulator) := by
  have hs : (h.events.map fun event => Operation.switchKey event.key event.pressed).countP
      (·.isTick) = 0 := by
    simp [List.countP_map, Function.comp_def, Operation.isTick]
  have hc (b : Bool) : (if b then [Operation.countDown] else []).countP (·.isTick) = 0 := by
    cases b <;> rfl
  have ht (n : Nat) : (List.replicate n Operation.tick).countP (·.isTick) = n := by
    simp [List.countP_replicate, Operation.isTick]
  rw [operations, List.countP_append, List.countP_append, hs, ht, hc, Nat.zero_add, Nat.add_zero]

theorem single_operations (h : Host) : ∀ op ∈ h.operations, op.Single := by
  intro op ho
  simp only [operations, List.mem_append] at ho
  rcases ho with ho | ho | ho
  · obtain ⟨_, _, rfl⟩ := List.mem_map.mp ho
    simp [Operation.Single]
  · rw [List.eq_of_mem_replicate ho]
    simp [Operation.Single]
  · split at ho <;> simp at ho
    simp [ho, Operation.Single]

theorem countP_isTick_le (t : Turn) :
    t.moments.countP (·.op.isTick) ≤ t.before.config.ticksPerFrame := by
  cases t
  case load => exact Nat.zero_le _
  case frame h =>
    calc (Turn.frame h).moments.countP (·.op.isTick)
        = h.operations.countP (·.isTick)  := Emulator.countP_isTick_history h.single_operations
      _ = batchTicks ..                   := h.countP_isTick_operations
      _ ≤ h.config.ticksPerFrame          := batchTicks_le ..

theorem countP_isTick_run (h : Host) (budget : Nat) :
    ((runTurns budget h).flatMap Turn.moments).countP (·.op.isTick) ≤
      (runTurns budget h).length * h.config.ticksPerFrame := by
  have ht : ∀ t ∈ runTurns budget h,
      t.moments.countP (·.op.isTick) ≤ h.config.ticksPerFrame := by
    intro t ht
    have ⟨_, l⟩ := (leads_run h budget #[]).exists_of_mem ht
    have hc : t.before.config = h.config := l.config_eq
    rw [← hc]
    exact countP_isTick_le t
  calc ((runTurns budget h).flatMap Turn.moments).countP (·.op.isTick)
      = ((runTurns budget h).map fun t => t.moments.countP (·.op.isTick)).sum :=
          List.countP_flatMap
    _ ≤ ((runTurns budget h).map _).length • h.config.ticksPerFrame :=
          List.sum_le_card_nsmul _ _ <| List.forall_mem_map.mpr ht
    _ = (runTurns budget h).length * h.config.ticksPerFrame := by
          rw [List.length_map]
          rfl

-- A run of a host with a limit of `m` frames ends within that many frames less those it counted
-- before, and it comes to the same if some of these are played on their own first.
structure RunsUpTo (h : Host) (m : Nat) : Prop where
  ends           : ∃! r, h.Ends r
  finished       : ∀ budget, m - h.frame ≤ budget → ∃ r, h.runResult? budget = some r
  frames         : ∀ budget, (h.turns (.run budget)).length ≤ m - h.frame
  ticks          : ∀ budget,
    ((h.turns (.run budget)).flatMap Turn.moments).countP (·.op.isTick) ≤
      (m - h.frame) * h.config.ticksPerFrame
  ok             : ∀ h', h.Ends (.ok (), h') ↔
    h.PlaysOn (m - h.frame) ∧ h' = h.afterFrames (m - h.frame)
  error          : ∀ f h', h.Ends (.error f, h') ↔
    ∃ k < m - h.frame, h.BreaksAt k f ∧ h' = h.afterFrames (k + 1)
  frame_of_ok    : ∀ h', h.Ends (.ok (), h') → h'.frame = max h.frame m
  frame_of_error : ∀ f h', h.Ends (.error f, h') → h'.frame < m
  split          : ∀ n ≤ m - h.frame, h.PlaysOn n → ∀ r, (h.afterFrames n).Ends r ↔ h.Ends r

theorem runsUpTo {m : Nat} (hm : h.config.maxFrames = some m) : h.RunsUpTo m where
  ends := by
    have ⟨r, hr⟩ := runResult_isSome hm (Nat.le_refl _)
    exact ⟨r, ⟨_, hr⟩, fun _ e => e.unique ⟨_, hr⟩⟩
  finished budget hb := runResult_isSome hm hb
  frames := length_runTurns_le hm
  ticks budget :=
    (h.countP_isTick_run budget).trans <| Nat.mul_le_mul_right _ <| length_runTurns_le hm budget
  ok h' := by simp [ends_iff hm]
  error f h' := by simp [ends_iff hm]
  frame_of_ok h' e := by
    rcases (ends_iff hm).mp e with ⟨p, hr⟩ | ⟨_, _, _, _, hr⟩ <;> cases hr
    rw [p.frame]
    omega
  frame_of_error f h' e := by
    rcases (ends_iff hm).mp e with ⟨p, hr⟩ | ⟨k, hk, _, b, hr⟩ <;> cases hr
    rw [b.frame]
    omega
  split n hn p r := by
    constructor
    case mp =>
      rintro ⟨budget, hr⟩
      exact ⟨n + budget, runResult_split hm hn p budget |>.trans hr⟩
    case mpr =>
      rintro ⟨budget, hr⟩
      refine ⟨budget, ?_⟩
      rw [← runResult_split hm hn p]
      exact runResult_mono hr <| Nat.le_add_left budget n

-- Without a limit a run ends with a fault or not at all.
theorem limit_bounds_run (h : Host) :
    (∀ m, h.config.maxFrames = some m → h.RunsUpTo m) ∧
    (h.config.maxFrames = none → ∀ h', ¬h.Ends (.ok (), h')) :=
  ⟨fun _ hm => runsUpTo hm, fun hm _ => not_ends_ok hm⟩

-- A jump to itself goes on up to the limit, with or without a frame in between, and for ever if
-- there is none. A return that was never called for ends the run in the first frame.
theorem limit_bounds_run_loop :
    let config : Config := { ticksPerFrame := 2, maxFrames := some 3 }
    let new := create config ⟨fun _ => 0, 0⟩
    let h₁ := new.serveAll [.load [0x12, 0x00], .frame]
    let h₂ := new.serveAll [.load [0x00, 0xEE]]
    let h₃ := (create { config with maxFrames := none } ⟨fun _ => 0, 0⟩).serveAll
      [.load [0x12, 0x00], .frame]
    h₁.RunsUpTo 3 ∧ h₁.frame = 1 ∧ h₁.Ends (.ok (), h₁.afterFrames 2) ∧
    h₁.playFrame.state.Ends (.ok (), h₁.afterFrames 2) ∧
    h₂.Ends (.error (.stackUnderflow 0x200), h₂.playFrame.state) ∧
    ∀ h', ¬h₃.Ends (.ok (), h') := by
  intro config new h₁ h₂ h₃
  have ⟨hf, p, hf', ha⟩ : h₁.frame = 1 ∧
      (∀ j < 2, (h₁.afterFrames j).playFrame.answer = .ok ()) ∧ h₂.frame = 0 ∧
      h₂.playFrame.answer = .error (.stackUnderflow 0x200) := by
    decide +kernel
  have hm (new : Host) (rs : List Request) :
      (new.serveAll rs).config.maxFrames = new.config.maxFrames :=
    congrArg Config.maxFrames (new.leads_history rs).config_eq
  have ⟨hb₁, _⟩ := limit_bounds_run h₁
  have ⟨hb₂, _⟩ := limit_bounds_run h₂
  have ⟨_, hn⟩ := limit_bounds_run h₃
  have b : h₁.RunsUpTo 3 := hb₁ 3 (hm new _)
  have e : h₁.Ends (.ok (), h₁.afterFrames 2) := (b.ok _).mpr ⟨by rwa [hf], by rw [hf]⟩
  refine ⟨b, hf, e, ?_, ?_, hn (hm _ _)⟩
  · exact (b.split 1 (by rw [hf]; decide) (PlaysOn.mono p (by decide)) _).mpr e
  · exact (hb₂ 3 (hm new _)).error _ _ |>.mpr ⟨0, by rw [hf']; decide, ⟨nofun, ha⟩, rfl⟩

end Host
end ChipEight
