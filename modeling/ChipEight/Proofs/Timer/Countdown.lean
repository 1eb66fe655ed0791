import ChipEight.Proofs.Emulator.History

namespace ChipEight

inductive Timer
  | delay
  | sound

namespace Timer

def setter (x : UInt8) : Timer → Instr
  | delay => .setDelay x
  | sound => .setSound x

-- The register that an instruction sets a timer from.
def source? : Timer → Instr → Option UInt8
  | delay, .setDelay x => some x
  | sound, .setSound x => some x
  | _,     _           => none

theorem source?_eq_some_iff {timer : Timer} : timer.source? i = some x ↔ i = timer.setter x := by
  cases timer <;> cases i <;> simp [source?, setter]

end Timer

namespace Machine

variable {m m' : Machine} {timer : Timer}

-- What is left on a timer.
def left (m : Machine) : Timer → UInt8
  | .delay => m.delay
  | .sound => m.sound

theorem execute_setter (h : m.execute noise (timer.setter x) = .ok (signal, m')) :
    m'.left timer = m.reg x := by
  cases timer <;> cases h <;> rfl

theorem Frame.left (f : m.Frame i m') (h : ∀ x, i ≠ timer.setter x) :
    m'.left timer = m.left timer := by
  cases timer
  case delay => exact f.delay h
  case sound => exact f.sound h

theorem left_countDown (m : Machine) (timer : Timer) :
    (m.countDown.left timer).toNat = (m.left timer).toNat - 1 := by
  have h (v : UInt8) : (if v = 0 then 0 else v - 1).toNat = v.toNat - 1 := by
    split
    case isTrue h => simp [h]
    case isFalse h =>
      have hv : v.toNat ≠ 0 := fun hv => h <| UInt8.toNat_inj.mp hv
      have hl : 1 ≤ v := UInt8.le_iff_toNat_le.mpr <| Nat.one_le_iff_ne_zero.mpr hv
      exact UInt8.toNat_sub_of_le _ _ hl
  cases timer <;> exact h _

end Machine

namespace Moment

variable {t : Moment} {timer : Timer}

-- The value that a timer is set to, if it is. A restart sets the timers to zero.
def sets? (timer : Timer) (t : Moment) : Option UInt8 :=
  if t.restarts then some 0 else t.executed?.bind timer.source? |>.map t.before.machine.reg

def counts (t : Moment) : Bool :=
  match t.op with
  | .countDown => true
  | _          => false

def beeps (t : Moment) : Prop :=
  (t.before.perform t.op).answer = .tone .beep

theorem sets?_cases (hs : t.sets? timer = some v) :
    v = 0 ∨ ∃ x, t.executed? = some (timer.setter x) ∧ t.before.machine.reg x = v := by
  rw [sets?] at hs
  split at hs
  case isTrue => exact .inl (Option.some.inj hs).symm
  case isFalse =>
    have ⟨x, hx, hv⟩ := Option.map_eq_some_iff.mp hs
    have ⟨i, hi, hx⟩ := Option.bind_eq_some_iff.mp hx
    exact .inr ⟨x, Timer.source?_eq_some_iff.mp hx ▸ hi, hv⟩

theorem sets?_of_executed? (hi : t.executed? = some (timer.setter x)) :
    t.sets? timer = some (t.before.machine.reg x) := by
  have hr : ¬t.restarts := by simp [restarts_of_executed? hi]
  rw [sets?, if_neg hr, hi, Option.bind_some, Timer.source?_eq_some_iff.mpr rfl, Option.map_some]

theorem left_after_tick (h : t.op = .tick) :
    t.after.machine.left timer = (t.sets? timer).getD (t.before.machine.left timer) := by
  have hr : ¬t.restarts := by simp [restarts, h]
  rw [sets?, if_neg hr]
  cases hi : t.executed?
  case none =>
    rcases after_of_fault h hi with ha | ha
    · rw [ha]; rfl
    · rw [ha]; cases timer <;> rfl
  case some i =>
    obtain ⟨_, hx⟩ := execute_of_executed? hi
    cases hs : timer.source? i
    case none =>
      have hn (x : UInt8) : i ≠ timer.setter x := fun hi => by
        simp [Timer.source?_eq_some_iff.mpr hi] at hs
      have hl := Machine.Frame.of_execute hx |>.left hn
      rw [hl, Option.bind_some, hs]
      cases timer <;> rfl
    case some x =>
      cases Timer.source?_eq_some_iff.mp hs
      rw [Machine.execute_setter hx, Option.bind_some, hs]
      rfl

theorem left_after (hs : t.op.Single) (timer : Timer) :
    (t.after.machine.left timer).toNat =
      match t.sets? timer with
      | some v => v.toNat
      | none   => (t.before.machine.left timer).toNat - if t.counts then 1 else 0 := by
  by_cases hr : t.restarts
  case pos =>
    have ⟨_, ha⟩ := after_of_restarts hr
    rw [ha, sets?, if_pos hr]
    cases timer <;> rfl
  case neg =>
    obtain ⟨e, op⟩ := t
    cases op
    case tick =>
      rw [left_after_tick rfl]
      cases sets? timer _ <;> rfl
    case run n => exact absurd rfl (hs n)
    case countDown =>
      exact Machine.left_countDown ..
    case switchKey | releaseKeys =>
      cases timer <;> rfl
    case reset => exact absurd rfl hr
    case load image =>
      have hn : (Moment.mk e (.load image)).sets? timer = none := by rw [sets?, if_neg hr]; rfl
      rw [after_of_load rfl hr, hn]
      rfl

end Moment

-- The value that a timer was set to last, zero if it never was.
def lastSet (timer : Timer) (h : List Moment) : Nat :=
  (h.findSome? (·.sets? timer)).elim 0 UInt8.toNat

-- How often the timers were counted down since a timer was set.
def countsSince (timer : Timer) (h : List Moment) : Nat :=
  h.takeWhile (·.sets? timer |>.isNone) |>.countP (·.counts)

theorem lastSet_cons (timer : Timer) (t : Moment) (h : List Moment) :
    lastSet timer (t :: h) = (t.sets? timer).elim (lastSet timer h) UInt8.toNat := by
  cases hs : t.sets? timer <;> simp [lastSet, hs]

theorem countsSince_cons (timer : Timer) (t : Moment) (h : List Moment) :
    countsSince timer (t :: h) =
      if (t.sets? timer).isSome then 0 else countsSince timer h + if t.counts then 1 else 0 := by
  cases hs : t.sets? timer <;> simp [countsSince, hs, List.countP_cons]

namespace Emulator

variable {noise : Noise} {e e' : Emulator} {timer : Timer}

theorem Leads.left_eq (l : Leads (create noise) h e) (timer : Timer) :
    (e.machine.left timer).toNat = lastSet timer h - countsSince timer h := by
  induction l
  case nil => cases timer <;> rfl
  case cons t _ hs hi =>
    rw [Moment.left_after hs, hi, lastSet_cons, countsSince_cons]
    cases t.sets? timer
    case none   => simp [Nat.sub_sub]
    case some v => simp

theorem tick_getDelay (hi : e.machine.instr? = some (.getDelay x)) :
    e.tick.answer = .ok .next ∧ e.tick.state.machine.reg x = e.machine.delay := by
  have hx : e.past.machine.execute e.noise (.getDelay x) = .ok _ := rfl
  have ⟨ha, hm⟩ := tick_of_execute hi hx
  refine ⟨ha, ?_⟩
  rw [hm]
  exact (Registers.read_write ..).trans (if_pos rfl)

theorem countDown_beeps_iff :
    e.countDown.answer = .beep ↔ (e.machine.left .sound).toNat = 1 := by
  simp [countDown, Machine.nextTone, Machine.left, ← UInt8.toNat_inj]

-- Only an instruction starts a timer that has run down.
theorem Leads.left_eq_zero (l : Leads e h e') (he : (e.machine.left timer).toNat = 0)
    (hn : ∀ t ∈ h, ∀ x, t.executed? ≠ some (timer.setter x)) :
    (e'.machine.left timer).toNat = 0 := by
  induction l
  case nil => exact he
  case cons t _ hs hi =>
    have ⟨ht, hn⟩ := List.forall_mem_cons.mp hn
    rw [Moment.left_after hs]
    cases hv : t.sets? timer
    case none => simp [hi hn]
    case some v =>
      rcases Moment.sets?_cases hv with rfl | ⟨x, hx, _⟩
      · rfl
      · exact absurd hx (ht x)

end Emulator

theorem Moment.beeps_iff {t : Moment} :
    t.beeps ↔ t.op = .countDown ∧ t.before.countDown.answer = .beep := by
  obtain ⟨e, op⟩ := t
  cases op <;> simp [beeps, Emulator.perform, Outcome.map]

theorem Moment.left_after_beep {t : Moment} (h : t.beeps) :
    (t.after.machine.left .sound).toNat = 0 := by
  have ⟨ho, hb⟩ := beeps_iff.mp h
  obtain ⟨e, op⟩ := t
  subst ho
  have hl := Emulator.countDown_beeps_iff.mp hb
  exact (Machine.left_countDown ..).trans (by rw [hl])

section

variable {timer : Timer} {t : Moment} {newer older : List Moment}

theorem lastSet_append (ht : t.sets? timer = some v) (hn : ∀ u ∈ newer, u.sets? timer = none) :
    lastSet timer (newer ++ t :: older) = v.toNat := by
  have hn : newer.findSome? (·.sets? timer) = none := List.findSome?_eq_none_iff.mpr hn
  simp [lastSet, hn, ht]

theorem countsSince_append (ht : t.sets? timer = some v)
    (hn : ∀ u ∈ newer, u.sets? timer = none) :
    countsSince timer (newer ++ t :: older) = newer.countP (·.counts) := by
  have hn : ∀ u ∈ newer, (u.sets? timer).isNone := fun u hu => by rw [hn u hu]; rfl
  rw [countsSince, List.takeWhile_append_of_pos hn, List.takeWhile_cons_of_neg (by simp [ht]),
    List.append_nil]

-- A timer that is about to run down was set by an instruction.
theorem countsSince_succ_eq_lastSet_iff {h : List Moment} :
    countsSince timer h + 1 = lastSet timer h ↔
      ∃ newer t older x, h = newer ++ t :: older ∧ t.executed? = some (timer.setter x) ∧
        (∀ u ∈ newer, u.sets? timer = none) ∧
        newer.countP (·.counts) + 1 = (t.before.machine.reg x).toNat := by
  constructor
  case mp =>
    intro hc
    cases hv : h.findSome? (·.sets? timer)
    case none => simp [lastSet, hv] at hc
    case some v =>
      have ⟨newer, t, older, hh, ht, hn⟩ := List.findSome?_eq_some_iff.mp hv
      rw [hh, countsSince_append ht hn, lastSet_append ht hn] at hc
      rcases Moment.sets?_cases ht with rfl | ⟨x, hx, hv⟩
      · simp at hc
      · exact ⟨newer, t, older, x, hh, hx, hn, hv ▸ hc⟩
  case mpr =>
    intro ⟨newer, t, older, x, hh, hx, hn, hc⟩
    have ht := Moment.sets?_of_executed? hx
    rw [hh, countsSince_append ht hn, lastSet_append ht hn, hc]

end

-- A beep is the last count of the sound timer's latest setting, so each setting beeps at most once.
theorem timers_count_down (noise : Noise) (ops : List Operation) :
    let e := (Emulator.create noise).performAll ops
    let h := (Emulator.create noise).history ops
    (∀ timer, (e.machine.left timer).toNat = lastSet timer h - countsSince timer h) ∧
    (∀ x, e.machine.instr? = some (.getDelay x) →
      e.tick.answer = .ok .next ∧
      (e.tick.state.machine.reg x).toNat = lastSet .delay h - countsSince .delay h) ∧
    (e.countDown.answer = .beep ↔
      ∃ newer t older x, h = newer ++ t :: older ∧ t.executed? = some (.setSound x) ∧
        (∀ u ∈ newer, u.sets? .sound = none) ∧
        newer.countP (·.counts) + 1 = (t.before.machine.reg x).toNat) ∧
    (∀ newer t between u older, h = newer ++ t :: (between ++ u :: older) → t.beeps → u.beeps →
      ∃ s ∈ between, ∃ x, s.executed? = some (.setSound x)) := by
  intro e h
  have l : Emulator.Leads (.create noise) h e := Emulator.leads_history _ ops
  refine ⟨l.left_eq, ?_, ?_, ?_⟩
  · intro x hi
    have ⟨ha, hr⟩ := Emulator.tick_getDelay hi
    exact ⟨ha, hr ▸ l.left_eq .delay⟩
  · rw [Emulator.countDown_beeps_iff, l.left_eq]
    have hc : lastSet .sound h - countsSince .sound h = 1 ↔
        countsSince .sound h + 1 = lastSet .sound h := by omega
    exact hc.trans countsSince_succ_eq_lastSet_iff
  · intro newer t between u older hh ht hu
    by_contra hc
    have hn : ∀ s ∈ between, ∀ x, s.executed? ≠ some (.setSound x) :=
      fun s hs x hx => hc ⟨s, hs, x, hx⟩
    have ⟨_, l, _⟩ := hh ▸ l |>.exists_of_append
    have ⟨_, l, l'⟩ := l.of_cons.left.exists_of_append
    have hz : (t.before.machine.left .sound).toNat = 0 := by
      refine l'.left_eq_zero ?_ hn
      rw [l.of_cons.right, Moment.left_after_beep hu]
    have ho := Emulator.countDown_beeps_iff.mp <| Moment.beeps_iff.mp ht |>.right
    omega

-- The sound timer is set to one twice, and beeps twice.
theorem timers_count_down_twice :
    let image := [0x60, 0x01, 0xF0, 0x18, 0xF0, 0x18]
    let e₁ := (Emulator.create ⟨fun _ => 0, 0⟩).performAll [.load image, .tick, .tick]
    let e₂ := e₁.countDown.state
    e₁.countDown.answer = .beep ∧ e₂.tick.state.countDown.answer = .beep ∧
    ∃ x, (Moment.mk e₂ .tick).executed? = some (.setSound x) := by
  intro image e₁ e₂
  have ⟨h₁, h₂⟩ : e₁.countDown.answer = .beep ∧ e₂.tick.state.countDown.answer = .beep := by
    decide +kernel
  have ⟨_, _, _, h⟩ := timers_count_down ⟨fun _ => 0, 0⟩
    [.load image, .tick, .tick, .countDown, .tick, .countDown]
  have ⟨s, hs, hx⟩ := h [] ⟨e₂.tick.state, .countDown⟩ [⟨e₂, .tick⟩] ⟨e₁, .countDown⟩ _ rfl
    (Moment.beeps_iff.mpr ⟨rfl, h₂⟩) (Moment.beeps_iff.mpr ⟨rfl, h₁⟩)
  rw [List.mem_singleton.mp hs] at hx
  exact ⟨h₁, h₂, hx⟩

end ChipEight
