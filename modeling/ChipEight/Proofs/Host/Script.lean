import ChipEight.Proofs.Host.History

namespace ChipEight

namespace Keypad

def play (p : Keypad) (events : List KeyEvent) : Keypad :=
  events.foldl (fun p event => p.set event.key event.pressed) p

-- The last event for a key decides.
theorem isDown_play (p : Keypad) (events : List KeyEvent) (k : Key) :
    (p.play events).isDown k =
      ((events.reverse.find? (·.key == k)).map (·.pressed)).getD (p.isDown k) := by
  induction events generalizing p
  case nil => rfl
  case cons event events hi =>
    rw [play, List.foldl_cons, ← play, hi, isDown_set, List.reverse_cons, List.find?_append]
    cases events.reverse.find? (·.key == k)
    case some => rfl
    case none =>
      by_cases h : event.key = k
      · simp [h]
      · simp [h, Fin.val_inj, Ne.symm h]

theorem play_play (p : Keypad) (events : List KeyEvent) :
    (p.play events).play events = p.play events := by
  apply ext_isDown
  intro k
  rw [isDown_play, isDown_play]
  cases events.reverse.find? (·.key == k) <;> rfl

end Keypad

namespace Config

variable {c : Config}

-- Of the events for `k` up to frame `f` the one at place `i` is the last, by frame and by place.
structure IsLast (c : Config) (k : Key) (f i : Nat) (event : KeyEvent) : Prop where
  get  : c.keys[i]? = some event
  key  : event.key = k
  due  : event.frame ≤ f
  last : ∀ j other, c.keys[j]? = some other → other.key = k → other.frame ≤ f →
    other.frame < event.frame ∨ other.frame = event.frame ∧ j ≤ i

def Holds (c : Config) (f : Nat) (k : Key) : Prop :=
  ∃ i event, c.IsLast k f i event ∧ event.pressed

theorem IsLast.unique (l : c.IsLast k f i event) (l' : c.IsLast k f j event') : event = event' := by
  have h  := l.last _ _ l'.get l'.key l'.due
  have h' := l'.last _ _ l.get l.key l.due
  have : i = j := by omega
  subst this
  exact Option.some.inj <| l.get.symm.trans l'.get

theorem IsLast.holds_iff (l : c.IsLast k f i event) : c.Holds f k ↔ event.pressed := by
  constructor
  case mp =>
    intro ⟨_, _, l', hp⟩
    exact l.unique l' ▸ hp
  case mpr => exact fun hp => ⟨i, event, l, hp⟩

theorem mem_eventsIn : event ∈ c.eventsIn f ↔ event ∈ c.keys ∧ event.frame = f := by
  rw [eventsIn, List.mem_filter, beq_iff_eq]

theorem exists_isLast (h : (c.eventsIn f).reverse.find? (·.key == k) = some event) :
    ∃ i, c.IsLast k f i event := by
  rw [eventsIn, ← List.filter_reverse, List.find?_filter, List.find?_eq_some_iff_append] at h
  obtain ⟨hp, later, earlier, hr, hn⟩ := h
  simp only [beq_iff_eq, decide_eq_true_eq] at hp
  have hk : c.keys = earlier.reverse ++ event :: later.reverse := by
    rw [← List.reverse_reverse c.keys, hr]
    simp
  refine ⟨earlier.length, by simp [hk], hp.right, Nat.le_of_eq hp.left, ?_⟩
  intro j other ho hok hof
  by_cases hj : j ≤ earlier.length
  case pos => omega
  case neg =>
    obtain ⟨m, rfl⟩ : ∃ m, j = earlier.reverse.length + (m + 1) :=
      ⟨j - earlier.length - 1, by simp; omega⟩
    rw [hk, List.getElem?_append_right (Nat.le_add_right ..), Nat.add_sub_cancel_left,
      List.getElem?_cons_succ] at ho
    have hn := hn other <| List.mem_reverse.mp <| List.mem_of_getElem? ho
    have hf : other.frame ≠ f := by simpa [hok] using hn
    omega

-- The events of a frame for other keys do not matter.
theorem IsLast.succ_iff (h : ∀ event ∈ c.eventsIn (f + 1), event.key ≠ k) :
    c.IsLast k (f + 1) i event ↔ c.IsLast k f i event := by
  have hd {j : Nat} {other : KeyEvent} (ho : c.keys[j]? = some other) (hk : other.key = k) :
      other.frame ≤ f + 1 ↔ other.frame ≤ f := by
    have hf : other.frame ≠ f + 1 := fun hf =>
      h other (mem_eventsIn.mpr ⟨List.mem_of_getElem? ho, hf⟩) hk
    omega
  constructor
  case mp =>
    intro ⟨hg, hk, hf, hl⟩
    refine ⟨hg, hk, hd hg hk |>.mp hf, ?_⟩
    intro j other ho hok hof
    exact hl j other ho hok <| hd ho hok |>.mpr hof
  case mpr =>
    intro ⟨hg, hk, hf, hl⟩
    refine ⟨hg, hk, hd hg hk |>.mpr hf, ?_⟩
    intro j other ho hok hof
    exact hl j other ho hok <| hd ho hok |>.mp hof

theorem not_holds_zero (h : ∀ event ∈ c.eventsIn 0, event.key ≠ k) : ¬c.Holds 0 k := by
  intro ⟨_, event, l, _⟩
  exact h event (mem_eventsIn.mpr ⟨List.mem_of_getElem? l.get, Nat.le_zero.mp l.due⟩) l.key

theorem isDown_play_eventsIn {p : Keypad}
    (hn : (∀ event ∈ c.eventsIn f, event.key ≠ k) → (p.isDown k ↔ c.Holds f k)) :
    (p.play (c.eventsIn f)).isDown k ↔ c.Holds f k := by
  rw [Keypad.isDown_play]
  cases he : (c.eventsIn f).reverse.find? (·.key == k)
  case none => exact hn <| by simpa using he
  case some event =>
    have ⟨_, l⟩ := exists_isLast he
    exact l.holds_iff.symm

-- The keys after the events of the frames before frame `n`.
def keypad (c : Config) : Nat → Keypad
  | 0     => .released
  | n + 1 => (c.keypad n).play (c.eventsIn n)

theorem isDown_keypad (c : Config) (f : Nat) (k : Key) :
    (c.keypad (f + 1)).isDown k ↔ c.Holds f k := by
  induction f
  case zero =>
    exact isDown_play_eventsIn fun hn => iff_of_false (by simp [keypad]) (not_holds_zero hn)
  case succ f hi =>
    exact isDown_play_eventsIn fun hn => by simp only [hi, Holds, IsLast.succ_iff hn]

end Config

namespace Emulator

theorem keys_ticks (n : Nat) (e : Emulator) :
    (e.performAll (.replicate n .tick)).machine.keys = e.machine.keys := by
  induction n generalizing e
  case zero => rfl
  case succ n hi => exact (hi _).trans e.keys_tick

theorem keys_of_mem_ticks (ht : t ∈ history e (.replicate n .tick)) :
    t.before.machine.keys = e.machine.keys := by
  induction n generalizing e
  case zero => contradiction
  case succ n hi =>
    rcases List.mem_append.mp ht with ht | ht
    · exact (hi ht).trans e.keys_tick
    · rw [List.mem_singleton.mp ht]

end Emulator

namespace Host

variable {h h' : Host}

theorem keys_script (events : List KeyEvent) (e : Emulator) :
    (script events e).machine.keys = e.machine.keys.play events := by
  induction events generalizing e
  case nil => rfl
  case cons event events hi => exact hi ..

theorem keys_playFrame (h : Host) :
    h.playFrame.state.emulator.machine.keys = h.emulator.machine.keys.play h.events := by
  have hk : h.ticked.state.machine.keys = h.emulator.machine.keys.play h.events := by
    rw [ticked, batch_state, Emulator.keys_ticks, keys_script]
  rw [← hk]
  cases ha : h.ticked.answer
  case error => rw [playFrame_of_error ha]
  case ok    => rw [playFrame_of_ok ha]; rfl

-- The keys that the ticks of a frame see.
theorem keys_of_tick (ht : t ∈ h.emulator.history h.operations) (ho : t.op = .tick) :
    t.before.machine.keys = h.emulator.machine.keys.play h.events := by
  simp only [operations, Emulator.history_append, ← script_eq_performAll, List.mem_append] at ht
  rcases ht with (ht | ht) | ht
  · have hc := Emulator.op_mem_of_mem_history (by split <;> simp [Operation.Single]) ht
    split at hc <;> simp [ho] at hc
  · rw [Emulator.keys_of_mem_ticks ht, keys_script]
  · have hc := Emulator.op_mem_of_mem_history (by simp [Operation.Single]) ht
    simp [ho] at hc

-- The events of all frames before the current one were applied, and perhaps those of the current
-- one in an attempt that failed.
def OnScript (h : Host) : Prop :=
  h.emulator.machine.keys = h.config.keypad h.frame ∨
  h.emulator.machine.keys = h.config.keypad (h.frame + 1)

theorem OnScript.play_events (hs : h.OnScript) :
    h.emulator.machine.keys.play h.events = h.config.keypad (h.frame + 1) := by
  rcases hs with hs | hs
  · rw [hs]; rfl
  · rw [hs]; exact Keypad.play_play ..

theorem OnScript.playFrame (hs : h.OnScript) : h.playFrame.state.OnScript := by
  have hk := h.keys_playFrame.trans hs.play_events
  cases ha : h.ticked.answer
  case error =>
    rw [playFrame_of_error ha] at hk ⊢
    exact .inr hk
  case ok =>
    rw [playFrame_of_ok ha] at hk ⊢
    exact .inl hk

theorem OnScript.load (hs : h.OnScript) (image : List UInt8) : (h.load image).state.OnScript := by
  by_cases hl : image.length ≤ Memory.programCapacity
  case pos =>
    rw [load_of_fits hl]
    exact .inl rfl
  case neg =>
    rw [load_of_oversized hl]
    exact hs

theorem Leads.onScript (l : Leads h ts h') (hs : h.OnScript) : h'.OnScript := by
  induction l
  case nil => exact hs
  case cons t l hi =>
    cases t
    case frame      => exact OnScript.playFrame hi
    case load image => exact OnScript.load hi image

theorem Leads.config_eq (l : Leads h ts h') : h'.config = h.config := by
  induction l
  case nil => rfl
  case cons t l hi =>
    rw [← hi]
    cases t
    case frame g =>
      simp only [Turn.after, Turn.outcome, Turn.before]
      cases ha : g.ticked.answer
      case error => rw [playFrame_of_error ha]
      case ok    => rw [playFrame_of_ok ha]; rfl
    case load g image =>
      simp only [Turn.after, Turn.outcome, Turn.before]
      by_cases hl : image.length ≤ Memory.programCapacity
      case pos => rw [load_of_fits hl]
      case neg => rw [load_of_oversized hl]

-- A program that fits starts the script again, and a frame that failed may apply its events again.
theorem keys_follow_script (config : Config) (noise : Noise) (requests : List Request) :
    let h := (create config noise).serveAll requests
    (∀ g, .frame g ∈ (create config noise).history requests →
      g.playFrame.state.emulator = g.emulator.performAll g.operations ∧
      ∀ t ∈ g.emulator.history g.operations, t.op = .tick →
        ∀ k : Key, t.before.machine.keys.isDown k ↔ config.Holds g.frame k) ∧
    (∀ image, (h.load image).answer = .ok () →
      (h.load image).state.frame = 0 ∧
      (h.load image).state.emulator.machine.keys = .released) ∧
    (∀ f, h.playFrame.answer = .error f →
      let again := h.playFrame.state
      again.frame = h.frame ∧
      (script again.events again.emulator).machine.keys = again.emulator.machine.keys ∧
      ∀ k : Key, again.emulator.machine.keys.isDown k ↔ config.Holds h.frame k) := by
  intro h
  have l : Leads _ _ h := leads_history (create config noise) requests
  have hs : (create config noise).OnScript := .inl rfl
  have hc : h.config = config := l.config_eq
  refine ⟨?_, ?_, ?_⟩
  · intro g hg
    refine ⟨g.emulator_playFrame, fun t ht ho k => ?_⟩
    have ⟨_, l⟩ := l.exists_of_mem hg
    have hg : g.OnScript := l.onScript hs
    have hc : g.config = config := l.config_eq
    rw [keys_of_tick ht ho, hg.play_events, hc]
    exact Config.isDown_keypad ..
  · intro image ha
    by_cases hl : image.length ≤ Memory.programCapacity
    case pos =>
      rw [load_of_fits hl]
      exact ⟨rfl, rfl⟩
    case neg => simp [load_of_oversized hl] at ha
  · intro f ha again
    have hk : again.emulator.machine.keys = _ := h.keys_playFrame
    have he : again.frame = h.frame ∧ again.events = h.events := by
      simp only [again, playFrame_of_error (ticked_of_error ha), events, and_self]
    refine ⟨he.left, ?_, fun k => ?_⟩
    · rw [keys_script, hk, he.right]
      exact Keypad.play_play ..
    · rw [hk, (l.onScript hs).play_events, hc]
      exact Config.isDown_keypad ..

-- A key is pressed and released in the second frame, and its press in the first frame comes later
-- in the configuration.
theorem keys_follow_script_out_of_order :
    let config : Config :=
      { ticksPerFrame := 1, keys := [⟨1, 7, true⟩, ⟨0, 7, true⟩, ⟨1, 7, false⟩] }
    let h := create config ⟨fun _ => 0, 0⟩
    let h' := h.playFrame.state
    (script h.events h.emulator).machine.keys.isDown 7 ∧
    ¬(script h'.events h'.emulator).machine.keys.isDown 7 ∧
    config.Holds 0 7 ∧ ¬config.Holds 1 7 := by
  intro config h h'
  have ⟨hd, hu, hn, ht⟩ : (script h.events h.emulator).machine.keys.isDown 7 ∧
      ¬(script h'.events h'.emulator).machine.keys.isDown 7 ∧ h'.frame = 1 ∧
      h'.config.ticksPerFrame ≠ 0 := by
    decide +kernel
  have ⟨hf, _⟩ := keys_follow_script config ⟨fun _ => 0, 0⟩ [.frame, .frame]
  have ⟨_, h₀⟩ := hf h (by exact .tail _ (.head _))
  have ⟨_, h₁⟩ := hf h' (by exact .head _)
  have hd' := h₀ _ (tick_mem_history Nat.one_ne_zero) rfl 7 |>.mp hd
  have hu' := mt (h₁ _ (tick_mem_history ht) rfl 7).mpr hu
  exact ⟨hd, hu, hd', hn ▸ hu'⟩

end Host
end ChipEight
