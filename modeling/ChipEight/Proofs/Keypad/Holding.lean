import ChipEight.Proofs.Keypad.Waiting
import Mathlib.Data.Finset.Sort
import Mathlib.Data.Fintype.Basic

namespace ChipEight

theorem Key.text_eq (k : Key) : k.text = .ofList ['k', Nat.digitChar k] := by
  revert k
  decide

namespace Keypad

variable {p : Keypad}

-- The set that the bits stand for.
def down (p : Keypad) : Finset Key :=
  Finset.univ.filter fun k => p.isDown k

@[simp]
theorem mem_down : k ∈ p.down ↔ p.isDown k := by
  simp [down]

-- A number above 15 is in no set of keys.
theorem isDown_iff {n : Nat} : p.isDown n ↔ ∃ k ∈ p.down, k.val = n := by
  constructor
  case mp  => exact fun h => ⟨⟨n, BitVec.lt_of_getLsbD h⟩, mem_down.mpr h, rfl⟩
  case mpr => exact fun ⟨k, hk, hn⟩ => hn ▸ mem_down.mp hk

theorem down_eq_empty_iff : p.down = ∅ ↔ p = released := by
  constructor
  case mp =>
    intro h
    apply ext_isDown
    intro k
    have hk : k ∉ p.down := h ▸ Finset.notMem_empty k
    rw [isDown_released, Bool.eq_false_iff]
    exact mt mem_down.mpr hk
  case mpr =>
    rintro rfl
    ext k
    simp

theorem anyDown_iff : p.anyDown ↔ p.down.Nonempty := by
  rw [Finset.nonempty_iff_ne_empty, ne_eq, down_eq_empty_iff, anyDown, bne_iff_ne, Keypad.ext_iff]
  rfl

theorem first?_eq_none_iff_down : p.first? = none ↔ p.down = ∅ :=
  first?_eq_none_iff.trans down_eq_empty_iff.symm

theorem first?_eq_some_iff : p.first? = some k ↔ IsLeast (p.down : Set Key) k := by
  constructor
  case mp =>
    intro h
    have ⟨hd, hl⟩ := first?_least h
    exact ⟨mem_down.mpr hd, fun j hj => hl j <| mem_down.mp hj⟩
  case mpr =>
    intro l
    cases hf : p.first?
    case none =>
      have hk : k ∈ p.down := l.left
      rw [first?_eq_none_iff_down.mp hf] at hk
      contradiction
    case some j =>
      have ⟨hd, hl⟩ := first?_least hf
      have hj : k ≤ j := l.right <| mem_down.mpr hd
      rw [Fin.le_antisymm hj <| hl k <| mem_down.mp l.left]

theorem toList_eq_sort : p.toList = p.down.sort := by
  have hn : p.toList.Nodup := (List.nodup_finRange 16).filter _
  have hs : p.toList.Pairwise (· ≤ ·) := (List.pairwise_le_finRange 16).filter _
  have hf : p.toList.toFinset = p.down := by
    ext k
    rw [List.mem_toFinset, mem_toList, mem_down]
  rw [← hf, (List.toFinset_sort _ hn).mpr hs]

theorem join_map_text (ks : List Key) :
    String.join (ks.map Key.text) = .ofList (ks.flatMap fun k : Key => ['k', Nat.digitChar k]) := by
  induction ks
  case nil => rfl
  case cons k ks hi =>
    rw [List.map_cons, String.join_cons, hi, Key.text_eq, List.flatMap_cons, String.ofList_append]

theorem text_eq :
    p.text =
      if p.down = ∅ then ""
      else "keys: " ++ .ofList (p.down.sort.flatMap fun k : Key => ['k', Nat.digitChar k]) := by
  by_cases h : p.down = ∅
  case pos =>
    have ha : ¬p.anyDown := by simp [anyDown_iff, h]
    rw [text, if_neg ha, if_pos h]
  case neg =>
    have ha : p.anyDown := anyDown_iff.mpr <| Finset.nonempty_iff_ne_empty.mpr h
    rw [text, if_pos ha, if_neg h, join_map_text, toList_eq_sort]

end Keypad

namespace Moment

variable {t : Moment}

-- No key is down afterwards.
def lifts (t : Moment) : Bool :=
  match t.op with
  | .releaseKeys => true
  | _            => t.restarts

-- Whether the key is pressed or released, if it is one or the other.
def switches? (k : Key) (t : Moment) : Option Bool :=
  match t.op with
  | .switchKey j pressed => if k = j then some pressed else none
  | _                    => none

theorem isDown_after (hs : t.op.Single) (k : Key) :
    t.after.machine.keys.isDown k =
      if t.lifts then false else (t.switches? k).getD (t.before.machine.keys.isDown k) := by
  obtain ⟨e, op⟩ := t
  cases op
  case tick => exact congrArg (·.isDown k) e.keys_tick
  case run n => exact absurd rfl (hs n)
  case countDown => rfl
  case switchKey j pressed =>
    have hk : (Moment.mk e (.switchKey j pressed)).after.machine.keys.isDown k =
        (e.machine.keys.set j pressed).isDown k := rfl
    rw [hk, Keypad.isDown_set]
    by_cases h : k = j <;> simp [lifts, restarts, switches?, Fin.val_inj, h]
  case releaseKeys | reset => exact Keypad.isDown_released k
  case load image =>
    by_cases hr : (Moment.mk e (.load image)).restarts
    case pos =>
      obtain ⟨_, ha⟩ := after_of_restarts hr
      rw [ha, lifts, if_pos hr]
      exact Keypad.isDown_released k
    case neg =>
      rw [after_of_load rfl hr, lifts, if_neg hr]
      rfl

end Moment

-- The keys that were pressed and not released again, since all keys were up.
def heldKeys (h : List Moment) : Finset Key :=
  Finset.univ.filter fun k => (h.takeWhile (!·.lifts)).findSome? (·.switches? k) = some true

theorem mem_heldKeys_cons (t : Moment) (h : List Moment) (k : Key) :
    decide (k ∈ heldKeys (t :: h)) =
      if t.lifts then false else (t.switches? k).getD (k ∈ heldKeys h) := by
  cases hl : t.lifts
  case true  => simp [heldKeys, hl]
  case false => cases hs : t.switches? k <;> simp [heldKeys, hl, hs]

namespace Emulator

variable {e : Emulator}

theorem Leads.isDown_eq (l : Leads e h e') (he : e.machine.keys = .released) (k : Key) :
    e'.machine.keys.isDown k = decide (k ∈ heldKeys h) := by
  induction l
  case nil =>
    rw [he, Keypad.isDown_released]
    simp [heldKeys]
  case cons hs hi => rw [Moment.isDown_after hs, hi, mem_heldKeys_cons]

theorem Leads.down_eq (l : Leads e h e') (he : e.machine.keys = .released) :
    e'.machine.keys.down = heldKeys h := by
  ext k
  rw [Keypad.mem_down, l.isDown_eq he, decide_eq_true_iff]

theorem keys_run (e : Emulator) (n : Nat) : (e.run n).state.machine.keys = e.machine.keys := by
  have hk (signal : Signal) (records : Array Record) :
      (run.go n e signal records).state.machine.keys = e.machine.keys := by
    induction n generalizing e signal records
    case zero => rfl
    case succ n hi =>
      rw [run.go]
      split
      case h_1 => exact e.keys_tick
      case h_2 => exact (hi _ _ _).trans e.keys_tick
  exact hk .next #[]

theorem pc_skip (hi : e.machine.instr? = some (.skip c)) :
    e.tick.answer = .ok .next ∧
    e.tick.state.machine.pc.toNat = e.machine.pc.toNat + if e.machine.holds c then 4 else 2 := by
  have ⟨ha, hs⟩ := tick_skip hi
  have hp := Machine.pc_lt_of_instr? hi
  refine ⟨ha, ?_⟩
  simp only [Memory.size] at hp
  rw [hs]
  split <;> simp only [UInt16.toNat_add, UInt16.reduceToNat] <;> omega

-- The keys that are down are those that the host holds, however they are asked for. An instruction
-- can name any number from 0 to 255 as a key, and no instruction changes what is held.
theorem keys_are_held (noise : Noise) (ops : List Operation) :
    let e := (create noise).performAll ops
    let held := heldKeys ((create noise).history ops)
    (∀ n : Nat, e.machine.keys.isDown n ↔ ∃ k ∈ held, k.val = n) ∧
    (e.machine.keys.anyDown ↔ held.Nonempty) ∧
    (∀ k, e.machine.keys.first? = some k ↔ IsLeast (held : Set Key) k) ∧
    (e.machine.keys.first? = none ↔ held = ∅) ∧
    e.machine.keys.text =
      (if held = ∅ then ""
       else "keys: " ++ .ofList (held.sort.flatMap fun k : Key => ['k', Nat.digitChar k])) ∧
    (∀ x, e.machine.instr? = some (.skip (.keyDown x)) →
      e.tick.answer = .ok .next ∧
      e.tick.state.machine.pc.toNat =
        e.machine.pc.toNat + if ∃ k ∈ held, k.val = (e.machine.reg x).toNat then 4 else 2) ∧
    (∀ x, e.machine.instr? = some (.skip (.keyUp x)) →
      e.tick.answer = .ok .next ∧
      e.tick.state.machine.pc.toNat =
        e.machine.pc.toNat + if ∃ k ∈ held, k.val = (e.machine.reg x).toNat then 2 else 4) ∧
    e.tick.state.machine.keys = e.machine.keys ∧
    ∀ n, (e.run n).state.machine.keys = e.machine.keys := by
  intro e held
  have hd : e.machine.keys.down = held := (leads_history _ ops).down_eq rfl
  have hx (x : UInt8) : e.machine.keys.isDown (e.machine.reg x).toNat ↔
      ∃ k ∈ held, k.val = (e.machine.reg x).toNat := hd ▸ Keypad.isDown_iff
  refine ⟨fun n => hd ▸ Keypad.isDown_iff, hd ▸ Keypad.anyDown_iff,
    fun k => hd ▸ Keypad.first?_eq_some_iff, hd ▸ Keypad.first?_eq_none_iff_down,
    hd ▸ Keypad.text_eq, ?_, ?_, e.keys_tick, e.keys_run⟩
  · intro x hi
    simpa only [Machine.holds, hx] using pc_skip hi
  · intro x hi
    have ⟨ha, hp⟩ := pc_skip hi
    refine ⟨ha, hp.trans ?_⟩
    by_cases hk : e.machine.keys.isDown (e.machine.reg x).toNat
    case pos => rw [if_pos ((hx x).mp hk), if_neg (by simp [Machine.holds, hk])]
    case neg => rw [if_neg (mt (hx x).mpr hk), if_pos (by simp [Machine.holds, hk])]

-- One of two keys is up again, and an image that does not fit leaves the other one down. The number
-- that the instruction names is that key's but for its high digit.
theorem keys_are_held_eleven :
    let ops :=
      [.load [0x60, 0x1B, 0xE0, 0x9E], .switchKey 11 true, .switchKey 3 true, .tick,
        .switchKey 3 false, .load (.replicate 3585 0)]
    let e := (create ⟨fun _ => 0, 0⟩).performAll ops
    e.machine.keys.text = "keys: kb" ∧ e.machine.reg 0 = 0x1B ∧
    e.machine.instr? = some (.skip (.keyDown 0)) ∧ e.tick.state.machine.pc.toNat = 0x204 := by
  intro ops e
  have ⟨hh, hr, hi, hp⟩ :
      heldKeys ((create ⟨fun _ => 0, 0⟩).history ops) = {11} ∧ e.machine.reg 0 = 0x1B ∧
      e.machine.instr? = some (.skip (.keyDown 0)) ∧ e.machine.pc.toNat = 0x202 := by
    decide +kernel
  have ⟨_, _, _, _, ht, hx, _⟩ := keys_are_held ⟨fun _ => 0, 0⟩ ops
  have ⟨_, hx⟩ := hx 0 hi
  rw [hh] at ht hx
  refine ⟨?_, hr, hi, ?_⟩
  · rw [ht]
    decide +kernel
  · rw [hx, hp, hr]
    decide

end Emulator
end ChipEight
