import ChipEight.Proofs.Emulator.History
import Mathlib.Algebra.Group.Nat.Defs

namespace ChipEight

namespace Memory

-- What lies in memory before anything is stored: the font, and a program.
def initial (image : List UInt8) (a : Nat) : UInt8 :=
  if a < Font.size then
    Font.glyphs[a]?.getD 0
  else if programStart ≤ a then
    image[a - programStart]?.getD 0
  else
    0

theorem read_zero (a : Nat) : zero.read a = 0 := by
  by_cases h : a < 4096 <;> simp [read, zero, h]

theorem read_fresh (a : Nat) : fresh.read a = Font.glyphs[a]?.getD 0 := by
  have hs : Spans Font.start Font.glyphs.length := by decide
  rw [fresh, read_writeSpan hs, read_zero, Font.start, if_pos (Nat.zero_le a), Nat.sub_zero]

end Memory

-- The decimal digits of a byte, from the hundreds on.
def decimalDigit (v : UInt8) (i : Nat) : UInt8 :=
  .ofNat (v.toNat / 10 ^ (2 - i) % 10)

theorem getElem?_bcd (v : UInt8) (i : Nat) :
    (bcd v)[i]? = if i ≤ 2 then some (decimalDigit v i) else none := by
  have := v.toNat_lt
  match i with
  | 0 | 1 | 2 =>
    simp only [bcd, decimalDigit]
    simp [← UInt8.toNat_inj]
    omega
  | i + 3 => simp [bcd]

theorem Registers.getElem?_upTo (r : Registers) (x : UInt8) (i : Nat) :
    (r.upTo x)[i]? = if i ≤ x.toNat then r[i]? else none := by
  simp only [upTo, List.getElem?_take, Nat.lt_succ_iff]
  simp

namespace Machine

variable {m m' : Machine}

theorem read_withImage (h : image.length ≤ Memory.programCapacity) (a : Nat) :
    (withImage image).ram.read a = Memory.initial image a := by
  have hs : Memory.Spans Memory.programStart image.length := by
    simp only [Memory.Spans, Memory.programCapacity, Memory.size, Memory.programStart] at *
    omega
  rw [withImage, Memory.read_writeSpan hs, Memory.read_fresh, Memory.initial]
  by_cases hf : a < Font.size
  case pos =>
    have hp : ¬Memory.programStart ≤ a := by
      simp only [Font.size, Memory.programStart] at *
      omega
    rw [if_neg hp, if_pos hf, Option.getD_none]
  case neg =>
    have hg : Font.glyphs[a]? = none := List.getElem?_eq_none (Nat.not_lt.mp hf)
    rw [if_neg hf, hg, Option.getD_none]
    split <;> rfl

theorem execute_digits (h : m.execute noise (.digits x) = .ok (signal, m')) :
    Memory.Spans m.index.toNat 3 ∧ m' = m.store (bcd (m.reg x)) := by
  have ⟨hs, hr⟩ := onSpan_eq_ok_iff.mp h
  exact ⟨hs, congrArg Prod.snd hr⟩

theorem execute_save (h : m.execute noise (.save x) = .ok (signal, m')) :
    Memory.Spans m.index.toNat (x.toNat + 1) ∧ m' = m.store (m.regs.upTo x) := by
  have ⟨hs, hr⟩ := onSpan_eq_ok_iff.mp h
  exact ⟨hs, congrArg Prod.snd hr⟩

-- Reading after the bytes `f 0` to `f n` are stored at the index register.
theorem read_store {f : Nat → Option UInt8} (hs : Memory.Spans m.index.toNat bytes.length)
    (hb : ∀ i, bytes[i]? = if i ≤ n then f i else none) (a : Nat) :
    (m.store bytes).ram.read a =
      (if m.index.toNat ≤ a ∧ a ≤ m.index.toNat + n then f (a - m.index.toNat) else none).getD
        (m.ram.read a) := by
  rw [store, Memory.read_writeSpan hs, hb]
  congr 1
  by_cases hl : m.index.toNat ≤ a
  case pos =>
    have : a - m.index.toNat ≤ n ↔ a ≤ m.index.toNat + n := by omega
    simp only [hl, this, true_and, if_true]
  case neg => simp only [hl, false_and, if_false]

end Machine

namespace Moment

variable {t : Moment}

-- The byte that an instruction stores at address `a`, if it stores one there.
def stores? (t : Moment) (a : Nat) : Option UInt8 :=
  let m := t.before.machine
  let i := m.index.toNat
  match t.executed? with
  | some (.save x)   => if i ≤ a ∧ a ≤ i + x.toNat then m.regs[a - i]? else none
  | some (.digits x) => if i ≤ a ∧ a ≤ i + 2 then some (decimalDigit (m.reg x) (a - i)) else none
  | _                => none

-- A restart writes all of memory.
def writes? (t : Moment) (a : Nat) : Option UInt8 :=
  if t.restarts then some (Memory.initial t.image a) else t.stores? a

theorem writes?_of_save (hx : t.executed? = some (.save x)) (i : Fin 16) (hi : i ≤ x.toNat) :
    t.writes? (t.before.machine.index.toNat + i) = some (t.before.machine.regs.get i) := by
  have hr : ¬t.restarts := by simp [restarts_of_executed? hx]
  rw [writes?, if_neg hr, stores?, hx]
  simp only [Nat.le_add_right, Nat.add_le_add_iff_left, hi, and_self, if_true,
    Nat.add_sub_cancel_left]
  exact Vector.getElem?_eq_getElem i.isLt

theorem Kind.read_after (k : t.Kind) (a : Nat) :
    t.after.machine.ram.read a = (t.writes? a).getD (t.before.machine.ram.read a) := by
  cases k
  case restart hr _ =>
    have ⟨hl, ha⟩ := after_of_restarts hr
    rw [ha, Machine.read_withImage hl, writes?, if_pos hr, Option.getD_some]
  case rest hr hi h => simp [writes?, stores?, hr, hi, h.ram]
  case execute i _ hr hi hx =>
    have hw : t.writes? a = t.stores? a := by simp [writes?, hr]
    cases i
    case digits x =>
      have ⟨hs, hm⟩ := Machine.execute_digits hx
      rw [hm, hw, stores?, hi]
      exact Machine.read_store hs (getElem?_bcd _) a
    case save x =>
      have ⟨hs, hm⟩ := Machine.execute_save hx
      have ⟨_, _, hx⟩ := executed?_eq_some_iff.mp hi
      have hx : x.toNat < 16 := Machine.wellFormed_of_instr? hx
      have hl : (t.before.machine.regs.upTo x).length = x.toNat + 1 := by
        simp only [Registers.upTo, List.length_take, Vector.length_toList]
        omega
      rw [hm, hw, stores?, hi]
      exact Machine.read_store (hl ▸ hs) (Registers.getElem?_upTo _ x) a
    all_goals
      have hf := Machine.Frame.of_execute hx
      rw [hw, stores?, hi]
      exact congrArg (Memory.read · a) <| hf.ram (by simp) (by simp)

end Moment

-- The byte at address `a` after a history.
def contents (h : List Moment) (a : Nat) : UInt8 :=
  (h.findSome? (·.writes? a)).getD (Memory.initial [] a)

theorem contents_of_writes? (ht : t.writes? a = some b) (hn : ∀ u ∈ newer, u.writes? a = none) :
    contents (newer ++ t :: older) a = b := by
  have hn : newer.findSome? (·.writes? a) = none := List.findSome?_eq_none_iff.mpr hn
  rw [contents, List.findSome?_append, hn, Option.none_or, List.findSome?_cons, ht,
    Option.getD_some]

namespace Emulator

variable {noise : Noise} {e : Emulator}

theorem Leads.read_eq_contents (l : Leads (create noise) h e) (a : Nat) :
    e.machine.ram.read a = contents h a := by
  have hw (t : Moment) (hs : t.op.Single) := (Moment.kind hs).read_after a
  have hi : (create noise).machine.ram.read a = Memory.initial [] a := by
    rw [create, ← Machine.withImage_nil, Machine.read_withImage (Nat.zero_le _)]
  rw [contents, ← hi]
  exact l.eq_last_write (·.machine.ram.read a) (·.writes? a) hw

theorem tick_restore (hi : e.machine.instr? = some (.restore x))
    (hs : Memory.Spans e.machine.index.toNat (x.toNat + 1)) :
    e.tick.answer = .ok .next ∧
    e.tick.state.machine.index = e.machine.index ∧
    e.tick.state.machine.ram = e.machine.ram ∧
    ∀ i : Fin 16, e.tick.state.machine.regs.get i =
      if i ≤ x.toNat then e.machine.ram.read (e.machine.index.toNat + i)
      else e.machine.regs.get i := by
  have hx : e.past.machine.execute e.noise (.restore x) = _ :=
    Machine.onSpan_eq_ok_iff.mpr ⟨hs, rfl⟩
  have ⟨ha, hm⟩ := tick_of_execute hi hx
  refine ⟨ha, by rw [hm]; rfl, by rw [hm]; rfl, ?_⟩
  intro i
  rw [hm]
  change (Registers.writeAll e.machine.regs _).get i = _
  rw [Registers.get_writeAll, Memory.getElem?_readSpan]
  simp only [Nat.lt_succ_iff]
  split <;> rfl

theorem restores_iff (hi : e.machine.instr? = some (.restore x)) :
    (∃ signal, e.tick.answer = .ok signal) ↔ e.machine.index.toNat + x.toNat < Memory.size := by
  by_cases hs : Memory.Spans e.machine.index.toNat (x.toNat + 1)
  case pos => exact iff_of_true ⟨_, tick_restore hi hs |>.left⟩ hs
  case neg =>
    have hr : e.past.machine.Refuses (.restore x) _ := .access rfl hs
    have ha := tick_of_refuses hi hr |>.left
    exact iff_of_false (by simp [ha]) hs

end Emulator

-- Registers that were saved come back when they are restored from the same place, unless something
-- was written over them.
theorem memory_keeps_last_write (noise : Noise) (ops : List Operation) :
    let e := (Emulator.create noise).performAll ops
    let h := (Emulator.create noise).history ops
    let base := e.machine.index.toNat
    (∀ a, e.machine.ram.read a = contents h a) ∧
    (∀ x, e.machine.instr? = some (.restore x) →
      ((∃ signal, e.tick.answer = .ok signal) ↔ base + x.toNat < Memory.size) ∧
      ∀ signal, e.tick.answer = .ok signal →
        e.tick.state.machine.index = e.machine.index ∧
        e.tick.state.machine.ram = e.machine.ram ∧
        ∀ i : Fin 16, e.tick.state.machine.regs.get i =
          if i ≤ x.toNat then contents h (base + i) else e.machine.regs.get i) ∧
    (∀ newer save older x,
      h = newer ++ save :: older → save.executed? = some (.save x) →
      (∀ t ∈ newer, ∀ i ≤ x.toNat, t.writes? (base + i) = none) →
      e.machine.instr? = some (.restore x) → e.machine.index = save.before.machine.index →
      e.tick.answer = .ok .next ∧
      ∀ i : Fin 16, i ≤ x.toNat →
        e.tick.state.machine.regs.get i = save.before.machine.regs.get i) := by
  intro e h base
  have l : Emulator.Leads (.create noise) h e := Emulator.leads_history _ ops
  refine ⟨l.read_eq_contents, ?_, ?_⟩
  · intro x hi
    refine ⟨Emulator.restores_iff hi, fun signal ha => ?_⟩
    have hs := Emulator.restores_iff hi |>.mp ⟨_, ha⟩
    have ⟨_, hx, hm, hr⟩ := Emulator.tick_restore hi hs
    simp only [l.read_eq_contents] at hr
    exact ⟨hx, hm, hr⟩
  · intro newer save older x hh hx hn hi hb
    have ⟨_, hx'⟩ := Moment.execute_of_executed? hx
    have ⟨hs, _⟩ := Machine.execute_save hx'
    have hp : save.before.past.machine.index = e.machine.index := hb.symm
    rw [hp] at hs
    have ⟨ha, _, _, hr⟩ := Emulator.tick_restore hi hs
    refine ⟨ha, fun i hl => ?_⟩
    have hw : save.writes? (base + i) = some (save.before.machine.regs.get i) := by
      have hw := Moment.writes?_of_save hx i hl
      rwa [← hb] at hw
    rw [hr, if_pos hl, l.read_eq_contents, hh]
    exact contents_of_writes? hw fun t ht => hn t ht i hl

-- A register is saved, loaded with another byte, and restored.
theorem memory_keeps_last_write_reload :
    let image := [0xA3, 0x00, 0x60, 0x07, 0xF0, 0x55, 0x60, 0x09, 0xF0, 0x65]
    let save := (Emulator.create ⟨fun _ => 0, 0⟩).performAll [.load image, .tick, .tick]
    let e := (Emulator.create ⟨fun _ => 0, 0⟩).performAll [.load image, .tick, .tick, .tick, .tick]
    (Moment.mk save .tick).executed? = some (.save 0) ∧ e.machine.instr? = some (.restore 0) ∧
    e.machine.reg 0 ≠ save.machine.reg 0 ∧
    e.tick.state.machine.regs.get 0 = save.machine.regs.get 0 := by
  intro image save e
  have ⟨hx, hn, hi, hb, hs⟩ :
      (Moment.mk save .tick).executed? = some (.save 0) ∧
      (∀ i ≤ 0, (Moment.mk save.tick.state .tick).writes? (e.machine.index.toNat + i) = none) ∧
      e.machine.instr? = some (.restore 0) ∧ e.machine.index = save.machine.index ∧
      e.machine.reg 0 ≠ save.machine.reg 0 := by
    decide +kernel
  have ⟨_, _, h⟩ := memory_keeps_last_write ⟨fun _ => 0, 0⟩
    [.load image, .tick, .tick, .tick, .tick]
  subst e
  have ⟨_, hr⟩ := h [⟨save.tick.state, .tick⟩] ⟨save, .tick⟩ _ 0 rfl hx
    (List.forall_mem_singleton.mpr hn) hi hb
  exact ⟨hx, hi, hs, hr 0 (Nat.le_refl 0)⟩

end ChipEight
