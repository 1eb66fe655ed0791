import ChipEight.Proofs.Display.Masking
import ChipEight.Proofs.Host.Lockstep
import ChipEight.Proofs.Memory.LastWrite

namespace ChipEight

-- The rows of a hexadecimal digit.
def Font.glyph (d : Nat) : List UInt8 :=
  glyphs.drop (d * height) |>.take height

theorem Font.getElem?_glyph (d i : Nat) :
    (glyph d)[i]? = if i < height then glyphs[d * height + i]? else none := by
  simp [glyph, List.getElem?_take]

theorem Memory.initial_of_lt (ha : a < Font.size) (image : List UInt8) :
    initial image a = Font.glyphs[a]?.getD 0 := by
  rw [initial, if_pos ha]

-- Nothing was stored at an address since the emulator was new, or was reset or loaded last.
def Untouched (h : List Moment) (a : Nat) : Prop :=
  ∀ t ∈ Moment.sinceRestart h, t.stores? a = none

instance : Decidable (Untouched h a) :=
  inferInstanceAs (Decidable (∀ t ∈ _, _))

theorem untouched_cons (hr : ¬t.restarts) :
    Untouched (t :: h) a ↔ t.stores? a = none ∧ Untouched h a := by
  simp [Untouched, Moment.sinceRestart, hr]

theorem contents_cons (t : Moment) (h : List Moment) (a : Nat) :
    contents (t :: h) a = (t.writes? a).getD (contents h a) := by
  rw [contents, List.findSome?_cons]
  cases t.writes? a <;> rfl

theorem contents_of_untouched (ha : a < Font.size) (hu : Untouched h a) :
    contents h a = Font.glyphs[a]?.getD 0 := by
  induction h
  case nil => exact Memory.initial_of_lt ha []
  case cons t h hi =>
    rw [contents_cons, Moment.writes?]
    by_cases hr : t.restarts
    case pos => rw [if_pos hr, Option.getD_some, Memory.initial_of_lt ha]
    case neg =>
      obtain ⟨hs, hu⟩ := (untouched_cons hr).mp hu
      rw [if_neg hr, hs, Option.getD_none, hi hu]

namespace Emulator

variable {noise : Noise} {e : Emulator}

theorem Leads.read_of_untouched (l : Leads (create noise) h e) (ha : a < Font.size)
    (hu : Untouched h a) : Font.glyphs[a]? = some (e.machine.ram.read a) := by
  have hl : a < Font.glyphs.length := ha
  rw [l.read_eq_contents, contents_of_untouched ha hu, List.getElem?_eq_getElem hl,
    Option.getD_some]

theorem Leads.readSpan_of_untouched (l : Leads (create noise) h e) (hd : d < 16)
    (hu : ∀ r < Font.height, Untouched h (d * Font.height + r)) :
    e.machine.ram.readSpan (d * Font.height) Font.height = Font.glyph d := by
  apply List.ext_getElem?
  intro r
  rw [Memory.getElem?_readSpan, Font.getElem?_glyph]
  split
  case isTrue hr =>
    have ha : d * Font.height + r < Font.size := by
      simp only [Font.height, Font.size] at hr ⊢
      omega
    exact (l.read_of_untouched ha <| hu r hr).symm
  case isFalse => rfl

theorem tick_glyph (hi : e.machine.instr? = some (.glyph x)) :
    e.tick.answer = .ok .next ∧
    e.tick.state.machine =
      { e.past.machine with index := .ofNat ((e.machine.reg x).toNat * Font.height) } := by
  have hx : e.past.machine.execute e.noise (.glyph x) = _ := rfl
  have ⟨ha, hs⟩ := tick_of_execute hi hx
  refine ⟨ha, ?_⟩
  rw [hs]
  simp [Font.start, past, Machine.reg]

end Emulator

-- The glyph of a digit is drawn as the font has it unless something was stored over it.
theorem font_lasts_untouched (noise : Noise) (ops : List Operation) :
    let e := (Emulator.create noise).performAll ops
    let h := (Emulator.create noise).history ops
    (∀ a < Font.size, Untouched h a → Font.glyphs[a]? = some (e.machine.ram.read a)) ∧
    (∀ d < 16, (∀ r < Font.height, Untouched h (d * Font.height + r)) →
      ∀ x, e.machine.instr? = some (.glyph x) → (e.machine.reg x).toNat = d →
      e.tick.answer = .ok .next ∧
      ∀ x' y', e.tick.state.machine.instr? = some (.draw x' y' 5) →
        e.tick.state.tick.answer = .ok .draw ∧
        e.tick.state.tick.state.machine.display =
          (e.machine.display.draw <|
            Sprite.points (Font.glyph d) (e.machine.reg x').toNat (e.machine.reg y').toNat).1) := by
  intro e h
  have l : Emulator.Leads (.create noise) h e := Emulator.leads_history _ ops
  refine ⟨fun a ha hu => l.read_of_untouched ha hu, ?_⟩
  intro d hd hu x hi hr
  obtain ⟨ha, hm⟩ := Emulator.tick_glyph hi
  refine ⟨ha, fun x' y' hi' => ?_⟩
  have hx : e.tick.state.machine.index.toNat = d * Font.height := by
    rw [hm, hr]
    simp only [Font.height, UInt16.toNat_ofNat']
    omega
  have hs : Memory.Spans e.tick.state.machine.index.toNat (UInt8.toNat 5) := by
    rw [hx]
    simp only [Memory.Spans, Memory.size, Font.height, UInt8.reduceToNat]
    omega
  obtain ⟨ha', hm'⟩ := Emulator.tick_draw hi' hs
  refine ⟨ha', ?_⟩
  have hg : e.tick.state.machine.ram.readSpan e.tick.state.machine.index.toNat (UInt8.toNat 5) =
      Font.glyph d := by
    rw [hx, hm]
    exact l.readSpan_of_untouched hd hu
  simp only [hm', Machine.drawSprite, Emulator.past, Machine.reg, hg]
  rw [hm]
  rfl

-- A register is stored over the first glyph. The last one still is as it was, and it is drawn.
theorem font_lasts_untouched_beside :
    let image := [0xF0, 0x55, 0x60, 0x0F, 0xF0, 0x29, 0xD0, 0x05]
    let e := (Emulator.create ⟨fun _ => 0, 0⟩).performAll [.load image, .tick, .tick]
    e.machine.ram.read 0 ≠ 0xF0 ∧
    Font.glyphs[79]? = some (e.machine.ram.read 79) ∧
    e.tick.state.tick.answer = .ok .draw ∧
    e.tick.state.tick.state.machine.display =
      (e.machine.display.draw <| Sprite.points (Font.glyph 15) 15 15).1 := by
  intro image e
  have ⟨hn, hu, hi, hr, hi'⟩ : e.machine.ram.read 0 ≠ 0xF0 ∧
      (∀ r < Font.height, Untouched
        ((Emulator.create ⟨fun _ => 0, 0⟩).history [.load image, .tick, .tick])
        (15 * Font.height + r)) ∧
      e.machine.instr? = some (.glyph 0) ∧
      (e.machine.reg 0).toNat = 15 ∧
      e.tick.state.machine.instr? = some (.draw 0 0 5) := by
    decide +kernel
  have ⟨hf, hg⟩ := font_lasts_untouched ⟨fun _ => 0, 0⟩ [.load image, .tick, .tick]
  have ⟨_, hd⟩ := hg 15 (by decide) hu 0 hi hr
  have ⟨ha, hm⟩ := hd 0 0 hi'
  exact ⟨hn, hf 79 (by decide) (hu 4 (by decide)), ha, by rw [hm, hr]⟩

-- A register is stored over the font, and then the glyph of the digit is drawn without its first
-- row, which is the font's no more.
theorem font_stored_over :
    let e := (Emulator.create ⟨fun _ => 0, 0⟩).performAll [.load [0xF0, 0x55, 0xF0, 0x29, 0xD0, 0x05]]
    e.machine.instr? = some (.save 0) ∧
    e.tick.state.machine.instr? = some (.glyph 0) ∧
    e.tick.state.machine.reg 0 = 0 ∧
    e.tick.state.tick.state.machine.instr? = some (.draw 0 0 5) ∧
    e.tick.state.machine.ram.read 0 = 0 ∧
    Font.glyphs[0]? = some 0xF0 ∧
    (Display.blank.draw <| Sprite.points (Font.glyph 0) 0 0).1.lit (0, 0) ∧
    ¬e.tick.state.tick.state.tick.state.machine.display.lit (0, 0) := by
  decide +kernel

end ChipEight
