import ChipEight.Proofs.Emulator.Outcomes
import ChipEight.Proofs.Host.Ignoring
import ChipEight.Proofs.Memory.LastWrite
import ChipEight.Proofs.Noise.Drawing

namespace ChipEight

-- The machine is as new, with a program in its memory.
structure Machine.Boots (m : Machine) (image : List UInt8) : Prop where
  rest : m = { fresh with ram := m.ram }
  ram  : ∀ a, m.ram.read a = Memory.initial image a

theorem Machine.boots_withImage (hl : image.length ≤ Memory.programCapacity) :
    (withImage image).Boots image :=
  ⟨rfl, read_withImage hl⟩

namespace Emulator

variable {e e' : Emulator} {image : List UInt8}

structure Accepts (e : Emulator) (image : List UInt8) : Prop where
  answer : (e.load image).answer = .ok ()
  boots  : (e.load image).state.machine.Boots image
  noise  : (e.load image).state.noise = e.noise

structure Rejects (e : Emulator) (image : List UInt8) : Prop where
  answer : (e.load image).answer = .error (.oversized image.length 3584)
  state  : (e.load image).state = e

theorem accepts_of_fits (hl : image.length ≤ Memory.programCapacity) : e.Accepts image := by
  constructor <;> simp only [load_of_fits hl]
  case boots => exact Machine.boots_withImage hl

theorem rejects_of_oversized (hl : ¬image.length ≤ Memory.programCapacity) : e.Rejects image := by
  constructor <;> simp only [load_of_oversized hl]
  case answer => rfl

-- It does not show in the loading of a program, nor ever after, to which of the two it is loaded.
structure LoadsAlike (e e' : Emulator) (image : List UInt8) : Prop where
  answer    : (e.load image).answer = (e'.load image).answer
  fits      : image.length ≤ 3584 →
    e.Accepts image ∧ e'.Accepts image ∧ (e.load image).state = (e'.load image).state ∧
    ∀ ops, e.outcomes (.load image :: ops) = e'.outcomes (.load image :: ops)
  oversized : 3584 < image.length → e.Rejects image ∧ e'.Rejects image

theorem loadsAlike (hn : e.noise = e'.noise) (image : List UInt8) : e.LoadsAlike e' image where
  answer := by
    by_cases hl : image.length ≤ Memory.programCapacity
    case pos => simp only [load_of_fits hl]
    case neg => simp only [load_of_oversized hl]
  fits := fun hl => by
    have ho : e.load image = e'.load image := by simp only [load_of_fits hl, hn]
    refine ⟨accepts_of_fits hl, accepts_of_fits hl, by rw [ho], ?_⟩
    intro ops
    simp only [outcomes, perform, ho]
  oversized := fun hl =>
    have hl := Nat.not_le.mpr hl
    ⟨rejects_of_oversized hl, rejects_of_oversized hl⟩

end Emulator

namespace Host

variable {h h' : Host} {image : List UInt8}

structure Accepts (h : Host) (image : List UInt8) : Prop where
  answer   : (h.load image).answer = .ok ()
  state    : (h.load image).state =
    { h with emulator := (h.emulator.load image).state, frame := 0, beeps := 0 }
  emulator : h.emulator.Accepts image

structure Rejects (h : Host) (image : List UInt8) : Prop where
  answer : (h.load image).answer = .error (.oversized image.length 3584)
  state  : (h.load image).state = h

theorem accepts_of_fits (hl : image.length ≤ Memory.programCapacity) : h.Accepts image where
  answer   := by simp only [load_of_fits hl]
  state    := by simp only [load_of_fits hl, Emulator.load_of_fits hl]
  emulator := Emulator.accepts_of_fits hl

theorem rejects_of_oversized (hl : ¬image.length ≤ Memory.programCapacity) : h.Rejects image := by
  constructor <;> simp only [load_of_oversized hl]
  case answer => rfl

structure LoadsAlike (h h' : Host) (image : List UInt8) : Prop where
  answer    : (h.load image).answer = (h'.load image).answer
  fits      : image.length ≤ 3584 →
    h.Accepts image ∧ h'.Accepts image ∧
    (h.load image).state.emulator = (h'.load image).state.emulator ∧
    (h.config = h'.config →
      (h.load image).state = (h'.load image).state ∧
      ∀ requests, h.repliesWith Instr.decode (.load image :: requests) =
        h'.repliesWith Instr.decode (.load image :: requests))
  oversized : 3584 < image.length → h.Rejects image ∧ h'.Rejects image

theorem loadsAlike (hn : h.emulator.noise = h'.emulator.noise) (image : List UInt8) :
    h.LoadsAlike h' image where
  answer := by
    by_cases hl : image.length ≤ Memory.programCapacity
    case pos => simp only [load_of_fits hl]
    case neg => simp only [load_of_oversized hl]
  fits := fun hl => by
    refine ⟨accepts_of_fits hl, accepts_of_fits hl, by simp only [load_of_fits hl, hn], ?_⟩
    intro hc
    have ho : h.load image = h'.load image := by simp only [load_of_fits hl, hc, hn]
    refine ⟨by rw [ho], fun requests => ?_⟩
    simp only [repliesWith, replyWith, ho]
  oversized := fun hl =>
    have hl := Nat.not_le.mpr hl
    ⟨rejects_of_oversized hl, rejects_of_oversized hl⟩

end Host

-- Whatever two emulators or two hosts went through before, a program that fits puts both into the
-- same state, and one that does not fit leaves each in its own.
theorem loading_erases_past {e e' : Emulator} {h h' : Host} (he : e.noise = e'.noise)
    (hh : h.emulator.noise = h'.emulator.noise) (image : List UInt8) :
    e.LoadsAlike e' image ∧ h.LoadsAlike h' image :=
  ⟨Emulator.loadsAlike he image, Host.loadsAlike hh image⟩

-- What a program stored and called, the key that is held and the frame that was played do not show
-- in what comes after the next program is loaded.
theorem loading_erases_past_stored :
    let noise : Noise := ⟨fun i => .ofNat i, 0⟩
    let config : Config := { ticksPerFrame := 2 }
    let image := [0x60, 0x07, 0xF0, 0x55, 0x22, 0x00]
    let e := (Emulator.create noise).performAll [.load image, .switchKey 3 true, .run 3]
    let h := (Host.create config noise).serveAll [.load image, .frame]
    (e.machine.stack.depth = 1 ∧ e.machine.keys ≠ .released ∧ h.frame = 1) ∧
    (e.load [0xC0, 0xFF]).state = ((Emulator.create noise).load [0xC0, 0xFF]).state ∧
    (h.load [0xC0, 0xFF]).state = ((Host.create config noise).load [0xC0, 0xFF]).state ∧
    (h.load (.replicate 3585 0)).state = h := by
  intro noise config image e h
  let moments := (Emulator.create noise).history [.load image, .switchKey 3 true, .run 3]
  let turns := (Host.create config noise).history [.load image, .frame]
  have ⟨hf, hd, hd'⟩ : (e.machine.stack.depth = 1 ∧ e.machine.keys ≠ .released ∧ h.frame = 1) ∧
      drawn moments = 0 ∧ drawn (turns.flatMap Turn.moments) = 0 := by
    decide +kernel
  have he : e.noise = (Emulator.create noise).noise := by
    have l : Emulator.Leads _ moments e := (Emulator.create noise).leads_history _
    rw [l.noise_eq, hd]
    rfl
  have l : Host.Leads _ turns h := (Host.create config noise).leads_history _
  have hh : h.emulator.noise = (Host.create config noise).emulator.noise := by
    rw [l.emulator.noise_eq, hd']
    rfl
  have ⟨hv, hr⟩ := loading_erases_past he hh [0xC0, 0xFF]
  have ⟨_, hl⟩ := loading_erases_past he hh (.replicate 3585 0)
  have ⟨_, _, hv, _⟩ := hv.fits (by decide)
  have ⟨_, _, _, hr⟩ := hr.fits (by decide)
  have ⟨hl, _⟩ := hl.oversized (by simp only [List.length_replicate]; decide)
  exact ⟨hf, hv, (hr l.config_eq).left, hl.state⟩

end ChipEight
