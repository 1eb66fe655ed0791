import ChipEight.Proofs.Instr.WellFormed

namespace ChipEight

-- A row of the table: a word `kxyn` with some of its nibbles fixed, the others may be any.
structure Pattern where
  k : Option Nat
  x : Option Nat
  y : Option Nat
  n : Option Nat

namespace Pattern

-- A row that does not fix a nibble admits any.
def Admits : Option Nat → Nat → Prop
  | some d, n => n = d
  | none,   _ => True

def Fits (p : Pattern) (w : Word) : Prop :=
  Admits p.k (w.nibble 3) ∧ Admits p.x (w.nibble 2) ∧ Admits p.y (w.nibble 1) ∧
    Admits p.n (w.nibble 0)

end Pattern

namespace Word

-- The word with zero in the place of `y`.
def withoutY (w : Word) : Word :=
  ofNibbles (w.nibble 3) w.x 0 w.n

-- The words that the table leaves out.
def Unassigned (w : Word) : Prop :=
  w.nibble 3 = 0x0 ∧ w.toNat ∉ [0x0000, 0x00E0, 0x00EE] ∨
  (w.nibble 3 = 0x5 ∨ w.nibble 3 = 0x9) ∧ w.nibble 0 ≠ 0x0 ∨
  w.nibble 3 = 0x8 ∧ 0x8 ≤ w.nibble 0 ∧ w.nibble 0 ≠ 0xE ∨
  w.nibble 3 = 0xE ∧ w.nn.toNat ∉ [0x9E, 0xA1] ∨
  w.nibble 3 = 0xF ∧
    w.nn.toNat ∉ [0x07, 0x0A, 0x15, 0x18, 0x1E, 0x29, 0x33, 0x55, 0x65]

variable {w w' : Word} {k : Nat} {x y n nn : UInt8} {nnn : UInt16}

theorem nibble_lt (w : Word) (i : Nat) : w.nibble i < 16 :=
  Nat.mod_lt _ (by decide)

theorem toNat_eq_nibbles (w : Word) :
    w.toNat = w.nibble 3 * 4096 + w.nibble 2 * 256 + w.nibble 1 * 16 + w.nibble 0 := by
  have := w.toNat_lt
  simp only [nibble, Nat.shiftRight_eq_div_pow]
  omega

theorem toNat_mod_eq_nibbles (w : Word) : w.toNat % 256 = w.nibble 1 * 16 + w.nibble 0 := by
  have := w.nibble_lt 1
  have := w.nibble_lt 0
  rw [toNat_eq_nibbles]
  omega

theorem toNat_nn (w : Word) : w.nn.toNat = w.toNat % 256 := by
  simp only [nn, UInt8.toNat_ofNat']
  omega

theorem ofAddress_reads (hk : k < 16) (hn : nnn.toNat < 4096) :
    (ofAddress k nnn).nibble 3 = k ∧ (ofAddress k nnn).nnn = nnn := by
  have ht : (ofAddress k nnn).toNat = k * 4096 + nnn.toNat := by
    simp only [ofAddress, UInt16.toNat_ofNat']
    omega
  simp only [nibble, Word.nnn, ht, Nat.shiftRight_eq_div_pow, ← UInt16.toNat_inj,
    UInt16.toNat_ofNat']
  omega

theorem ofByte_reads (hk : k < 16) (hx : x.toNat < 16) :
    (ofByte k x nn).nibble 3 = k ∧ (ofByte k x nn).x = x ∧ (ofByte k x nn).nn = nn ∧
    (ofByte k x nn).toNat % 256 = nn.toNat := by
  have := nn.toNat_lt
  have ht : (ofByte k x nn).toNat = k * 4096 + x.toNat * 256 + nn.toNat := by
    simp only [ofByte, UInt16.toNat_ofNat']
    omega
  simp only [nibble, Word.x, Word.nn, ht, Nat.shiftRight_eq_div_pow, ← UInt8.toNat_inj,
    UInt8.toNat_ofNat']
  omega

theorem ofNibbles_reads (hk : k < 16) (hx : x.toNat < 16) (hy : y.toNat < 16)
    (hn : n.toNat < 16) :
    (ofNibbles k x y n).nibble 3 = k ∧ (ofNibbles k x y n).x = x ∧ (ofNibbles k x y n).y = y ∧
    (ofNibbles k x y n).n = n ∧ (ofNibbles k x y n).nibble 0 = n.toNat := by
  have ht : (ofNibbles k x y n).toNat = k * 4096 + x.toNat * 256 + y.toNat * 16 + n.toNat := by
    simp only [ofNibbles, UInt16.toNat_ofNat']
    omega
  simp only [nibble, Word.x, Word.y, Word.n, ht, Nat.shiftRight_eq_div_pow, ← UInt8.toNat_inj,
    UInt8.toNat_ofNat']
  omega

theorem ofAddress_eq (hk : w.nibble 3 = k) : ofAddress k w.nnn = w := by
  have := w.toNat_lt
  simp only [ofAddress, ← hk, nibble, Word.nnn, Nat.shiftRight_eq_div_pow, ← UInt16.toNat_inj,
    UInt16.toNat_ofNat']
  omega

theorem ofByte_eq (hk : w.nibble 3 = k) (hn : w.nn.toNat = nn.toNat) : ofByte k w.x nn = w := by
  have := w.toNat_lt
  simp only [ofByte, ← hk, ← hn, toNat_nn, nibble, Word.x, Nat.shiftRight_eq_div_pow,
    ← UInt16.toNat_inj, UInt16.toNat_ofNat', UInt8.toNat_ofNat']
  omega

theorem ofNibbles_eq (hk : w.nibble 3 = k) (hn : w.nibble 0 = n.toNat) :
    ofNibbles k w.x w.y n = w := by
  have := w.toNat_lt
  simp only [ofNibbles, ← hk, ← hn, nibble, Word.x, Word.y, Nat.shiftRight_eq_div_pow,
    ← UInt16.toNat_inj, UInt16.toNat_ofNat', UInt8.toNat_ofNat']
  omega

theorem toNat_n (w : Word) : w.n.toNat = w.nibble 0 := by
  have := w.nibble_lt 0
  simp only [n, UInt8.toNat_ofNat']
  omega

theorem withoutY_eq (hk : w.nibble 3 = k) (hn : w.nibble 0 = n.toNat) :
    w.withoutY = ofNibbles k w.x 0 n := by
  have hn : w.n = n := UInt8.toNat_inj.mp <| w.toNat_n.trans hn
  rw [withoutY, hk, hn]

theorem withoutY_reads (w : Word) :
    w.withoutY.nibble 3 = w.nibble 3 ∧ w.withoutY.x = w.x ∧ w.withoutY.nibble 0 = w.nibble 0 := by
  have ⟨hk, hx, _, _, hn⟩ :=
    ofNibbles_reads (w.nibble_lt 3) w.x_lt (show UInt8.toNat 0 < 16 by decide) w.n_lt
  exact ⟨hk, hx, hn.trans w.toNat_n⟩

end Word

namespace Instr

-- The row of the table that an instruction belongs to.
def pattern : Instr → Pattern
  | nop               => ⟨some 0x0, some 0x0, some 0x0, some 0x0⟩
  | clear             => ⟨some 0x0, some 0x0, some 0xE, some 0x0⟩
  | ret               => ⟨some 0x0, some 0x0, some 0xE, some 0xE⟩
  | jump _            => ⟨some 0x1, none, none, none⟩
  | call _            => ⟨some 0x2, none, none, none⟩
  | skip (.eqByte ..) => ⟨some 0x3, none, none, none⟩
  | skip (.neByte ..) => ⟨some 0x4, none, none, none⟩
  | skip (.eqReg ..)  => ⟨some 0x5, none, none, some 0x0⟩
  | loadByte ..       => ⟨some 0x6, none, none, none⟩
  | addByte ..        => ⟨some 0x7, none, none, none⟩
  | alu .set _ _      => ⟨some 0x8, none, none, some 0x0⟩
  | alu .or _ _       => ⟨some 0x8, none, none, some 0x1⟩
  | alu .and _ _      => ⟨some 0x8, none, none, some 0x2⟩
  | alu .xor _ _      => ⟨some 0x8, none, none, some 0x3⟩
  | alu .add _ _      => ⟨some 0x8, none, none, some 0x4⟩
  | alu .sub _ _      => ⟨some 0x8, none, none, some 0x5⟩
  | shiftR _          => ⟨some 0x8, none, none, some 0x6⟩
  | alu .subFrom _ _  => ⟨some 0x8, none, none, some 0x7⟩
  | shiftL _          => ⟨some 0x8, none, none, some 0xE⟩
  | skip (.neReg ..)  => ⟨some 0x9, none, none, some 0x0⟩
  | setIndex _        => ⟨some 0xA, none, none, none⟩
  | jumpV0 _          => ⟨some 0xB, none, none, none⟩
  | random ..         => ⟨some 0xC, none, none, none⟩
  | draw ..           => ⟨some 0xD, none, none, none⟩
  | skip (.keyDown _) => ⟨some 0xE, none, some 0x9, some 0xE⟩
  | skip (.keyUp _)   => ⟨some 0xE, none, some 0xA, some 0x1⟩
  | getDelay _        => ⟨some 0xF, none, some 0x0, some 0x7⟩
  | waitKey _         => ⟨some 0xF, none, some 0x0, some 0xA⟩
  | setDelay _        => ⟨some 0xF, none, some 0x1, some 0x5⟩
  | setSound _        => ⟨some 0xF, none, some 0x1, some 0x8⟩
  | addIndex _        => ⟨some 0xF, none, some 0x1, some 0xE⟩
  | glyph _           => ⟨some 0xF, none, some 0x2, some 0x9⟩
  | digits _          => ⟨some 0xF, none, some 0x3, some 0x3⟩
  | save _            => ⟨some 0xF, none, some 0x5, some 0x5⟩
  | restore _         => ⟨some 0xF, none, some 0x6, some 0x5⟩

-- The shifts take the same register as source and destination.
def ignoresY : Instr → Bool
  | shiftR _ | shiftL _ => true
  | _                   => false

-- The instruction of the same row that takes its operands from `w`.
def readFrom (w : Word) : Instr → Instr
  | nop               => nop
  | clear             => clear
  | ret               => ret
  | jump _            => jump w.nnn
  | call _            => call w.nnn
  | jumpV0 _          => jumpV0 w.nnn
  | skip (.eqByte ..) => skip (.eqByte w.x w.nn)
  | skip (.neByte ..) => skip (.neByte w.x w.nn)
  | skip (.eqReg ..)  => skip (.eqReg w.x w.y)
  | skip (.neReg ..)  => skip (.neReg w.x w.y)
  | skip (.keyDown _) => skip (.keyDown w.x)
  | skip (.keyUp _)   => skip (.keyUp w.x)
  | loadByte ..       => loadByte w.x w.nn
  | addByte ..        => addByte w.x w.nn
  | alu op _ _        => alu op w.x w.y
  | shiftR _          => shiftR w.x
  | shiftL _          => shiftL w.x
  | setIndex _        => setIndex w.nnn
  | addIndex _        => addIndex w.x
  | glyph _           => glyph w.x
  | random ..         => random w.x w.nn
  | draw ..           => draw w.x w.y w.n
  | getDelay _        => getDelay w.x
  | setDelay _        => setDelay w.x
  | setSound _        => setSound w.x
  | waitKey _         => waitKey w.x
  | digits _          => digits w.x
  | save _            => save w.x
  | restore _         => restore w.x

variable {i j : Instr} {w w' : Word}

theorem decode_encode (h : i.WellFormed) : decode i.encode = .ok i := by
  cases i
  case nop | clear | ret => rfl
  case jump nnn | call nnn | jumpV0 nnn | setIndex nnn =>
    have h : nnn.toNat < 4096 := h
    simp [encode, decode, Word.ofAddress_reads, h]
  case skip c =>
    cases c
    case eqReg x y | neReg x y =>
      have ⟨hx, hy⟩ : x.toNat < 16 ∧ y.toNat < 16 := h
      simp [encode, decode, Word.ofNibbles_reads, hx, hy]
    all_goals
      have h : UInt8.toNat _ < 16 := h
      simp [encode, decode, Word.ofByte_reads, h]
  case alu op x y =>
    have ⟨hx, hy⟩ : x.toNat < 16 ∧ y.toNat < 16 := h
    cases op <;> simp [encode, decode, Word.ofNibbles_reads, hx, hy]
  case draw x y n =>
    have ⟨hx, hy, hn⟩ : x.toNat < 16 ∧ y.toNat < 16 ∧ n.toNat < 16 := h
    simp [encode, decode, Word.ofNibbles_reads, hx, hy, hn]
  case shiftR x | shiftL x =>
    have h : x.toNat < 16 := h
    simp [encode, decode, Word.ofNibbles_reads, h]
  all_goals
    have h : UInt8.toNat _ < 16 := h
    simp [encode, decode, Word.ofByte_reads, h]

theorem decode_of_fits (h : i.pattern.Fits w) : decode w = .ok (i.readFrom w) := by
  have ht := w.toNat_eq_nibbles
  have hm := w.toNat_mod_eq_nibbles
  cases i
  case nop | clear | ret =>
    simp only [pattern, Pattern.Fits, Pattern.Admits] at h
    simp [decode, readFrom, ht, h]
  case skip c =>
    cases c <;> simp only [pattern, Pattern.Fits, Pattern.Admits] at h <;>
      simp [decode, readFrom, hm, h]
  case alu op x y =>
    cases op <;> simp only [pattern, Pattern.Fits, Pattern.Admits] at h <;>
      simp [decode, readFrom, h]
  case addIndex | glyph | getDelay | setDelay | setSound | waitKey | digits | save | restore =>
    simp only [pattern, Pattern.Fits, Pattern.Admits] at h
    simp [decode, readFrom, hm, h]
  all_goals
    simp only [pattern, Pattern.Fits, Pattern.Admits] at h
    simp [decode, readFrom, h]

theorem fits_of_decode (h : decode w = .ok i) : i.pattern.Fits w := by
  have := w.nibble_lt 3
  have := w.nibble_lt 1
  have := w.nibble_lt 0
  have ht := w.toNat_eq_nibbles
  have hm := w.toNat_mod_eq_nibbles
  unfold decode at h
  split at h
  -- The last row of the decoder is that of the one nibble that is left.
  case h_16 =>
    have hk : w.nibble 3 = 0xF := by grind
    split at h <;> cases h
    all_goals
      simp only [pattern, Pattern.Fits, Pattern.Admits, true_and]
      omega
  all_goals try split at h
  all_goals cases h
  all_goals
    simp only [pattern, Pattern.Fits, Pattern.Admits, true_and, and_true]
    omega

theorem unassigned_of_decode (h : decode w = .error u) : w.Unassigned := by
  have := w.nibble_lt 3
  have := w.nibble_lt 0
  have hn := w.toNat_nn
  unfold decode at h
  split at h <;> try split at h
  all_goals cases h
  all_goals
    simp only [Word.Unassigned, List.mem_cons, List.not_mem_nil, or_false, not_or]
    grind

theorem not_unassigned_of_fits (h : i.pattern.Fits w) : ¬w.Unassigned := by
  have ht := w.toNat_eq_nibbles
  have hm := w.toNat_mod_eq_nibbles
  rw [← w.toNat_nn] at hm
  cases i
  case skip c =>
    cases c <;> simp only [pattern, Pattern.Fits, Pattern.Admits] at h <;>
      simp [Word.Unassigned, hm, h]
  case alu op x y =>
    cases op <;> simp only [pattern, Pattern.Fits, Pattern.Admits] at h <;>
      simp [Word.Unassigned, h]
  all_goals
    simp only [pattern, Pattern.Fits, Pattern.Admits] at h
    simp [Word.Unassigned, ht, hm, h]

theorem encode_readFrom (h : i.pattern.Fits w) :
    (i.readFrom w).encode = if i.ignoresY then w.withoutY else w := by
  have hm := w.toNat_nn.trans w.toNat_mod_eq_nibbles
  have hk := h.1
  have hy := h.2.2.1
  have hn := h.2.2.2
  cases i
  case nop | clear | ret =>
    simp only [pattern, Pattern.Fits, Pattern.Admits] at h
    simp [readFrom, encode, ignoresY, ← UInt16.toNat_inj, w.toNat_eq_nibbles, h]
  case jump | call | jumpV0 | setIndex => exact Word.ofAddress_eq hk
  case skip c =>
    cases c
    case eqByte | neByte => exact Word.ofByte_eq hk rfl
    case eqReg | neReg => exact Word.ofNibbles_eq hk hn
    case keyDown | keyUp => exact Word.ofByte_eq hk <| by rw [hm, hy, hn]; rfl
  case alu op _ _ => cases op <;> exact Word.ofNibbles_eq hk hn
  case loadByte | addByte | random => exact Word.ofByte_eq hk rfl
  case draw => exact Word.ofNibbles_eq hk w.toNat_n.symm
  case shiftR => exact Word.withoutY_eq (n := 0x6) hk hn |>.symm
  case shiftL => exact Word.withoutY_eq (n := 0xE) hk hn |>.symm
  all_goals exact Word.ofByte_eq hk <| by rw [hm, hy, hn]; rfl

theorem pattern_readFrom (i : Instr) (w : Word) : (i.readFrom w).pattern = i.pattern := by
  cases i
  case skip c => cases c <;> rfl
  case alu op _ _ => cases op <;> rfl
  all_goals rfl

theorem decode_eq_ok_iff : decode w = .ok i ↔ i.pattern.Fits w ∧ i.readFrom w = i := by
  constructor
  case mp =>
    intro h
    have hf := fits_of_decode h
    rw [decode_of_fits hf] at h
    exact ⟨hf, Except.ok.inj h⟩
  case mpr =>
    intro ⟨hf, hi⟩
    rw [decode_of_fits hf, hi]

theorem decode_eq_error_iff : decode w = .error ⟨w⟩ ↔ w.Unassigned := by
  constructor
  case mp => exact unassigned_of_decode
  case mpr =>
    intro h
    cases hd : decode w
    case error u => rw [← decode_error hd]
    case ok i => exact absurd h <| not_unassigned_of_fits <| fits_of_decode hd

theorem encode_decode (h : decode w = .ok i) :
    i.encode = if i.ignoresY then w.withoutY else w := by
  have ⟨hf, hi⟩ := decode_eq_ok_iff.mp h
  have he := encode_readFrom hf
  rwa [hi] at he

-- A shift is decoded from every word that differs in the ignored nibble only.
theorem decode_congr (h : decode w = .ok i) (hy : i.ignoresY) (hw : w.withoutY = w'.withoutY) :
    decode w' = .ok i := by
  have ⟨⟨hk, _, _, hn⟩, hi⟩ := decode_eq_ok_iff.mp h
  have ⟨hk₁, hx₁, hn₁⟩ := w.withoutY_reads
  have ⟨hk₂, hx₂, hn₂⟩ := w'.withoutY_reads
  rw [← hk₁, hw, hk₂] at hk
  rw [← hn₁, hw, hn₂] at hn
  have hx : w'.x = w.x := by rw [← hx₁, hw, hx₂]
  refine decode_eq_ok_iff.mpr ?_
  cases i <;> try contradiction
  all_goals
    refine ⟨⟨hk, trivial, trivial, hn⟩, ?_⟩
    rw [← hi, readFrom, readFrom, hx]

theorem eq_iff_of_decode (h : decode w = .ok i) (h' : decode w' = .ok j) :
    i = j ↔ w = w' ∨ i.ignoresY ∧ w.withoutY = w'.withoutY := by
  constructor
  case mp =>
    rintro rfl
    have he := (encode_decode h).symm.trans <| encode_decode h'
    split at he
    case isTrue hy => exact .inr ⟨hy, he⟩
    case isFalse   => exact .inl he
  case mpr =>
    rintro (rfl | ⟨hy, hw⟩)
    · exact Except.ok.inj <| h.symm.trans h'
    · exact Except.ok.inj <| (decode_congr h hy hw).symm.trans h'

-- A word fits one row at most.
theorem pattern_unique (h : i.pattern.Fits w) (h' : j.pattern.Fits w) : i.pattern = j.pattern := by
  have he : decode w = .ok (i.readFrom w) := decode_of_fits h
  have hr := Except.ok.inj <| he.symm.trans <| decode_of_fits h'
  rw [← pattern_readFrom i w, hr, pattern_readFrom]

-- The rows of the table and no other words stand for instructions, and from its word each
-- instruction is read back.
theorem decode_follows_table (w : Word) :
    (∀ i : Instr, i.pattern.Fits w → decode w = .ok (i.readFrom w)) ∧
    (∀ i j : Instr, i.pattern.Fits w → j.pattern.Fits w → i.pattern = j.pattern) ∧
    ((∀ i : Instr, ¬i.pattern.Fits w) → decode w = .error ⟨w⟩) ∧
    (decode w = .error ⟨w⟩ ↔ w.Unassigned) ∧
    (∀ i, decode w = .ok i →
      i.WellFormed ∧ i.encode = if i.ignoresY then w.withoutY else w) ∧
    (∀ i : Instr, i.WellFormed → decode i.encode = .ok i) ∧
    (∀ w' i j, decode w = .ok i → decode w' = .ok j →
      (i = j ↔ w = w' ∨ i.ignoresY ∧ w.withoutY = w'.withoutY)) := by
  refine ⟨fun _ => decode_of_fits, fun _ _ => pattern_unique, ?_, decode_eq_error_iff, ?_,
    fun _ => decode_encode, fun _ _ _ => eq_iff_of_decode⟩
  · intro hn
    cases hd : decode w
    case error => rw [← decode_error hd]
    case ok i => exact absurd (fits_of_decode hd) (hn i)
  · intro i h
    exact ⟨decode_wellFormed h, encode_decode h⟩

-- A right shift that names a register which it ignores.
theorem decode_follows_table_shift :
    (shiftR 1).pattern.Fits 0x8126 ∧ (shiftR 1).WellFormed ∧
    decode 0x8126 = .ok (shiftR 1) ∧ decode 0x8106 = .ok (shiftR 1) ∧
    (shiftR 1).encode = 0x8106 ∧ decode 0x812F = .error ⟨0x812F⟩ := by
  have hf : (shiftR 1).pattern.Fits 0x8126 := ⟨rfl, trivial, trivial, rfl⟩
  have hw : (shiftR 1).WellFormed := show UInt8.toNat 1 < 16 by decide
  have hu : Word.Unassigned 0x812F := .inr <| .inr <| .inl <| by decide
  have ⟨hd, _, _, _, hs, he, _⟩ := decode_follows_table 0x8126
  have ⟨_, _, _, hn, _⟩ := decode_follows_table 0x812F
  exact ⟨hf, hw, hd _ hf, he _ hw, (hs _ (hd _ hf)).right, hn.mpr hu⟩

end Instr
end ChipEight
