import ChipEight.Instr.Codec

namespace ChipEight

def Condition.WellFormed : Condition → Prop
  | eqByte x _ | neByte x _ | keyDown x | keyUp x => x.toNat < 16
  | eqReg x y | neReg x y => x.toNat < 16 ∧ y.toNat < 16

namespace Word

theorem x_lt (w : Word) : w.x.toNat < 16 := by
  simp only [x, nibble, UInt8.toNat_ofNat']
  omega

theorem y_lt (w : Word) : w.y.toNat < 16 := by
  simp only [y, nibble, UInt8.toNat_ofNat']
  omega

theorem n_lt (w : Word) : w.n.toNat < 16 := by
  simp only [n, nibble, UInt8.toNat_ofNat']
  omega

theorem nnn_lt (w : Word) : w.nnn.toNat < 4096 := by
  simp only [nnn, UInt16.toNat_ofNat']
  omega

theorem toNat_ofBytes (high low : UInt8) : (ofBytes high low).toNat = 256 * high.toNat + low.toNat := by
  have := high.toNat_lt
  have := low.toNat_lt
  simp only [ofBytes, UInt16.toNat_ofNat']
  omega

end Word

namespace Instr

def WellFormed : Instr → Prop
  | nop | clear | ret => True
  | jump nnn | call nnn | jumpV0 nnn | setIndex nnn => nnn.toNat < 4096
  | skip c => c.WellFormed
  | alu _ x y => x.toNat < 16 ∧ y.toNat < 16
  | draw x y n => x.toNat < 16 ∧ y.toNat < 16 ∧ n.toNat < 16
  | loadByte x _ | addByte x _ | random x _ | shiftR x | shiftL x | addIndex x | glyph x
  | getDelay x | setDelay x | setSound x | waitKey x | digits x | save x | restore x =>
    x.toNat < 16

theorem decode_wellFormed (h : decode w = .ok i) : i.WellFormed := by
  have hx := w.x_lt
  have hy := w.y_lt
  have hn := w.n_lt
  have ha := w.nnn_lt
  unfold decode at h
  split at h <;> try split at h
  all_goals cases h
  all_goals simp only [WellFormed, Condition.WellFormed, hx, hy, hn, ha, and_self]

theorem decode_error (h : decode w = .error u) : u.word = w := by
  unfold decode at h
  split at h <;> try split at h
  all_goals cases h
  all_goals rfl

end Instr
end ChipEight
