import ChipEight.Proofs.Machine.Execute

namespace ChipEight

-- How many bytes at the index register an instruction reads or writes, if it accesses memory.
def Instr.access? : Instr → Option Nat
  | draw _ _ n         => some n.toNat
  | digits _           => some 3
  | save x | restore x => some (x.toNat + 1)
  | _                  => none

-- Where these take the program counter depends on the machine or on the instruction.
def Instr.steers : Instr → Bool
  | ret | jump _ | call _ | jumpV0 _ | skip _ | waitKey _ => true
  | _                                                     => false

namespace Machine

variable {m m' : Machine} {noise : Noise}

theorem onSpan_eq_ok_iff : m.onSpan len next = .ok r ↔ Memory.Spans m.index.toNat len ∧ r = next := by
  unfold onSpan
  split <;> simp [*, eq_comm]

theorem onSpan_eq_error_iff :
    m.onSpan len next = .error f ↔
      ¬Memory.Spans m.index.toNat len ∧ f = .outsideMemory m.index.toNat len := by
  unfold onSpan
  split <;> simp [*, eq_comm]

inductive Refuses (m : Machine) : Instr → Fault → Prop
  | call (h : m.stack.toList.length = CallStack.capacity) :
    Refuses m (.call nnn) (.stackOverflow (m.pc - 2))
  | ret (h : m.stack.toList = []) : Refuses m .ret (.stackUnderflow (m.pc - 2))
  | access (ha : i.access? = some len) (hs : ¬Memory.Spans m.index.toNat len) :
    Refuses m i (.outsideMemory m.index.toNat len)

theorem Refuses.of_execute (h : m.execute noise i = .error f) : m.Refuses i f := by
  cases i <;> simp only [execute, onSpan_eq_error_iff, reduceCtorEq] at h
  case ret =>
    split at h
    · cases h; exact .ret <| CallStack.pop?_eq_none_iff.mp ‹_›
    · contradiction
  case call =>
    split at h
    · cases h; exact .call <| CallStack.push?_eq_none_iff.mp ‹_›
    · contradiction
  case alu => split at h <;> contradiction
  case waitKey => split at h <;> contradiction
  all_goals
    obtain ⟨hs, rfl⟩ := h
    exact .access rfl hs

theorem Refuses.execute (h : m.Refuses i f) : m.execute noise i = .error f := by
  cases h
  case call h => simp [Machine.execute, CallStack.push?_eq_none_iff.mpr h]
  case ret h  => simp [Machine.execute, CallStack.pop?_eq_none_iff.mpr h]
  case access hs ha =>
    cases i <;> cases ha
    all_goals exact onSpan_eq_error_iff.mpr ⟨hs, rfl⟩

-- Where an executed instruction takes the program counter, which is past it already.
inductive Course (m : Machine) : Instr → UInt16 → Prop
  | on     (h : i.steers = false) : Course m i m.pc
  | skip   (h : m.holds c) : Course m (.skip c) (m.pc + 2)
  | keep   (h : ¬m.holds c) : Course m (.skip c) m.pc
  | jump   : Course m (.jump nnn) nnn
  | call   : Course m (.call nnn) nnn
  | ret    (h : m.stack.pop? = some (a, s)) : Course m .ret a
  | jumpV0 : Course m (.jumpV0 nnn) ((m.reg 0).toUInt16 + nnn)
  | wake   (h : m.keys.first? = some k) : Course m (.waitKey x) m.pc
  | stall  (h : m.keys.first? = none) : Course m (.waitKey x) (m.pc - 2)

theorem Course.of_execute (h : m.execute noise i = .ok (signal, m')) : m.Course i m'.pc := by
  cases i <;> simp only [execute, onSpan_eq_ok_iff, Except.ok.injEq, Prod.mk.injEq] at h
  case ret =>
    split at h <;> cases h
    exact .ret ‹_›
  case call => split at h <;> cases h; exact .call
  case jump => obtain ⟨_, rfl⟩ := h; exact .jump
  case jumpV0 => obtain ⟨_, rfl⟩ := h; exact .jumpV0
  case skip =>
    obtain ⟨_, rfl⟩ := h
    split
    · exact .skip ‹_›
    · exact .keep ‹_›
  case waitKey =>
    split at h <;> cases h
    · exact .wake ‹_›
    · exact .stall ‹_›
  case alu => split at h <;> cases h <;> exact .on rfl
  case draw | digits | save | restore =>
    obtain ⟨_, _, rfl⟩ := h
    exact .on rfl
  all_goals
    obtain ⟨_, rfl⟩ := h
    exact .on rfl

-- What an instruction does not write stays as it is.
structure Frame (m : Machine) (i : Instr) (m' : Machine) : Prop where
  keys    : m'.keys = m.keys
  stack   : (∀ nnn, i ≠ .call nnn) → i ≠ .ret → m'.stack = m.stack
  display : i ≠ .clear → (∀ x y n, i ≠ .draw x y n) → m'.display = m.display
  ram     : (∀ x, i ≠ .digits x) → (∀ x, i ≠ .save x) → m'.ram = m.ram
  delay   : (∀ x, i ≠ .setDelay x) → m'.delay = m.delay
  sound   : (∀ x, i ≠ .setSound x) → m'.sound = m.sound
  waiting : (∀ x, i ≠ .waitKey x) → m'.waiting = m.waiting

theorem Frame.of_execute (h : m.execute noise i = .ok (signal, m')) : m.Frame i m' := by
  cases i <;> simp only [execute, onSpan_eq_ok_iff, Except.ok.injEq, Prod.mk.injEq] at h
  case ret | call | alu | waitKey =>
    split at h <;> cases h <;> constructor <;> simp [setReg, setFlagged]
  case skip =>
    obtain ⟨_, rfl⟩ := h
    split <;> constructor <;> simp
  case draw | digits | save | restore =>
    obtain ⟨_, _, rfl⟩ := h
    constructor <;> simp [drawSprite, store]
  all_goals
    obtain ⟨_, rfl⟩ := h
    constructor <;> simp [setReg, setFlagged]

theorem execute_call (h : m.execute noise (.call nnn) = .ok (signal, m')) :
    signal = .jump ∧ m'.stack.toList = m.stack.toList ++ [m.pc] := by
  simp only [execute] at h
  split at h <;> cases h
  exact ⟨rfl, CallStack.toList_push ‹_›⟩

theorem execute_ret (h : m.execute noise .ret = .ok (signal, m')) :
    signal = .jump ∧ m.stack.toList = m'.stack.toList ++ [m'.pc] := by
  simp only [execute] at h
  split at h <;> cases h
  exact ⟨rfl, CallStack.toList_pop ‹_›⟩

theorem execute_clear (h : m.execute noise .clear = .ok (signal, m')) : m'.display = .blank := by
  cases h
  rfl

theorem execute_draw (h : m.execute noise (.draw x y n) = .ok (signal, m')) :
    m' = m.drawSprite x y n := by
  have ⟨_, hr⟩ := onSpan_eq_ok_iff.mp h
  exact congrArg Prod.snd hr

end Machine
end ChipEight
