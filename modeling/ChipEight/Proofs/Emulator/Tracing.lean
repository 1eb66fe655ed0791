import ChipEight.Proofs.Emulator.Outcomes
import ChipEight.Proofs.Instr.Table
import ChipEight.Proofs.Instr.Wording

namespace ChipEight

-- Both lists go on in the same way after the first of the separators.
theorem append_cons_inj_of_first {c : Char} (hs : c ∉ s) (hs' : c ∉ s')
    (h : s ++ c :: t = s' ++ c :: t') : s = s' ∧ t = t' := by
  have hp := congrArg (List.splitOn c) h
  rw [List.splitOn_append_cons_self_of_not_mem hs,
    List.splitOn_append_cons_self_of_not_mem hs'] at hp
  obtain rfl := (List.cons.inj hp).left
  exact ⟨rfl, (List.cons.inj <| List.append_cancel_left h).right⟩

namespace Level

theorem blank_notMem_name (l : Level) : ' ' ∉ l.name.toList := by
  cases l <;> simp [name]

theorem eq_trace_of_name (h : l.name = trace.name) : l = trace := by
  cases l
  case trace => rfl
  all_goals simp [name] at h

end Level

namespace Record

variable {r r' : Record}

theorem toList_line (r : Record) :
    r.line.toList = r.level.name.toList ++ ' ' :: r.message.toList := by
  rw [line, String.toList_append, String.toList_append, List.append_assoc]
  rfl

theorem message_executing (address : Word) (i : Instr) :
    (executing address i).message = Numeral.upperHex 4 address.toNat ++ ": " ++ i.mnemonic :=
  rfl

theorem toList_message_executing (address : Word) (i : Instr) :
    (executing address i).message.toList =
      (Numeral.upperHex 4 address.toNat).toList ++ ':' :: ' ' :: i.mnemonic.toList := by
  rw [message_executing, String.toList_append, String.toList_append, List.append_assoc]
  rfl

theorem name_message_of_line (h : r.line = r'.line) :
    r.level.name = r'.level.name ∧ r.message = r'.message := by
  have hl := congrArg String.toList h
  rw [toList_line, toList_line] at hl
  have ⟨hn, hm⟩ :=
    append_cons_inj_of_first r.level.blank_notMem_name r'.level.blank_notMem_name hl
  exact ⟨String.toList_inj.mp hn, String.toList_inj.mp hm⟩

theorem exists_executing_of_trace (h : r.level = .trace) :
    ∃ address i, r = executing address i := by
  cases r
  case executing => exact ⟨_, _, rfl⟩
  all_goals contradiction

theorem executing_message_inj (h : (executing a i).message = (executing b j).message) :
    a = b ∧ i = j := by
  have colon (w : Word) : ':' ∉ (Numeral.upperHex 4 w.toNat).toList := fun hc =>
    absurd (Numeral.isAlphanum_of_mem_upperHex hc) (by decide)
  have hl := congrArg String.toList h
  rw [toList_message_executing, toList_message_executing] at hl
  have ⟨ha, hi⟩ := append_cons_inj_of_first (colon a) (colon b) hl
  have ha := congrArg Numeral.ofUpperHex ha
  rw [Numeral.ofUpperHex_upperHex, Numeral.ofUpperHex_upperHex] at ha
  have hi := String.toList_inj.mp (List.cons.inj hi).right
  exact ⟨UInt16.toNat_inj.mp ha, Instr.mnemonic_injective hi⟩

theorem line_eq_executing_iff : r.line = (executing a i).line ↔ r = executing a i := by
  constructor
  case mpr => exact congrArg line
  case mp =>
    intro h
    have ⟨hn, hm⟩ := name_message_of_line h
    obtain ⟨b, j, rfl⟩ := exists_executing_of_trace <| Level.eq_trace_of_name hn
    obtain ⟨rfl, rfl⟩ := executing_message_inj hm
    rfl

end Record

-- The line of an instruction and the address that it was read from.
def traceLine (p : Word × Instr) : String :=
  (Record.executing p.1 p.2).line

-- The lines that only the most detailed journal has.
def traceOf (records : Array Record) : List String :=
  records.toList.filter (·.level = .trace) |>.map Record.line

-- The instruction that a tick reads, whether or not it is refused then.
def Moment.fetched? (t : Moment) : Option (Word × Instr) :=
  match t.op with
  | .tick => t.before.machine.instr?.map (t.before.machine.pc, ·)
  | _     => none

-- The instructions of a history, oldest first.
def fetches (h : List Moment) : List (Word × Instr) :=
  h.reverse.filterMap Moment.fetched?

theorem traceLine_injective : Function.Injective traceLine := by
  intro p q h
  have he := Record.line_eq_executing_iff.mp h
  exact Prod.ext (Record.executing.inj he).left (Record.executing.inj he).right

@[simp]
theorem traceOf_append (rs rs' : Array Record) :
    traceOf (rs ++ rs') = traceOf rs ++ traceOf rs' := by
  simp [traceOf]

@[simp]
theorem fetches_append (h h' : List Moment) : fetches (h ++ h') = fetches h' ++ fetches h := by
  simp [fetches]

namespace Emulator

variable {e : Emulator}

def trace (e : Emulator) (ops : List Operation) : List String :=
  e.outcomes ops |>.flatMap (traceOf ·.records)

theorem fetches_tick (e : Emulator) :
    fetches [⟨e, .tick⟩] = (e.machine.instr?.map (e.machine.pc, ·)).toList := by
  cases h : e.machine.instr? <;> simp [fetches, Moment.fetched?, h]

theorem traceOf_tick (e : Emulator) :
    traceOf e.tick.records = (fetches [⟨e, .tick⟩]).map traceLine := by
  rw [fetches_tick, tick, tickWith_eq, Machine.instr?]
  cases e.machine.fetch
  case error => rfl
  case ok w =>
    cases hd : Instr.decode w
    case error => simp [traceOf, hd, Except.toOption]
    case ok i =>
      simp only [hd]
      split <;> simp [traceOf, traceLine, Record.level, Except.toOption]

theorem traceOf_go (n : Nat) (e : Emulator) (signal : Signal) (records : Array Record) :
    traceOf (run.go n e signal records).records =
      traceOf records ++ (fetches (runMoments n e)).map traceLine := by
  induction n generalizing e signal records
  case zero => simp [run.go, runMoments, fetches]
  case succ n hi =>
    simp only [run.go, runMoments]
    cases e.tick.answer
    case error => rw [traceOf_append, traceOf_tick]
    case ok =>
      rw [hi, traceOf_append, traceOf_tick, fetches_append, List.map_append, List.append_assoc]

theorem traceOf_perform (e : Emulator) (op : Operation) :
    traceOf (e.perform op).records = (fetches (e.moments op)).map traceLine := by
  cases op
  case tick => exact e.traceOf_tick
  case run n => exact e.traceOf_go n .next #[]
  case load image =>
    by_cases hl : image.length ≤ Memory.programCapacity
    · rw [perform, load_of_fits hl]
      rfl
    · rw [perform, load_of_oversized hl]
      rfl
  all_goals rfl

theorem trace_eq_map_fetches (e : Emulator) (ops : List Operation) :
    e.trace ops = (fetches (e.history ops)).map traceLine := by
  induction ops generalizing e
  case nil => rfl
  case cons op ops hi =>
    rw [history, fetches_append, List.map_append, ← hi, ← traceOf_perform]
    rfl

theorem trace_eq_iff {e' : Emulator} :
    e.trace ops = e'.trace ops' ↔ fetches (e.history ops) = fetches (e'.history ops') := by
  rw [trace_eq_map_fetches, trace_eq_map_fetches]
  exact (List.map_injective_iff.mpr traceLine_injective).eq_iff

end Emulator

-- Mnemonics tell instructions, and words but for the nibble that the shifts ignore. The line of an
-- instruction is no other record's, and runs with the same trace read the same instructions at the
-- same addresses.
theorem trace_tells_instructions :
    (∀ i j : Instr, i.mnemonic = j.mnemonic ↔ i = j) ∧
    (∀ w w' i j, Instr.decode w = .ok i → Instr.decode w' = .ok j →
      (i.mnemonic = j.mnemonic ↔ w = w' ∨ i.ignoresY ∧ w.withoutY = w'.withoutY)) ∧
    (∀ (r : Record) (address : Word) (i : Instr),
      r.line = (Record.executing address i).line ↔ r = .executing address i) ∧
    (∀ (e e' : Emulator) (ops ops' : List Operation),
      e.trace ops = e'.trace ops' ↔ fetches (e.history ops) = fetches (e'.history ops')) := by
  refine ⟨?_, ?_, fun _ _ _ => Record.line_eq_executing_iff, fun _ _ _ _ => Emulator.trace_eq_iff⟩
  · exact fun _ _ => Instr.mnemonic_injective.eq_iff
  · intro w w' i j hi hj
    rw [Instr.mnemonic_injective.eq_iff]
    exact Instr.eq_iff_of_decode hi hj

-- A byte and a register are loaded under the same name; a shift names a register in vain.
theorem trace_tells_instructions_loads :
    Instr.decode 0x6102 = .ok (.loadByte 1 2) ∧ Instr.decode 0x8120 = .ok (.alu .set 1 2) ∧
    (Instr.loadByte 1 2).mnemonic ≠ (Instr.alu .set 1 2).mnemonic ∧
    Instr.decode 0x8126 = .ok (.shiftR 1) ∧ Instr.decode 0x8106 = .ok (.shiftR 1) ∧
    Word.withoutY 0x8126 = Word.withoutY 0x8106 := by
  have ⟨_, hw, _, _⟩ := trace_tells_instructions
  have hb : Instr.decode 0x6102 = .ok (.loadByte 1 2) := by decide
  have hr : Instr.decode 0x8120 = .ok (.alu .set 1 2) := by decide
  have hs : Instr.decode 0x8126 = .ok (.shiftR 1) := by decide
  have hs' : Instr.decode 0x8106 = .ok (.shiftR 1) := by decide
  refine ⟨hb, hr, fun h => ?_, hs, hs', ?_⟩
  · have h := (hw _ _ _ _ hb hr).mp h
    revert h
    decide
  · have h := (hw _ _ _ _ hs hs').mp rfl
    exact (h.resolve_left (by decide)).right

end ChipEight
