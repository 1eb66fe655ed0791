import ChipEight.Proofs.Host.Lockstep
import ChipEight.Proofs.Host.Script

namespace ChipEight

-- Takes a word without an instruction for one that does nothing.
def Instr.decodeOrNop : Decoder := fun w =>
  .ok <| (decode w).toOption.getD .nop

-- No unknown word lies at the program counter.
def Machine.Decodes (m : Machine) : Prop :=
  ∀ w, m.fetch = .ok w → ∃ i, Instr.decode w = .ok i

instance (m : Machine) : Decidable m.Decodes :=
  match hf : m.fetch with
  | .error _ => .isTrue fun w hw => by simp [hf] at hw
  | .ok w    =>
    match hd : Instr.decode w with
    | .ok i    => .isTrue fun _ hw => ⟨i, Except.ok.inj (hf.symm.trans hw) ▸ hd⟩
    | .error u => .isFalse fun h => by simpa [hd] using h w hf

-- What an operation comes to, whatever is on record.
def Outcome.result (o : Outcome σ α) : α × σ :=
  (o.answer, o.state)

namespace Emulator

variable {e : Emulator}

-- The decoders differ at an unknown word, and there only in the answer.
theorem tickWith_decodeOrNop (e : Emulator) :
    e.machine.Decodes ∧ e.tickWith Instr.decodeOrNop = e.tick ∨
    (∃ w a, e.tick.answer = .error (.unsupported w a)) ∧
      (e.tickWith Instr.decodeOrNop).answer = .ok .next ∧
      (e.tickWith Instr.decodeOrNop).state = e.tick.state := by
  simp only [tick, tickWith_eq, Machine.Decodes]
  cases e.machine.fetch
  case error => exact .inl ⟨by simp, rfl⟩
  case ok w =>
    cases hd : Instr.decode w
    case ok i =>
      have hn : Instr.decodeOrNop w = .ok i := by simp [Instr.decodeOrNop, hd, Except.toOption]
      left
      simp only [hn, hd]
      refine ⟨fun _ hw => ?_, trivial⟩
      cases hw
      exact ⟨i, hd⟩
    case error u =>
      have hn : Instr.decodeOrNop w = .ok .nop := by
        simp [Instr.decodeOrNop, hd, Except.toOption]
      simp only [hn, hd]
      exact .inr ⟨⟨_, _, rfl⟩, rfl, rfl⟩

theorem answer_of_decodes (h : e.machine.Decodes) (w a : UInt16) :
    e.tick.answer ≠ .error (.unsupported w a) := by
  intro ha
  obtain ⟨_, -, ht⟩ := ticks_of_answer ha
  cases ht
  case unknown hf hd =>
    have ⟨_, hi⟩ := h _ hf
    rw [hd] at hi
    contradiction
  case refused hr => cases hr

end Emulator

-- The policies differ at unknown words only.
theorem Policy.goesOn_of_decodes {e : Emulator} (h : e.machine.Decodes) (p q : Policy) :
    p.goesOn e.tick.answer = q.goesOn e.tick.answer := by
  cases ha : e.tick.answer
  case error f =>
    have hn (p : Policy) : p.goesOn (.error f) = false := by
      rw [goesOn_error, Bool.eq_false_iff]
      intro ht
      have ⟨_, w, a, hf⟩ := tolerates_iff.mp ht
      exact e.answer_of_decodes h w a (hf ▸ ha)
    rw [hn, hn]
  case ok signal => cases signal <;> rfl

namespace Host

-- A batch with the decoder and the policy `p` makes the same of a tick as one under `q`.
structure TicksAlike (decode : Decoder) (p q : Policy) (e : Emulator) : Prop where
  goesOn : p.goesOn (e.tickWith decode).answer = q.goesOn e.tick.answer
  state  : (e.tickWith decode).state = e.tick.state
  answer : ¬q.goesOn e.tick.answer → (e.tickWith decode).answer = e.tick.answer

namespace TicksAlike

variable {e : Emulator}

theorem of_decodes (p q : Policy) (h : e.machine.Decodes) : TicksAlike Instr.decode p q e where
  goesOn   := Policy.goesOn_of_decodes h p q
  state    := rfl
  answer _ := rfl

theorem decodeOrNop (p : Policy) (e : Emulator) : TicksAlike Instr.decodeOrNop p .ignore e := by
  rcases e.tickWith_decodeOrNop with ⟨hd, ht⟩ | ⟨⟨w, a, ha⟩, hn, hs⟩
  case inl =>
    refine ⟨?_, ?_, fun _ => ?_⟩ <;> rw [ht]
    exact Policy.goesOn_of_decodes hd p .ignore
  case inr =>
    refine ⟨?_, hs, ?_⟩
    · rw [ha, hn]
      rfl
    · rw [ha]
      exact absurd rfl

end TicksAlike

theorem batchMoments_succ (policy : Policy) (n : Nat) (e : Emulator) :
    batchMoments policy (n + 1) e =
      (if policy.goesOn e.tick.answer then batchMoments policy n e.tick.state else []) ++
        [⟨e, .tick⟩] := by
  rw [batchMoments, batchTicks]
  cases ha : e.tick.answer
  case error f =>
    rw [Policy.goesOn_error]
    cases ht : policy.tolerates f <;> simp only [ht] <;> rfl
  case ok signal => cases signal <;> rfl

-- The emulators after the ticks of a batch, one after the other.
def trail (decode : Decoder) (policy : Policy) : Nat → Emulator → List Emulator
  | 0,     _ => []
  | n + 1, e =>
    let o := e.tickWith decode
    o.state :: if policy.goesOn o.answer then trail decode policy n o.state else []

section

variable {decode : Decoder} {p q : Policy}

-- The last state on the trail is that of the batch.
theorem getLastD_trail (n : Nat) (e : Emulator) (records : Array Record) :
    (trail decode p n e).getLastD e = (batch decode p n e records).state := by
  induction n generalizing e records
  case zero => rfl
  case succ n hi =>
    rw [trail, List.getLastD_cons]
    by_cases hg : p.goesOn (e.tickWith decode).answer
    case pos =>
      have ⟨later, hb⟩ := batch_of_goesOn decode n records hg
      rw [hb, if_pos hg]
      exact hi ..
    case neg =>
      rw [batch_of_not_goesOn decode n records hg, if_neg hg]
      rfl

-- If all ticks are made the same of, then so is the batch, and it passes through the same states.
theorem batch_of_alike {e : Emulator} (records records' : Array Record)
    (ha : ∀ t ∈ batchMoments q n e, TicksAlike decode p q t.before) :
    (batch decode p n e records).result = (batch Instr.decode q n e records').result ∧
    trail decode p n e = trail Instr.decode q n e := by
  induction n generalizing e records records'
  case zero => exact ⟨rfl, rfl⟩
  case succ n hi =>
    rw [batchMoments_succ] at ha
    have ht : TicksAlike decode p q e :=
      ha ⟨e, .tick⟩ <| List.mem_append_right _ <| List.mem_singleton_self _
    rw [trail, trail, ← Emulator.tick, ht.goesOn, ht.state]
    by_cases hg : q.goesOn e.tick.answer
    case pos =>
      rw [if_pos hg] at ha
      have ha (t) (ht : t ∈ _) := ha t <| List.mem_append_left _ ht
      obtain ⟨later, hb⟩ := batch_of_goesOn decode n records (ht.goesOn.trans hg)
      obtain ⟨later', hb'⟩ := batch_of_goesOn Instr.decode n records' hg
      obtain ⟨hr, hs⟩ := hi later later' ha
      rw [hb, hb', ht.state, hs]
      exact ⟨hr, rfl⟩
    case neg =>
      have hb := batch_of_not_goesOn decode n records (ht.goesOn ▸ hg)
      have hb' := batch_of_not_goesOn Instr.decode n records' hg
      rw [hb, hb', if_neg hg, if_neg hg, ht.state, ht.answer hg]
      exact ⟨rfl, rfl⟩

-- A frame from what its batch comes to.
def close (h : Host) : Except Fault Unit × Emulator → Except Fault Unit × Host
  | (.error f, e) => (.error f, { h with emulator := e })
  | (.ok _,    e) => (.ok (), (h.finishFrame e #[]).state)

theorem result_playFrameWith (decode : Decoder) (h : Host) :
    ∃ records, (h.playFrameWith decode).result =
      h.close (batch decode h.config.onError h.config.ticksPerFrame (script h.events h.emulator)
        records).result := by
  refine ⟨(h.events.map fun event =>
    .keyEvent h.frame event.key event.pressed).toArray, ?_⟩
  simp only [playFrameWith, Outcome.result]
  split <;> rename_i ha <;> simp only [ha] <;> rfl

def withPolicy (h : Host) (policy : Policy) : Host :=
  { h with config := { h.config with onError := policy } }

theorem close_withPolicy (h : Host) (p : Policy) (r : Except Fault Unit × Emulator) :
    (h.withPolicy p).close r = (h.close r).map id (·.withPolicy p) := by
  obtain ⟨_ | _, _⟩ := r <;> rfl

variable {h : Host}

-- The emulators after the ticks of a frame.
def ticks (decode : Decoder) (h : Host) : List Emulator :=
  trail decode h.config.onError h.config.ticksPerFrame (script h.events h.emulator)

theorem batch_of_frame (records records' : Array Record) (hq : h.config.onError = q)
    (ha : ∀ t ∈ (Turn.frame h).moments, t.op = .tick → TicksAlike decode p q t.before) :
    let n := h.config.ticksPerFrame
    let e := script h.events h.emulator
    (batch decode p n e records).result = (batch Instr.decode q n e records').result ∧
    trail decode p n e = trail Instr.decode q n e := by
  refine batch_of_alike records records' fun t ht => ha t ?_ (op_of_mem_batchMoments ht)
  rw [moments_frame, hq]
  exact List.mem_append_right _ <| List.mem_append_left _ ht

theorem ticks_of_alike (hq : h.config.onError = q)
    (ha : ∀ t ∈ (Turn.frame h).moments, t.op = .tick → TicksAlike decode p q t.before) :
    (h.withPolicy p).ticks decode = h.ticks Instr.decode := by
  have ⟨_, ht⟩ := batch_of_frame #[] #[] hq ha
  rw [ticks, ticks, hq]
  exact ht

theorem playFrame_of_alike (hq : h.config.onError = q)
    (ha : ∀ t ∈ (Turn.frame h).moments, t.op = .tick → TicksAlike decode p q t.before) :
    ((h.withPolicy p).playFrameWith decode).result =
      (h.playFrame.answer, h.playFrame.state.withPolicy p) := by
  have ⟨records, hr⟩ := result_playFrameWith decode (h.withPolicy p)
  have ⟨records', hr'⟩ := result_playFrameWith Instr.decode h
  have ⟨hb, _⟩ := batch_of_frame records records' hq ha
  calc ((h.withPolicy p).playFrameWith decode).result
      = (h.withPolicy p).close (batch decode p h.config.ticksPerFrame
          (script h.events h.emulator) records).result := hr
    _ = (h.withPolicy p).close (batch Instr.decode h.config.onError h.config.ticksPerFrame
          (script h.events h.emulator) records').result := by rw [hb, hq]
    _ = (h.playFrame.answer, h.playFrame.state.withPolicy p) := by
          rw [close_withPolicy, ← hr']
          rfl

-- The answer to a request, unless it is a run that is not over.
def answer? (h : Host) : Request → Option (Except Fault Unit)
  | .frame      => some h.playFrame.answer
  | .run budget => (h.run? budget).map (·.answer)
  | .load image => some (h.load image).answer

-- What comes of a request to a host with a decoder of its own: the answer and the host after it.
def replyWith (decode : Decoder) (h : Host) : Request → Option (Except Fault Unit) × Host
  | .frame      => (h.playFrameWith decode).result.map some id
  | .run budget => go budget h
  | .load image => (h.load image).result.map some id
where
  go (budget : Nat) (h : Host) : Option (Except Fault Unit) × Host :=
    if h.atLimit then
      (some (.ok ()), h)
    else
      match budget with
      | 0          => (none, h)
      | budget + 1 =>
        match (h.playFrameWith decode).result with
        | (.error f, h) => (some (.error f), h)
        | (.ok _,    h) => go budget h

def repliesWith (decode : Decoder) (h : Host) :
    List Request → List (Option (Except Fault Unit) × Host)
  | []      => []
  | r :: rs => h.replyWith decode r :: (h.replyWith decode r).2.repliesWith decode rs

theorem go_decode (budget : Nat) (h : Host) (records : Array Record) :
    replyWith.go Instr.decode budget h =
      ((run?.go budget h records).map (·.answer),
        (run?.go budget h records).elim ((·.playFrame.state)^[budget] h) (·.state)) := by
  induction budget generalizing h records
  case zero =>
    rw [replyWith.go, run?.go]
    split <;> rfl
  case succ budget hi =>
    rw [replyWith.go, run?.go, ← playFrame, Outcome.result]
    split
    case isTrue => rfl
    case isFalse =>
      simp only
      cases h.playFrame.answer
      case error => rfl
      case ok    => exact hi ..

theorem replyWith_decode (h : Host) (r : Request) :
    h.replyWith Instr.decode r = (h.answer? r, h.serve r) := by
  cases r
  case frame | load => rfl
  case run budget   => exact go_decode budget h #[]

theorem frame_mem_runTurns (hl : ¬h.atLimit) (budget : Nat) :
    .frame h ∈ runTurns (budget + 1) h := by
  rw [runTurns, if_neg hl]
  split <;> simp

theorem go_of_alike (hq : h.config.onError = q)
    (ha : ∀ t ∈ (runTurns budget h).flatMap Turn.moments,
      t.op = .tick → TicksAlike decode p q t.before) :
    replyWith.go decode budget (h.withPolicy p) =
      (replyWith.go Instr.decode budget h).map id (·.withPolicy p) := by
  have hl (h : Host) : (h.withPolicy p).atLimit = h.atLimit := rfl
  induction budget generalizing h
  case zero =>
    rw [replyWith.go, replyWith.go, hl]
    split <;> rfl
  case succ budget hi =>
    rw [replyWith.go, replyWith.go, hl]
    split
    case isTrue => rfl
    case isFalse hn =>
      have hf (t) (ht : t ∈ (Turn.frame h).moments) :=
        ha t <| List.mem_flatMap.mpr ⟨_, frame_mem_runTurns hn budget, ht⟩
      rw [playFrame_of_alike hq hf, ← playFrame, Outcome.result]
      cases hp : h.playFrame.answer
      case error => rfl
      case ok =>
        rw [runTurns, if_neg hn, hp] at ha
        have hc : h.playFrame.state.config = h.config := (Leads.frame h).config_eq
        refine hi (hc ▸ hq) fun t ht => ha t ?_
        rw [List.flatMap_append]
        exact List.mem_append_left _ ht

theorem replyWith_of_alike {r : Request} (hq : h.config.onError = q)
    (ha : ∀ t ∈ (h.turns r).flatMap Turn.moments,
      t.op = .tick → TicksAlike decode p q t.before) :
    (h.withPolicy p).replyWith decode r =
      (h.replyWith Instr.decode r).map id (·.withPolicy p) := by
  cases r
  case frame =>
    have hf (t) (ht : t ∈ (Turn.frame h).moments) := ha t <| by simpa [turns] using ht
    exact congrArg (Prod.map some id) <| playFrame_of_alike hq hf
  case run budget => exact go_of_alike hq ha
  case load image =>
    by_cases hl : image.length ≤ Memory.programCapacity
    case pos => simp only [replyWith, load_of_fits hl]; rfl
    case neg => simp only [replyWith, load_of_oversized hl]; rfl

theorem repliesWith_of_alike {rs : List Request} (hq : h.config.onError = q)
    (ha : ∀ t ∈ (h.history rs).flatMap Turn.moments,
      t.op = .tick → TicksAlike decode p q t.before) :
    (h.withPolicy p).repliesWith decode rs =
      (h.repliesWith Instr.decode rs).map (Prod.map id (·.withPolicy p)) := by
  induction rs generalizing h
  case nil => rfl
  case cons r rs hi =>
    have hc : (h.serve r).config = h.config := (leads_turns h r).config_eq
    have hs : (h.replyWith Instr.decode r).2 = h.serve r := by rw [replyWith_decode]
    simp only [history, List.flatMap_append, List.mem_append] at ha
    have hr := replyWith_of_alike hq fun t ht => ha t (.inr ht)
    have hi := hi (hc ▸ hq) fun t ht => ha t (.inl ht)
    rw [repliesWith, repliesWith, hr, List.map_cons, hs, ← hi, ← hs]
    rfl

-- With the decoder and under the policy, the host would give the same answers to the requests, and
-- it would be in the same states after them and after the ticks on the way.
structure AgreesWith (decode : Decoder) (p : Policy) (h : Host) (rs : List Request) : Prop where
  replies : (h.withPolicy p).repliesWith decode rs =
    (h.repliesWith Instr.decode rs).map (Prod.map id (·.withPolicy p))
  ticks : ∀ h', .frame h' ∈ h.history rs → (h'.withPolicy p).ticks decode = h'.ticks Instr.decode

theorem AgreesWith.of_alike {rs : List Request} (hq : h.config.onError = q)
    (ha : ∀ t ∈ (h.history rs).flatMap Turn.moments,
      t.op = .tick → TicksAlike decode p q t.before) :
    h.AgreesWith decode p rs where
  replies := repliesWith_of_alike hq ha
  ticks h' hh := by
    have ⟨_, l⟩ := (h.leads_history rs).exists_of_mem hh
    have hc : h'.config = h.config := l.config_eq
    refine ticks_of_alike (hc ▸ hq) fun t ht => ha t ?_
    exact List.mem_flatMap.mpr ⟨_, hh, ht⟩

end

-- A host that ignores unknown words agrees with one for which they do nothing. A frame fails if and
-- only if a tick fails otherwise, and it leaves the state after this tick. All policies agree as long
-- as no unknown word comes up.
theorem unknown_words_idle (h : Host) (requests : List Request) :
    (h.config.onError = .ignore → ∀ p, h.AgreesWith Instr.decodeOrNop p requests) ∧
    (∀ f, h.playFrame.answer = .error f ↔ ∃ k, h.FailsAt k f) ∧
    (∀ k f, h.FailsAt k f → h.playFrame.state = { h with emulator := h.midFrame (k + 1) }) ∧
    (∀ k f,
      k < h.config.ticksPerFrame →
      (∀ j < k, h.config.onError.goesOn (h.midFrame j).tick.answer) →
      (h.midFrame k).tick.answer = .error f →
      (∀ w a, f ≠ .unsupported w a) →
      h.playFrame.answer = .error f) ∧
    ((∀ t ∈ (h.history requests).flatMap Turn.moments,
      t.op = .tick → t.before.machine.Decodes) → ∀ p, h.AgreesWith Instr.decode p requests) := by
  refine ⟨?_, fun _ => playFrame_eq_error_iff, fun _ _ hf => hf.playFrame_state, ?_, ?_⟩
  · intro hq p
    exact .of_alike hq fun t _ _ => .decodeOrNop p t.before
  · intro k f hk he ha hf
    refine playFrame_eq_error_iff.mpr ⟨k, hk, he, ha, ?_⟩
    intro ⟨_, w, a, hu⟩
    exact hf w a hu
  · intro hd p
    exact .of_alike rfl fun t ht ho => .of_decodes p h.config.onError (hd t ht ho)

-- A return that was never called for, once after an unknown word and once after a known one.
theorem unknown_words_idle_return :
    let config : Config := { onError := .ignore, ticksPerFrame := 2 }
    let new := create config ⟨fun _ => 0, 0⟩
    let h₁ := (new.load [0xFF, 0xFF, 0x00, 0xEE]).state
    let h₂ := (new.load [0x60, 0x11, 0x00, 0xEE]).state
    h₁.AgreesWith Instr.decodeOrNop .halt [.frame] ∧
    h₁.FailsAt 1 (.stackUnderflow 0x202) ∧
    h₁.playFrame.answer = .error (.stackUnderflow 0x202) ∧
    h₁.playFrame.state = { h₁ with emulator := h₁.midFrame 2 } ∧
    h₂.AgreesWith Instr.decode .halt [.frame] := by
  intro config new h₁ h₂
  have ⟨hg, ha⟩ : h₁.config.onError.goesOn (h₁.midFrame 0).tick.answer ∧
      (h₁.midFrame 1).tick.answer = .error (.stackUnderflow 0x202) := by
    decide +kernel
  have hd : ∀ t ∈ (h₂.history [.frame]).flatMap Turn.moments, t.before.machine.Decodes := by
    decide +kernel
  have he : ∀ j < 1, h₁.config.onError.goesOn (h₁.midFrame j).tick.answer := by
    intro j hj
    rwa [Nat.lt_one_iff.mp hj]
  have hf : h₁.FailsAt 1 (.stackUnderflow 0x202) := ⟨by decide, he, ha, nofun⟩
  have ⟨hi, _, hs, hp, _⟩ := unknown_words_idle h₁ [.frame]
  have ⟨_, _, _, _, hk⟩ := unknown_words_idle h₂ [.frame]
  refine ⟨hi rfl .halt, hf, ?_, hs 1 _ hf, ?_⟩
  · exact hp 1 _ hf.lt hf.earlier hf.answer nofun
  · exact hk (fun t ht _ => hd t ht) .halt

end Host
end ChipEight
