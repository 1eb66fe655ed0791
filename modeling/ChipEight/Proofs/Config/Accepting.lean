import ChipEight.Proofs.Config.Rearranging

namespace ChipEight

open Reading
open Yaml (Node)

namespace KeyEvent

namespace Field

def Value : Field → Type
  | frame   => Option Nat
  | key     => Option Key
  | pressed => Bool

def Fits : (f : Field) → Node → f.Value → Prop
  | frame,   n, v => ∃ i, n.IsNatural i ∧ v = some i
  | key,     n, v => ∃ k : Key, n.IsInteger k.val ∧ v = some k
  | pressed, n, v => n.IsBoolean v

end Field

namespace Draft

def get (d : Draft) : (f : Field) → f.Value
  | .frame   => d.frame
  | .key     => d.key
  | .pressed => d.pressed

def set (d : Draft) : (f : Field) → f.Value → Draft
  | .frame,   v => { d with frame := v }
  | .key,     v => { d with key := v }
  | .pressed, v => { d with pressed := v }

theorem ext_get {d d' : Draft} (h : ∀ f, d.get f = d'.get f) : d = d' := by
  obtain ⟨_, _, _⟩ := d
  obtain ⟨_, _, _⟩ := d'
  obtain rfl := h .frame
  obtain rfl := h .key
  obtain rfl := h .pressed
  rfl

end Draft

def grammar : schema.Grammar where
  Value := Field.Value
  Fits  := Field.Fits
  get   := Draft.get
  set   := Draft.set
  mem_fields f := by cases f <;> decide
  nodup_names  := by decide
  ext h := Draft.ext_get h
  get_set {d f v} := by cases f <;> rfl
  get_set_ne {d f v f'} h := by cases f <;> cases f' <;> trivial
  assign_eq_ok_iff {d f n d'} := by
    cases f
    case frame   => exact map_comp_eq_ok_iff (g := d.set .frame) fun _ => Node.natural_eq_ok_iff
    case key     => exact map_comp_eq_ok_iff (g := d.set .key) fun _ => Key.ofNode_eq_ok_iff
    case pressed => exact map_eq_ok_iff_of fun _ => Node.boolean_eq_ok_iff

-- What the entries of a mapping have to say about a key event.
structure Describes (es : List (Node × Node)) (event : KeyEvent) : Prop where
  names    : ∀ e ∈ es, ∃ f, schema.Names e.1 f
  distinct : (es.map (·.1.text?)).Nodup
  frame    : ∃ e ∈ es, schema.Names e.1 .frame ∧ e.2.IsNatural event.frame
  key      : ∃ e ∈ es, schema.Names e.1 .key ∧ e.2.IsInteger event.key.val
  pressed  :
    (∃ e ∈ es, schema.Names e.1 .pressed ∧ e.2.IsBoolean event.pressed) ∨
      (∀ e ∈ es, ¬schema.Names e.1 .pressed) ∧ event.pressed = true

end KeyEvent

-- A mapping that stands for a key event.
def Yaml.Node.IsEvent (n : Node) (event : KeyEvent) : Prop :=
  ∃ es, n = .mapping es ∧ event.Describes es

namespace KeyEvent

theorem Field.Fits.rearranges {f : Field} {v : f.Value} (r : Node.Rearranges n n')
    (h : f.Fits n v) : f.Fits n' v := by
  cases f
  case frame =>
    have ⟨i, hi, hv⟩ := h
    exact ⟨i, r.isNatural hi, hv⟩
  case key =>
    have ⟨k, hk, hv⟩ := h
    exact ⟨k, r.isInteger hk, hv⟩
  case pressed => exact r.isBoolean h

def draft (event : KeyEvent) : Draft where
  frame   := some event.frame
  key     := some event.key
  pressed := event.pressed

variable {event : KeyEvent}

theorem finish_eq_ok_iff {d : Draft} : d.finish = .ok event ↔ d = event.draft := by
  obtain ⟨frame, key, pressed⟩ := d
  cases event
  cases frame <;> cases key <;> simp [Draft.finish, draft]

theorem reads_draft_iff : grammar.Reads es {} event.draft ↔ event.Describes es := by
  rw [Schema.Grammar.reads_iff]
  constructor
  case mp =>
    intro ⟨hn, hd, h⟩
    refine ⟨hn, hd, ?_, ?_, h .pressed⟩
    case refine_1 =>
      obtain ⟨e, he, hk, _, hi, ⟨⟩⟩ | ⟨_, ⟨⟩⟩ := h .frame
      exact ⟨e, he, hk, hi⟩
    case refine_2 =>
      obtain ⟨e, he, hk, _, hi, ⟨⟩⟩ | ⟨_, ⟨⟩⟩ := h .key
      exact ⟨e, he, hk, hi⟩
  case mpr =>
    intro ⟨hn, hd, ⟨e, he, hk, hi⟩, ⟨e', he', hk', hi'⟩, hp⟩
    refine ⟨hn, hd, fun f => ?_⟩
    cases f
    case frame   => exact .inl ⟨e, he, hk, _, hi, rfl⟩
    case key     => exact .inl ⟨e', he', hk', _, hi', rfl⟩
    case pressed => exact hp

theorem ofNode_eq_ok_iff {n : Node} : ofNode n = .ok event ↔ n.IsEvent event := by
  simp only [ofNode, bind_eq_ok_iff, Node.entries_eq_ok_iff, grammar.read_eq_ok_iff,
    finish_eq_ok_iff]
  constructor
  case mp =>
    rintro ⟨_, ⟨es, hn | ⟨_, rfl⟩, hr⟩, rfl⟩
    case inl => exact ⟨es, hn, reads_draft_iff.mp hr⟩
    case inr => nomatch grammar.reads_nil.mp hr
  case mpr =>
    rintro ⟨es, hn, hd⟩
    exact ⟨_, ⟨es, .inl hn, reads_draft_iff.mpr hd⟩, rfl⟩

theorem isEvent_of_rearranges (r : Node.Rearranges n n') (h : n.IsEvent event) :
    n'.IsEvent event := by
  obtain ⟨es, hn, hd⟩ := h
  have ⟨es', hn', hr⟩ := grammar.reads_of_rearranges .rearranges r ⟨es, hn, reads_draft_iff.mpr hd⟩
  exact ⟨es', hn', reads_draft_iff.mp hr⟩

theorem ofNodes_eq_ok_iff : ofNodes i ns = .ok events ↔ ns.Forall₂ Node.IsEvent events := by
  induction ns generalizing i events
  case nil => simp [ofNodes, eq_comm]
  case cons n ns hi =>
    rw [List.forall₂_cons_left_iff, ofNodes]
    split
    case h_1 p hp =>
      refine iff_of_false nofun ?_
      rintro ⟨event, _, hn, _⟩
      cases hp.symm.trans <| under_eq_ok_iff.mpr <| ofNode_eq_ok_iff.mpr hn
    case h_2 event he =>
      have hn {event'} : n.IsEvent event' ↔ event' = event := by
        rw [← ofNode_eq_ok_iff, under_eq_ok_iff.mp he, Except.ok.injEq, eq_comm]
      simp only [map_eq_ok_iff, hi, hn, exists_eq_left, exists_and_left]

end KeyEvent

namespace Config

namespace Field

def Value : Field → Type
  | ticksPerFrame => Nat
  | frameRate     => Nat
  | maxFrames     => Option Nat
  | seed          => Option UInt64
  | onError       => Policy
  | bell          => Bool
  | showDisplay   => Bool
  | keys          => List KeyEvent

def Fits : (f : Field) → Node → f.Value → Prop
  | ticksPerFrame, n, v => n.IsNatural v
  | frameRate,     n, v => n.IsNatural v
  | maxFrames,     n, v => n.IsOptional v
  | seed,          n, v => n.IsOptional (v.map UInt64.toNat)
  | onError,       n, v => n.IsPolicy v
  | bell,          n, v => n.IsBoolean v
  | showDisplay,   n, v => n.IsBoolean v
  | keys,          n, v => n.Lists Node.IsEvent v

end Field

def get (c : Config) : (f : Field) → f.Value
  | .ticksPerFrame => c.ticksPerFrame
  | .frameRate     => c.frameRate
  | .maxFrames     => c.maxFrames
  | .seed          => c.seed
  | .onError       => c.onError
  | .bell          => c.bell
  | .showDisplay   => c.showDisplay
  | .keys          => c.keys

def set (c : Config) : (f : Field) → f.Value → Config
  | .ticksPerFrame, v => { c with ticksPerFrame := v }
  | .frameRate,     v => { c with frameRate := v }
  | .maxFrames,     v => { c with maxFrames := v }
  | .seed,          v => { c with seed := v }
  | .onError,       v => { c with onError := v }
  | .bell,          v => { c with bell := v }
  | .showDisplay,   v => { c with showDisplay := v }
  | .keys,          v => { c with keys := v }

theorem ext_get {c c' : Config} (h : ∀ f, c.get f = c'.get f) : c = c' := by
  obtain ⟨_, _, _, _, _, _, _, _⟩ := c
  obtain ⟨_, _, _, _, _, _, _, _⟩ := c'
  obtain rfl := h .ticksPerFrame
  obtain rfl := h .frameRate
  obtain rfl := h .maxFrames
  obtain rfl := h .seed
  obtain rfl := h .onError
  obtain rfl := h .bell
  obtain rfl := h .showDisplay
  obtain rfl := h .keys
  rfl

-- A seed has 64 bits like every number that is read.
theorem map_seed_eq_ok_iff {n : Node} {c : Config} :
    ((n.optional (Node.natural .u64)).map fun v => { c with seed := v.map .ofNat }) = .ok c' ↔
      ∃ v : Option UInt64, n.IsOptional (v.map UInt64.toNat) ∧ c' = { c with seed := v } := by
  rw [map_eq_ok_iff_of fun _ => Node.optional_eq_ok_iff]
  constructor
  case mp =>
    rintro ⟨v, hv, rfl⟩
    refine ⟨v.map .ofNat, ?_, rfl⟩
    cases v
    case none   => exact hv
    case some v => rwa [Option.map_some, Option.map_some, UInt64.toNat_ofNat_of_lt' hv.right]
  case mpr =>
    rintro ⟨v, hv, rfl⟩
    refine ⟨v.map UInt64.toNat, hv, ?_⟩
    cases v <;> simp

theorem items_ofNodes_eq_ok_iff {n : Node} :
    n.items >>= KeyEvent.ofNodes 0 = .ok events ↔ n.Lists Node.IsEvent events := by
  simp only [bind_eq_ok_iff, Node.items_eq_ok_iff, KeyEvent.ofNodes_eq_ok_iff, Node.Lists]

def grammar : schema.Grammar where
  Value := Field.Value
  Fits  := Field.Fits
  get   := get
  set   := set
  mem_fields f := by cases f <;> decide
  nodup_names  := by decide
  ext h := ext_get h
  get_set {c f v} := by cases f <;> rfl
  get_set_ne {c f v f'} h := by cases f <;> cases f' <;> trivial
  assign_eq_ok_iff {c f n c'} := by
    cases f
    case ticksPerFrame => exact map_eq_ok_iff_of fun _ => Node.natural_eq_ok_iff
    case frameRate     => exact map_eq_ok_iff_of fun _ => Node.natural_eq_ok_iff
    case maxFrames     => exact map_eq_ok_iff_of fun _ => Node.optional_eq_ok_iff
    case seed          => exact map_seed_eq_ok_iff
    case onError       => exact map_eq_ok_iff_of fun _ => Node.policy_eq_ok_iff
    case bell          => exact map_eq_ok_iff_of fun _ => Node.boolean_eq_ok_iff
    case showDisplay   => exact map_eq_ok_iff_of fun _ => Node.boolean_eq_ok_iff
    case keys          => exact map_eq_ok_iff_of fun _ => items_ofNodes_eq_ok_iff

theorem Field.Fits.rearranges {f : Field} {v : f.Value} (r : Node.Rearranges n n')
    (h : f.Fits n v) : f.Fits n' v := by
  cases f
  case ticksPerFrame => exact r.isNatural h
  case frameRate     => exact r.isNatural h
  case maxFrames     => exact r.isOptional h
  case seed          => exact r.isOptional h
  case onError       => exact r.isPolicy h
  case bell          => exact r.isBoolean h
  case showDisplay   => exact r.isBoolean h
  case keys          => exact r.lists KeyEvent.isEvent_of_rearranges h

variable {es : List (Node × Node)} {c : Config}

theorem ofNode_eq_ok_iff : ofNode (.mapping es) = .ok c ↔ grammar.Reads es {} c := by
  simp [ofNode, Node.entries, grammar.read_eq_ok_iff, bind_eq_ok_iff]

theorem ofNode_of_rearranges (r : Node.Rearranges (.mapping es) n) (h : ofNode (.mapping es) = .ok c) :
    ofNode n = .ok c := by
  have ⟨es', hn, hr⟩ :=
    grammar.reads_of_rearranges .rearranges r ⟨es, rfl, ofNode_eq_ok_iff.mp h⟩
  rw [hn, ofNode_eq_ok_iff]
  exact hr

end Config

theorem config_follows_grammar (es : List (Node × Node)) :
    ((∃ c, Config.ofNode (.mapping es) = .ok c) ↔ Config.grammar.Admits es) ∧
    (∀ c, Config.ofNode (.mapping es) = .ok c ↔ Config.grammar.Reads es {} c) ∧
    ∀ n, Node.Rearranges (.mapping es) n →
      ∀ c, Config.ofNode (.mapping es) = .ok c ↔ Config.ofNode n = .ok c := by
  refine ⟨?_, fun c => Config.ofNode_eq_ok_iff, fun n r c => ?_⟩
  case refine_1 =>
    simp only [Config.ofNode_eq_ok_iff]
    exact Config.grammar.exists_reads_iff {}
  case refine_2 =>
    obtain ⟨es', rfl⟩ := r.mapping ⟨es, rfl⟩
    exact ⟨Config.ofNode_of_rearranges r, Config.ofNode_of_rearranges r.symm⟩

-- Both the configuration and its key event are turned around.
theorem config_follows_grammar_turned :
    Config.ofNode (.record
      [("keys", .sequence [.record [("key", .scalar .plain "0xB"), ("frame", .scalar .plain "2")]]),
        ("seed", .scalar .plain "7")]) =
      .ok { seed := some 7, keys := [{ frame := 2, key := 11, pressed := true }] } := by
  have h :
      Config.ofNode (.record
        [("seed", .scalar .plain "7"),
          ("keys", .sequence
            [.record [("frame", .scalar .plain "2"), ("key", .scalar .plain "0xB")]])]) =
        .ok { seed := some 7, keys := [{ frame := 2, key := 11, pressed := true }] } := rfl
  refine (config_follows_grammar _).right.right _ ?_ _ |>.mp h
  exact .trans (.entries <| .swap ..) <| .value [] _ <| .item [] [] <| .entries <| .swap ..

-- The place of the keys may be left empty, although that is no sequence, and a zero with a minus
-- sign is refused.
theorem empty_keys_and_minus_zero :
    Config.ofNode (.record [("keys", .empty)]) = .ok {} ∧
    (∀ ns, Node.empty ≠ .sequence ns) ∧
    Config.ofNode (.record [("ticks_per_frame", .scalar .plain "-0")]) =
      .error (.wrong [.field "ticks_per_frame"] (.invalidType (.integer 0) .usize)) ∧
    (Node.scalar .plain "-0").IsInteger 0 :=
  ⟨rfl, nofun, rfl, rfl⟩

end ChipEight
