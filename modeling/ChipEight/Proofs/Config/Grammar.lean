import ChipEight.Config.Read
import Mathlib.Data.List.Nodup
import Mathlib.Data.List.Perm.Basic

namespace ChipEight

namespace Reading

variable {r : Reading α}

theorem map_eq_ok_iff {f : α → β} : r.map f = .ok b ↔ ∃ a, r = .ok a ∧ b = f a := by
  cases r <;> simp [Except.map, eq_comm]

theorem map_eq_ok_iff_of {p : α → Prop} {f : α → β} (hp : ∀ a, r = .ok a ↔ p a) :
    r.map f = .ok b ↔ ∃ a, p a ∧ b = f a := by
  rw [map_eq_ok_iff]
  simp only [hp]

theorem map_comp_eq_ok_iff {p : α → Prop} {f : α → β} {g : β → γ} (hp : ∀ a, r = .ok a ↔ p a) :
    r.map (fun a => g (f a)) = .ok c ↔ ∃ b, (∃ a, p a ∧ b = f a) ∧ c = g b := by
  rw [map_eq_ok_iff_of hp]
  constructor
  case mp  => exact fun ⟨a, ha, hc⟩ => ⟨f a, ⟨a, ha, rfl⟩, hc⟩
  case mpr => exact fun ⟨_, ⟨a, ha, hb⟩, hc⟩ => ⟨a, ha, hb ▸ hc⟩

theorem bind_eq_ok_iff {f : α → Reading β} : r >>= f = .ok b ↔ ∃ a, r = .ok a ∧ f a = .ok b := by
  cases r <;> simp [bind, Except.bind]

theorem under_eq_ok_iff : under place r = .ok a ↔ r = .ok a := by
  cases r <;> simp [under, Except.mapError]

end Reading

open Reading Yaml

-- The text of a scalar, whatever it resolves to.
def Yaml.Node.text? : Node → Option String
  | scalar _ s => some s
  | _          => none

theorem Yaml.Node.refuse_ne_ok {n : Node} : n.refuse expected ≠ (.ok a : Reading α) := by
  rw [refuse, ne_eq, bind_eq_ok_iff]
  rintro ⟨_, _, h⟩
  contradiction

theorem Yaml.Node.fieldName_eq_ok_iff {n : Node} : n.fieldName = .ok s ↔ n.text? = some s := by
  cases n <;> simp [fieldName, text?, refuse_ne_ok]

namespace Schema

variable {φ σ : Type}

def Names (s : Schema φ σ) (key : Node) (f : φ) : Prop :=
  key.text? = some (s.name f)

-- The values that the fields of a draft can have, and the nodes that stand for a value.
structure Grammar (s : Schema φ σ) where
  Value            : φ → Type
  Fits             : (f : φ) → Node → Value f → Prop
  get              : σ → (f : φ) → Value f
  set              : σ → (f : φ) → Value f → σ
  mem_fields       : ∀ f, f ∈ s.fields
  nodup_names      : (s.fields.map s.name).Nodup
  ext              : ∀ {d d'}, (∀ f, get d f = get d' f) → d = d'
  get_set          : ∀ {d f v}, get (set d f v) f = v
  get_set_ne       : ∀ {d f v f'}, f' ≠ f → get (set d f v) f' = get d f'
  assign_eq_ok_iff : ∀ {d f n d'}, s.assign d f n = .ok d' ↔ ∃ v, Fits f n v ∧ d' = set d f v

namespace Grammar

variable {s : Schema φ σ} (g : s.Grammar)

-- The draft that the entries of a mapping make of another one.
structure Reads (es : List (Node × Node)) (start d : σ) : Prop where
  names    : ∀ e ∈ es, ∃ f, s.Names e.1 f
  distinct : (es.map (·.1.text?)).Nodup
  named    : ∀ e ∈ es, ∀ f, s.Names e.1 f → g.Fits f e.2 (g.get d f)
  absent   : ∀ f, (∀ e ∈ es, ¬s.Names e.1 f) → g.get d f = g.get start f

structure Admits (es : List (Node × Node)) : Prop where
  names    : ∀ e ∈ es, ∃ f, s.Names e.1 f
  distinct : (es.map (·.1.text?)).Nodup
  fits     : ∀ e ∈ es, ∀ f, s.Names e.1 f → ∃ v, g.Fits f e.2 v

section

variable {es es' : List (Node × Node)} {start d : σ} {key n : Node} {f f' : φ}

theorem Names.text_notMem (hk : s.Names key f) :
    key.text? ∉ es.map (·.1.text?) ↔ ∀ e ∈ es, ¬s.Names e.1 f := by
  rw [List.mem_map, hk]
  simp only [Names, not_exists, not_and]

include g in
theorem name_injective : s.name.Injective :=
  fun f f' => List.inj_on_of_nodup_map g.nodup_names (g.mem_fields f) (g.mem_fields f')

include g in
theorem names_unique (h : s.Names key f) (h' : s.Names key f') : f = f' :=
  g.name_injective <| Option.some.inj <| h.symm.trans h'

include g in
theorem find?_eq_some_iff : s.find? text = some f ↔ text = s.name f := by
  have hn {f' : φ} (h : s.find? text = some f') : s.name f' = text := by
    simpa using List.find?_some h
  constructor
  case mp => exact fun h => (hn h).symm
  case mpr =>
    intro ht
    cases h : s.find? text
    case none =>
      have hf := List.find?_eq_none.mp h f (g.mem_fields f)
      exact absurd (beq_iff_eq.mpr ht.symm) hf
    case some f' => rw [g.name_injective <| (hn h).trans ht]

include g in
theorem field_eq_ok_iff : key.fieldName >>= s.field = .ok f ↔ s.Names key f := by
  have hf (text : String) : s.field text = .ok f ↔ text = s.name f := by
    rw [← g.find?_eq_some_iff, field]
    cases s.find? text <;> simp
  rw [bind_eq_ok_iff, Names]
  simp only [Node.fieldName_eq_ok_iff, hf, exists_eq_right]

-- An entry that comes first is an assignment to the draft that the others are read into.
theorem reads_cons :
    g.Reads ((key, n) :: es) start d ↔
      ∃ f v, s.Names key f ∧ (∀ e ∈ es, ¬s.Names e.1 f) ∧ g.Fits f n v ∧
        g.Reads es (g.set start f v) d := by
  constructor
  case mp =>
    intro r
    have ⟨⟨f, hk⟩, hn⟩ := List.forall_mem_cons.mp r.names
    have ⟨hd, hs⟩ := List.nodup_cons.mp r.distinct
    have ⟨hv, hr⟩ := List.forall_mem_cons.mp r.named
    refine ⟨f, g.get d f, hk, (Names.text_notMem hk).mp hd, hv f hk, hn, hs, hr, fun f' ha => ?_⟩
    by_cases hf : f' = f
    case pos => rw [hf, g.get_set]
    case neg =>
      rw [g.get_set_ne hf]
      exact r.absent f' <| List.forall_mem_cons.mpr ⟨fun hk' => hf <| g.names_unique hk' hk, ha⟩
  case mpr =>
    rintro ⟨f, v, hk, hd, hv, r⟩
    have hg : g.get d f = v := by rw [r.absent f hd, g.get_set]
    constructor
    case names    => exact List.forall_mem_cons.mpr ⟨⟨f, hk⟩, r.names⟩
    case distinct => exact List.nodup_cons.mpr ⟨(Names.text_notMem hk).mpr hd, r.distinct⟩
    case named    =>
      refine List.forall_mem_cons.mpr ⟨fun f' hk' => ?_, r.named⟩
      rwa [g.names_unique hk' hk, hg]
    case absent   =>
      intro f' ha
      have ⟨hk', ha⟩ := List.forall_mem_cons.mp ha
      have hf : f' ≠ f := fun hf => hk' <| hf ▸ hk
      rw [r.absent f' ha, g.get_set_ne hf]

theorem admits_cons :
    g.Admits ((key, n) :: es) ↔
      ∃ f v, s.Names key f ∧ (∀ e ∈ es, ¬s.Names e.1 f) ∧ g.Fits f n v ∧ g.Admits es := by
  constructor
  case mp =>
    intro a
    have ⟨⟨f, hk⟩, hn⟩ := List.forall_mem_cons.mp a.names
    have ⟨hd, hs⟩ := List.nodup_cons.mp a.distinct
    have ⟨hv, hf⟩ := List.forall_mem_cons.mp a.fits
    have ⟨v, hv⟩ := hv f hk
    exact ⟨f, v, hk, (Names.text_notMem hk).mp hd, hv, hn, hs, hf⟩
  case mpr =>
    rintro ⟨f, v, hk, hd, hv, a⟩
    constructor
    case names    => exact List.forall_mem_cons.mpr ⟨⟨f, hk⟩, a.names⟩
    case distinct => exact List.nodup_cons.mpr ⟨(Names.text_notMem hk).mpr hd, a.distinct⟩
    case fits     =>
      refine List.forall_mem_cons.mpr ⟨fun f' hk' => ?_, a.fits⟩
      rw [g.names_unique hk' hk]
      exact ⟨v, hv⟩

-- A field that is named has the value of a node that fits it, and no other one keeps its value.
theorem reads_iff :
    g.Reads es start d ↔
      (∀ e ∈ es, ∃ f, s.Names e.1 f) ∧ (es.map (·.1.text?)).Nodup ∧
        ∀ f, (∃ e ∈ es, s.Names e.1 f ∧ g.Fits f e.2 (g.get d f)) ∨
          (∀ e ∈ es, ¬s.Names e.1 f) ∧ g.get d f = g.get start f := by
  constructor
  case mp =>
    intro r
    refine ⟨r.names, r.distinct, fun f => ?_⟩
    by_cases hf : ∃ e ∈ es, s.Names e.1 f
    case pos =>
      have ⟨e, he, hk⟩ := hf
      exact .inl ⟨e, he, hk, r.named e he f hk⟩
    case neg =>
      have ha : ∀ e ∈ es, ¬s.Names e.1 f := fun e he hk => hf ⟨e, he, hk⟩
      exact .inr ⟨ha, r.absent f ha⟩
  case mpr =>
    intro ⟨hn, hd, h⟩
    refine ⟨hn, hd, fun e he f hk => ?_, fun f ha => ?_⟩
    case refine_1 =>
      obtain ⟨e', he', hk', hv⟩ | ⟨ha, _⟩ := h f
      case inl => rwa [List.inj_on_of_nodup_map hd he he' (hk.trans hk'.symm)]
      case inr => exact absurd hk (ha e he)
    case refine_2 =>
      obtain ⟨e, he, hk, _⟩ | ⟨_, hv⟩ := h f
      case inl => exact absurd hk (ha e he)
      case inr => exact hv

theorem reads_nil : g.Reads [] start d ↔ start = d := by
  constructor
  case mp  => exact fun r => g.ext fun f => (r.absent f nofun).symm
  case mpr => exact fun h => h ▸ ⟨nofun, .nil, nofun, fun _ _ => rfl⟩

theorem exists_reads_iff (start : σ) : (∃ d, g.Reads es start d) ↔ g.Admits es := by
  induction es generalizing start
  case nil => simpa [reads_nil] using ⟨nofun, .nil, nofun⟩
  case cons e es hi =>
    obtain ⟨key, n⟩ := e
    simp only [reads_cons, admits_cons]
    constructor
    case mp =>
      rintro ⟨d, f, v, hk, hd, hv, r⟩
      exact ⟨f, v, hk, hd, hv, (hi _).mp ⟨d, r⟩⟩
    case mpr =>
      rintro ⟨f, v, hk, hd, hv, a⟩
      have ⟨d, r⟩ := hi (g.set start f v) |>.mpr a
      exact ⟨d, f, v, hk, hd, hv, r⟩

theorem go_cons_eq_ok_iff [DecidableEq φ] {seen : List φ} :
    Schema.read.go s start seen ((key, n) :: es) = .ok d ↔
      ∃ f v, s.Names key f ∧ f ∉ seen ∧ g.Fits f n v ∧
        Schema.read.go s (g.set start f v) (f :: seen) es = .ok d := by
  rw [read.go, bind_eq_ok_iff]
  simp only [g.field_eq_ok_iff]
  refine exists_congr fun f => ?_
  by_cases hs : f ∈ seen
  case pos =>
    rw [if_pos hs]
    simp [hs, throw, throwThe, MonadExceptOf.throw, bind, Except.bind]
  case neg =>
    rw [if_neg hs]
    simp only [bind_eq_ok_iff, under_eq_ok_iff, g.assign_eq_ok_iff]
    constructor
    case mp =>
      rintro ⟨hk, _, ⟨v, hv, rfl⟩, hr⟩
      exact ⟨v, hk, hs, hv, hr⟩
    case mpr =>
      rintro ⟨v, hk, _, hv, hr⟩
      exact ⟨hk, _, ⟨v, hv, rfl⟩, hr⟩

-- The fields that were seen before are those that were read before.
theorem go_eq_ok_iff [DecidableEq φ] {seen : List φ} :
    Schema.read.go s start seen es = .ok d ↔
      g.Reads es start d ∧ ∀ f ∈ seen, ∀ e ∈ es, ¬s.Names e.1 f := by
  induction es generalizing start seen
  case nil =>
    rw [read.go, reads_nil]
    simp
  case cons e es hi =>
    obtain ⟨key, n⟩ := e
    simp only [g.go_cons_eq_ok_iff, hi, reads_cons, List.forall_mem_cons]
    constructor
    case mp =>
      rintro ⟨f, v, hk, hs, hv, r, hd, ha⟩
      refine ⟨⟨f, v, hk, hd, hv, r⟩, fun f' hf => ⟨fun hk' => hs ?_, ha f' hf⟩⟩
      rwa [g.names_unique hk hk']
    case mpr =>
      rintro ⟨⟨f, v, hk, hd, hv, r⟩, ha⟩
      exact ⟨f, v, hk, fun hs => (ha f hs).left hk, hv, r, hd, fun f' hf => (ha f' hf).right⟩

theorem read_eq_ok_iff [DecidableEq φ] : s.read start es = .ok d ↔ g.Reads es start d := by
  rw [read, g.go_eq_ok_iff]
  simp

namespace Reads

theorem perm (r : g.Reads es start d) (h : es.Perm es') : g.Reads es' start d where
  names e he := r.names e <| h.mem_iff.mpr he
  distinct   := h.map _ |>.nodup_iff.mp r.distinct
  named e he := r.named e <| h.mem_iff.mpr he
  absent f ha := r.absent f fun e he => ha e <| h.mem_iff.mp he

theorem value {as bs : List (Node × Node)} (r : g.Reads (as ++ (key, n) :: bs) start d)
    (h : ∀ f v, g.Fits f n v → g.Fits f n' v) : g.Reads (as ++ (key, n') :: bs) start d := by
  obtain ⟨hn, hd, hv, ha⟩ := r
  simp only [List.forall_mem_append, List.forall_mem_cons, List.map_append, List.map_cons]
    at hn hd hv ha
  have ⟨hl, hv, hr⟩ := hv
  constructor <;>
    simp only [List.forall_mem_append, List.forall_mem_cons, List.map_append, List.map_cons]
  case names    => exact hn
  case distinct => exact hd
  case named    => exact ⟨hl, fun f hk => h f _ (hv f hk), hr⟩
  case absent   => exact ha

end Reads

end
end Grammar
end Schema
end ChipEight
