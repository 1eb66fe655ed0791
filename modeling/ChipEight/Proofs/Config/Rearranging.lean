import ChipEight.Proofs.Config.Values

namespace ChipEight

namespace Yaml.Node

inductive Rearranges : Node → Node → Prop
  | refl : Rearranges n n
  | trans : Rearranges n n' → Rearranges n' n'' → Rearranges n n''
  | entries : es.Perm es' → Rearranges (.mapping es) (.mapping es')
  | value (as bs) :
    Rearranges n n' → Rearranges (.mapping (as ++ (key, n) :: bs)) (.mapping (as ++ (key, n') :: bs))
  | item (as bs) :
    Rearranges n n' → Rearranges (.sequence (as ++ n :: bs)) (.sequence (as ++ n' :: bs))

-- A sequence whose items stand for the values of a list, in the same order.
def Lists (p : Node → α → Prop) (n : Node) (as : List α) : Prop :=
  ∃ ns, n.IsSequence ns ∧ ns.Forall₂ p as

theorem forall₂_item {p : Node → α → Prop} {n n' : Node} {ls rs : List Node}
    (hp : ∀ a, p n a → p n' a) (h : (ls ++ n :: rs).Forall₂ p as) : (ls ++ n' :: rs).Forall₂ p as := by
  induction ls generalizing as
  case nil =>
    cases h with
    | cons hn hs => exact .cons (hp _ hn) hs
  case cons hi =>
    cases h with
    | cons hl hs => exact .cons hl (hi hs)

namespace Rearranges

variable {n n' : Node}

theorem symm (r : Rearranges n n') : Rearranges n' n := by
  induction r
  case refl        => exact .refl
  case trans hl hr => exact .trans hr hl
  case entries hp  => exact .entries hp.symm
  case value hi    => exact .value _ _ hi
  case item hi     => exact .item _ _ hi

theorem text?_eq (r : Rearranges n n') : n.text? = n'.text? := by
  induction r
  case trans hl hr => exact hl.trans hr
  all_goals rfl

theorem resolved?_eq (r : Rearranges n n') : n.resolved? = n'.resolved? := by
  induction r
  case trans hl hr => exact hl.trans hr
  all_goals rfl

theorem isNatural (r : Rearranges n n') (h : n.IsNatural v) : n'.IsNatural v := by
  rwa [IsNatural, ← r.resolved?_eq]

theorem isInteger (r : Rearranges n n') (h : n.IsInteger i) : n'.IsInteger i := by
  rwa [IsInteger, ← r.resolved?_eq]

theorem isBoolean (r : Rearranges n n') (h : n.IsBoolean b) : n'.IsBoolean b := by
  rwa [IsBoolean, ← r.resolved?_eq]

theorem isOptional (r : Rearranges n n') (h : n.IsOptional v) : n'.IsOptional v := by
  cases v
  case none   => rwa [IsOptional, IsNull, ← r.resolved?_eq]
  case some v => exact r.isNatural h

theorem isPolicy (r : Rearranges n n') (h : n.IsPolicy p) : n'.IsPolicy p := by
  cases p <;> rwa [IsPolicy, ← r.text?_eq]

theorem mapping (r : Rearranges n n') (h : ∃ es, n = .mapping es) : ∃ es, n' = .mapping es := by
  induction r
  case refl        => exact h
  case trans hl hr => exact hr (hl h)
  case entries     => exact ⟨_, rfl⟩
  case value       => exact ⟨_, rfl⟩
  case item        => nomatch h

theorem lists {p : Node → α → Prop} (r : Rearranges n n')
    (hp : ∀ {n n' a}, Rearranges n n' → p n a → p n' a) (h : n.Lists p as) : n'.Lists p as := by
  induction r
  case refl        => exact h
  case trans hl hr => exact hr (hl h)
  case entries     => simp [Lists, IsSequence, empty] at h
  case value       => simp [Lists, IsSequence, empty] at h
  case item n n' ls rs r _ =>
    obtain ⟨ns, hs, ha⟩ := h
    obtain rfl : ls ++ n :: rs = ns := by simpa [IsSequence, empty] using hs
    exact ⟨_, .inl rfl, forall₂_item (fun _ => hp r) ha⟩

end Rearranges
end Yaml.Node

namespace Schema.Grammar

variable {s : Schema φ σ} (g : s.Grammar)

theorem reads_of_rearranges
    (hg : ∀ {f n n' v}, Yaml.Node.Rearranges n n' → g.Fits f n v → g.Fits f n' v)
    (r : Yaml.Node.Rearranges n n') (h : ∃ es, n = .mapping es ∧ g.Reads es start d) :
    ∃ es, n' = .mapping es ∧ g.Reads es start d := by
  induction r
  case refl        => exact h
  case trans hl hr => exact hr (hl h)
  case entries hp  =>
    obtain ⟨_, ⟨⟩, h⟩ := h
    exact ⟨_, rfl, h.perm _ hp⟩
  case value r _   =>
    obtain ⟨_, ⟨⟩, h⟩ := h
    exact ⟨_, rfl, h.value _ fun _ _ hv => hg r hv⟩
  case item        =>
    obtain ⟨_, ⟨⟩, _⟩ := h

end Schema.Grammar
end ChipEight
