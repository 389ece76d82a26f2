import Mathlib.Data.List.Perm.Basic

/-!
# Computations that may fail

What is known of the parts of a computation in `Except` that ends well, and of the one that fails,
for binds, folds and lists that are decoded entry by entry. Then lists with one more entry, and
lists whose entries are paired, when one of them is in another order.
-/

namespace ApiDoc

/-- A bind that ends well has a first part that does. -/
theorem exists_of_bind_eq_ok {ε α β : Type} {x : Except ε α} {f : α → Except ε β} {b : β}
    (h : (x >>= f) = .ok b) : ∃ a, x = .ok a ∧ f a = .ok b := by
  cases x with
  | error e => cases h
  | ok a => exact ⟨a, rfl, h⟩

/-- A bind ends well if and only if its parts do, where it does not depend on the first whether the
second does. -/
theorem exists_bind_eq_ok_iff {ε α β : Type} {x : Except ε α} {f : α → Except ε β} {Ends : Prop}
    (hf : ∀ a, x = .ok a → ((∃ b, f a = .ok b) ↔ Ends)) :
    (∃ b, (x >>= f) = .ok b) ↔ (∃ a, x = .ok a) ∧ Ends := by
  cases x with
  | error e => exact iff_of_false nofun nofun
  | ok a => exact (hf a rfl).trans (and_iff_right ⟨a, rfl⟩).symm

/-- A computation whose result is only put somewhere ends well if and only if it does. -/
theorem exists_bind_pure_eq_ok_iff {ε α β : Type} {x : Except ε α} {f : α → β} :
    (∃ b, (x >>= fun a => pure (f a)) = .ok b) ↔ ∃ a, x = .ok a :=
  (exists_bind_eq_ok_iff fun a _ => iff_true_intro ⟨f a, rfl⟩).trans (and_iff_left trivial)

/-- What every step of a fold keeps, the fold keeps. -/
theorem foldlM_keeps {ε α β : Type} {f : β → α → Except ε β} {P : β → Prop} {as : List α}
    (hf : ∀ a ∈ as, ∀ {b b₁}, P b → f b a = .ok b₁ → P b₁) {b b₁ : β} (hb : P b)
    (h : as.foldlM f b = .ok b₁) : P b₁ := by
  induction as generalizing b with
  | nil =>
    cases h
    exact hb
  | cons a as ih =>
    rw [List.foldlM_cons] at h
    obtain ⟨b', hstep, hrest⟩ := exists_of_bind_eq_ok h
    exact ih (fun a ha => hf a (List.mem_cons_of_mem _ ha)) (hf a List.mem_cons_self hb hstep) hrest

/-- A bind that fails has a part that does. -/
theorem bind_eq_error {ε α β : Type} {x : Except ε α} {f : α → Except ε β} {e : ε}
    (h : (x >>= f) = .error e) : x = .error e ∨ ∃ a, x = .ok a ∧ f a = .error e := by
  cases x with
  | error e' =>
    cases h
    exact .inl rfl
  | ok a => exact .inr ⟨a, rfl, h⟩

/-- A fold ends well if every step does. -/
theorem exists_foldlM_ok {ε α β : Type} {f : β → α → Except ε β}
    (hf : ∀ b a, ∃ b₁, f b a = .ok b₁) (as : List α) (b : β) :
    ∃ b₁, as.foldlM f b = .ok b₁ := by
  induction as generalizing b with
  | nil => exact ⟨b, rfl⟩
  | cons a as ih =>
    obtain ⟨b₁, hstep⟩ := hf b a
    rw [List.foldlM_cons, hstep]
    exact ih b₁

/-- What every step of a fold keeps of all that was taken in so far, the fold keeps. -/
theorem foldlM_collects {ε α β γ : Type} {f : β → α → Except ε β} {g : α → List γ}
    {P : List γ → β → Prop}
    (hf : ∀ {taken a b b₁}, P taken b → f b a = .ok b₁ → P (taken ++ g a) b₁) {taken : List γ}
    {as : List α} {b b₁ : β} (hb : P taken b) (h : as.foldlM f b = .ok b₁) :
    P (taken ++ as.flatMap g) b₁ := by
  induction as generalizing taken b with
  | nil =>
    cases h
    rwa [List.flatMap_nil, List.append_nil]
  | cons a as ih =>
    rw [List.foldlM_cons] at h
    obtain ⟨b', hstep, hrest⟩ := exists_of_bind_eq_ok h
    rw [List.flatMap_cons, ← List.append_assoc]
    exact ih (hf hb hstep) hrest

/-- What ends well has not failed. -/
theorem ok_not_fails {ε α : Type} (a : α) : ¬ ∃ e : ε, Except.ok a = .error e := by
  rintro ⟨e, h⟩
  cases h

/-- A fold fails if and only if some entry makes its step fail, where it is the entry that decides
that. -/
theorem foldlM_fails_iff {ε α β : Type} {f : β → α → Except ε β} {Fails : α → Prop}
    (hf : ∀ b a, (∃ e, f b a = .error e) ↔ Fails a) (as : List α) (b : β) :
    (∃ e, as.foldlM f b = .error e) ↔ ∃ a ∈ as, Fails a := by
  induction as generalizing b with
  | nil => exact iff_of_false (ok_not_fails b) (by simp)
  | cons a as ih =>
    rw [List.foldlM_cons, List.exists_mem_cons_iff, ← hf b a]
    cases f b a with
    | error e => exact iff_of_true ⟨e, rfl⟩ (.inl ⟨e, rfl⟩)
    | ok b₁ =>
      rw [← ih b₁]
      exact (or_iff_right (ok_not_fails b₁)).symm

/-- A fold ends well if and only if every step can, where it is the entry that decides that. -/
theorem exists_foldlM_eq_ok_iff {ε α β : Type} {f : β → α → Except ε β} {Ends : α → Prop}
    (hf : ∀ b a, (∃ b₁, f b a = .ok b₁) ↔ Ends a) (as : List α) (b : β) :
    (∃ b₁, as.foldlM f b = .ok b₁) ↔ ∀ a ∈ as, Ends a := by
  induction as generalizing b with
  | nil => exact iff_of_true ⟨b, rfl⟩ nofun
  | cons a as ih =>
    rw [List.foldlM_cons, List.forall_mem_cons, ← hf b a]
    exact exists_bind_eq_ok_iff fun b₁ _ => ih b₁

/-- A list is decoded if each of its entries is. -/
theorem mapM_eq_ok_iff {ε α β : Type} {f : α → Except ε β} {as : List α} {bs : List β} :
    as.mapM f = .ok bs ↔ List.Forall₂ (fun a b => f a = .ok b) as bs := by
  induction as generalizing bs with
  | nil =>
    rw [List.forall₂_nil_left_iff]
    exact ⟨fun h => (Except.ok.inj h).symm, fun h => h ▸ rfl⟩
  | cons a as ih =>
    rw [List.mapM_cons, List.forall₂_cons_left_iff]
    constructor
    · intro h
      obtain ⟨b, hb, h⟩ := exists_of_bind_eq_ok h
      obtain ⟨bs₁, hbs, h⟩ := exists_of_bind_eq_ok h
      exact ⟨b, bs₁, hb, ih.1 hbs, (Except.ok.inj h).symm⟩
    · rintro ⟨b, bs₁, hb, hbs, rfl⟩
      rw [hb, ih.2 hbs]
      rfl

/-- A list can be decoded if and only if each of its entries can. -/
theorem exists_mapM_eq_ok_iff {ε α β : Type} {f : α → Except ε β} {as : List α} :
    (∃ bs, as.mapM f = .ok bs) ↔ ∀ a ∈ as, ∃ b, f a = .ok b := by
  simp only [mapM_eq_ok_iff]
  induction as with
  | nil => exact iff_of_true ⟨[], .nil⟩ nofun
  | cons a as ih =>
    rw [List.forall_mem_cons, ← ih]
    constructor
    · rintro ⟨_, hdecoded⟩
      cases hdecoded with
      | cons hb hbs => exact ⟨⟨_, hb⟩, _, hbs⟩
    · rintro ⟨⟨b, hb⟩, bs, hbs⟩
      exact ⟨b :: bs, .cons hb hbs⟩

/-- A list is decoded if the images of its entries are. -/
theorem mapM_map_eq_ok {ε α β γ : Type} {f : β → Except ε γ} {g : α → β} {h : α → γ}
    (hf : ∀ a, f (g a) = .ok (h a)) (as : List α) : (as.map g).mapM f = .ok (as.map h) := by
  rw [mapM_eq_ok_iff, List.forall₂_map_left_iff, List.forall₂_map_right_iff]
  exact List.forall₂_same.2 fun a _ => hf a

/-- What a relation pairs with a list, it pairs in another order with the list in another order. -/
theorem exists_forall₂_of_perm {α β : Type} {R : α → β → Prop} {as as' : List α} {bs : List β}
    (hperm : as.Perm as') (h : List.Forall₂ R as bs) :
    ∃ bs', List.Forall₂ R as' bs' ∧ bs.Perm bs' := by
  obtain ⟨bs', hbs', hperm'⟩ := List.perm_comp_forall₂ hperm.symm h
  exact ⟨bs', hbs', hperm'.symm⟩

/-- Lists that are paired entry by entry have partners that are paired entry by entry, if paired
entries have paired partners. -/
theorem exists_forall₂_of_forall₂ {α β : Type} {P : α → β → Prop} {R : α → α → Prop}
    {Q : β → β → Prop} {as as' : List α} {bs : List β} (h : List.Forall₂ R as as')
    (hbs : List.Forall₂ P as bs)
    (hstep : ∀ {a a' b}, R a a' → P a b → ∃ b', P a' b' ∧ Q b b') :
    ∃ bs', List.Forall₂ P as' bs' ∧ List.Forall₂ Q bs bs' := by
  induction h generalizing bs with
  | nil =>
    cases hbs
    exact ⟨[], .nil, .nil⟩
  | cons hR _ ih =>
    cases hbs with
    | cons hP hrest =>
      obtain ⟨b', hP', hQ⟩ := hstep hR hP
      obtain ⟨bs', hrest', hrestQ⟩ := ih hrest
      exact ⟨b' :: bs', .cons hP' hrest', .cons hQ hrestQ⟩

/-- The entries of a list with one more at its end. -/
theorem getElem?_concat_eq_some_iff {α : Type} {as : List α} {a b : α} {i : Nat} :
    (as ++ [a])[i]? = some b ↔ as[i]? = some b ∨ i = as.length ∧ b = a := by
  rcases Nat.lt_trichotomy i as.length with hlt | rfl | hgt
  · rw [List.getElem?_append_left hlt]
    exact ⟨.inl, fun h => h.resolve_right fun hlast => Nat.ne_of_lt hlt hlast.1⟩
  · simp [eq_comm]
  · have hnone : as[i]? = none := List.getElem?_eq_none (Nat.le_of_lt hgt)
    have hnone' : (as ++ [a])[i]? = none :=
      List.getElem?_eq_none (by rw [List.length_append]; exact hgt)
    simp [hnone, hnone', Nat.ne_of_gt hgt]

/-- Every entry of the second list is paired with one of the first. -/
theorem exists_of_forall₂_right {α β : Type} {R : α → β → Prop} {as : List α} {bs : List β}
    (h : List.Forall₂ R as bs) {b : β} (hb : b ∈ bs) : ∃ a ∈ as, R a b := by
  induction h with
  | nil => cases hb
  | @cons a _ _ _ hab _ ih =>
    rcases List.mem_cons.1 hb with rfl | hb
    · exact ⟨a, List.mem_cons_self, hab⟩
    · obtain ⟨a₁, ha₁, hR⟩ := ih hb
      exact ⟨a₁, List.mem_cons_of_mem _ ha₁, hR⟩

end ApiDoc
