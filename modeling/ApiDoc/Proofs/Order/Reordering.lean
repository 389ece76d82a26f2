import ApiDoc.Proofs.Links.Verdict
import ApiDoc.Proofs.Order.Declarations
import ApiDoc.Proofs.Stack.Once

/-!
# Declarations in another order

Two packages that are put together from the same declarations in different orders match
(`Workspace.Declared.matching`), so once both are completed they show the same, and the same was
reported and warned about, each as often (`Workspace.Declared.completeAll_of_perm`). What was
reported is found by balance: the lists themselves are in different orders.
-/

namespace ApiDoc

open Workspace

/-- The same declaration stands under a number in one list and under a number in another. -/
def Declaration.Paired (E E' : List Declaration) (d d' : DocId) : Prop :=
  ∃ x, E[d]? = some x ∧ E'[d']? = some x

/-- What a workspace shows of the item at a path: its name, its kind and its documentation. -/
def Workspace.shown (w : Workspace) (path : List Text) :
    Option (Text × ItemKind × Documentation) :=
  (Item.at? path w.package.exports).map fun item => (item.name, item.kind, w.documentOf item)

section
variable {base w w' w₁ w₁' : Workspace} {E E' : List Declaration} {x : Declaration} {d d' : DocId}
  {M : Type} [AddCommMonoid M]

namespace Workspace

/-- A total as a sum over the declarations. -/
theorem total_eq_sum (hE : E.Nodup) (hsize : w.documents.size = E.length) (g : Documentation → M) :
    w.total g = (E.map fun x => g (w.document (E.idxOf x))).sum := by
  unfold total
  refine congrArg List.sum (List.ext_getElem (by simpa using hsize) fun i hi hi' => ?_)
  have hlt : i < w.documents.size := by simpa using hi
  rw [List.getElem_map, List.getElem_map, hE.idxOf_getElem]
  simp [document, hlt]

/-- Totals are the same where paired documentations are. -/
theorem total_eq_of_paired (hperm : E.Perm E') (hE : E.Nodup) (hsize : w.documents.size = E.length)
    (hsize' : w'.documents.size = E'.length)
    (hdocument : ∀ {d d'}, Declaration.Paired E E' d d' → w'.document d' = w.document d)
    (g : Documentation → M) : w'.total g = w.total g := by
  rw [total_eq_sum hE hsize, total_eq_sum (hperm.nodup hE) hsize', (hperm.map _).sum_eq]
  refine congrArg List.sum (List.map_congr_left fun x hx => congrArg g (hdocument ⟨x, ?_, ?_⟩))
  · exact List.getElem?_idxOf (hperm.mem_iff.2 hx)
  · exact List.getElem?_idxOf hx

namespace Declared

/-! ## The two packages -/

theorem fresh (h : base.Declared E w) : w.Fresh := by
  intro d hd
  have hx := List.getElem?_eq_getElem (h.size ▸ hd)
  exact (Documentation.wellRead_of_parse (h.parsed d _ hx)).unvisited

/-- Every documentation is that of an item. -/
theorem mem_named (h : base.Declared E w) (hd : d < w.documents.size) :
    d ∈ w.package.items.map Item.doc := by
  have hlt : d < E.length := h.size ▸ hd
  obtain ⟨item, hitem, hface⟩ := h.exists_item (List.getElem?_eq_getElem hlt)
  refine List.mem_map.2 ⟨item, ?_, congrArg (·.2.2) hface⟩
  unfold Declaration.key Declaration.path at hitem
  cases howner : E[d].owner with
  | none =>
    rw [howner] at hitem
    exact List.mem_flatMap.2 ⟨item, OrderedMap.mem_values_of_find? hitem, List.mem_cons_self⟩
  | some owner =>
    rw [howner] at hitem
    obtain ⟨exported, hexported, hmember⟩ := Option.bind_eq_some_iff.1 hitem
    exact List.mem_flatMap.2 ⟨exported, OrderedMap.mem_values_of_find? hexported,
      List.mem_cons_of_mem _ (OrderedMap.mem_values_of_find? hmember)⟩

/-- What stands at a path in one package stands there in the other. -/
theorem exists_paired (h : base.Declared E w) (h' : base.Declared E' w') (hsub : E ⊆ E')
    {key : List Text} {item : Item} (hitem : Item.at? key w.package.exports = some item) :
    ∃ item', Item.at? key w'.package.exports = some item' ∧ item'.name = item.name ∧
      item'.kind = item.kind ∧ Declaration.Paired E E' item.doc item'.doc := by
  obtain ⟨x, hx, rfl, hname, hkind⟩ := h.exists_declaration hitem
  obtain ⟨d', hx'⟩ := List.mem_iff_getElem?.1 (hsub (List.mem_of_getElem? hx))
  obtain ⟨item', hitem', hface⟩ := h'.exists_item hx'
  injection hface with hname' hface
  injection hface with hkind' hdoc
  exact ⟨item', hitem', hname'.trans hname, hkind'.trans hkind, x, hx, hdoc ▸ hx'⟩

theorem at?_cases (h : base.Declared E w) (h' : base.Declared E' w') (hperm : E.Perm E')
    (key : List Text) :
    (Item.at? key w.package.exports = none ∧ Item.at? key w'.package.exports = none) ∨
      ∃ item item', Item.at? key w.package.exports = some item ∧
        Item.at? key w'.package.exports = some item' ∧ item'.name = item.name ∧
        item'.kind = item.kind ∧ Declaration.Paired E E' item.doc item'.doc := by
  cases hitem : Item.at? key w.package.exports with
  | some item =>
    obtain ⟨item', hitem', hpaired⟩ := h.exists_paired h' hperm.subset hitem
    exact .inr ⟨item, item', rfl, hitem', hpaired⟩
  | none =>
    cases hitem' : Item.at? key w'.package.exports with
    | none => exact .inl ⟨rfl, rfl⟩
    | some item' =>
      obtain ⟨item, hsome, -⟩ := h'.exists_paired h hperm.symm.subset hitem'
      rw [hitem] at hsome
      cases hsome

/-- Packages from the same declarations match. -/
theorem matching (h : base.Declared E w) (h' : base.Declared E' w') (hperm : E.Perm E')
    (hE : E.Nodup) : w.Matches (Declaration.Paired E E') w' where
  config := by
    have hsame : w'.surroundings = w.surroundings := h'.surroundings.trans h.surroundings.symm
    exact congrArg Surroundings.config hsame
  inside := by
    rintro d d' ⟨x, hx, hx'⟩
    rw [h.size, h'.size]
    exact ⟨(List.getElem?_eq_some_iff.1 hx).1, (List.getElem?_eq_some_iff.1 hx').1⟩
  document := by
    rintro d d' ⟨x, hx, hx'⟩
    exact Except.ok.inj ((h'.parsed d' x hx').symm.trans (h.parsed d x hx))
  lookUp key := by
    have hname : w'.package.name = w.package.name := h'.name.trans h.name.symm
    have hexternal : w'.external = w.external := h'.external.trans h.external.symm
    have hown : w'.isOwnKey key = w.isOwnKey key := by rw [isOwnKey, isOwnKey, hname]
    unfold lookUp
    rw [hown, hexternal, Package.find?_eq_at?, Package.find?_eq_at?]
    split
    · rcases h.at?_cases h' hperm (if key.memberName.isEmpty then [key.exportName]
        else [key.exportName, key.memberName]) with ⟨hnone, hnone'⟩ | ⟨item, item', hitem, hitem',
          -, hkind, hpaired⟩
      · rw [hnone, hnone']
        exact .missing _
      · rw [hitem, hitem']
        dsimp only
        rw [hkind]
        exact .own _ hpaired
    · split
      · exact .missing _
      · split
        · exact .external _
        · exact .missing _
  unique := by
    rintro a b d' ⟨x, hx, hx'⟩ ⟨y, hy, hy'⟩
    cases hx'.symm.trans hy'
    exact (List.getElem?_inj (List.getElem?_eq_some_iff.1 hx).1 hE).1 (hx.trans hy.symm)

/-! ## Their completion -/

/-- Everything is completed, and nothing is left in the queues. -/
theorem of_completes (h : base.Declared E w)
    (hcompletes : Completes (w.package.items.map Item.doc) w w₁) :
    (∀ d, (w₁.document d).state = .done) ∧ w₁.total w₁.owed = 0 := by
  have hdone (d : DocId) : (w₁.document d).state = .done := by
    rcases Nat.lt_or_ge d w.documents.size with hlt | hge
    · exact hcompletes.done_of_mem h.fresh (h.mem_named hlt)
    · rw [document_of_size_le (hcompletes.evolves.size ▸ hge)]
  refine ⟨hdone, List.sum_eq_zero fun owed howed => ?_⟩
  obtain ⟨document, hmem, rfl⟩ := List.mem_map.1 howed
  obtain ⟨d, hlt, hdocument⟩ := List.mem_iff_getElem.1 hmem
  have heq : w₁.document d = document := by
    rw [← hdocument]
    have : d < w₁.documents.size := by simpa using hlt
    simp [Workspace.document, this]
  obtain ⟨hlinks, hrequests⟩ := (drained_invariant w).of_fresh h.fresh hcompletes d (hdone d)
  rw [← heq, Workspace.owed, hlinks.drained, hrequests]
  rfl

/-- Completed packages from the same declarations in different orders, if no cycle is reached from
any documentation: every item is shown with the same documentation, and there are the same
diagnostics and the same warnings, in some order. -/
theorem completeAll_of_perm (h : base.Declared E w) (h' : base.Declared E' w')
    (hperm : E.Perm E') (hE : E.Nodup) (hacyclic : ∀ d, w.Acyclic d) :
    ∃ w₁ w₁', Action.completeAll.run w = (.ok (), w₁) ∧
      Action.completeAll.run w' = (.ok (), w₁') ∧ (∀ path, w₁'.shown path = w₁.shown path) ∧
      w₁.diagnostics.Perm w₁'.diagnostics ∧ w₁.warnings.Perm w₁'.warnings := by
  obtain ⟨w₁, hrun, -, hcompletes⟩ := Action.run_completeAll h.ready.quiet
  obtain ⟨w₁', hrun', -, hcompletes'⟩ := Action.run_completeAll h'.ready.quiet
  obtain ⟨hdone, howed⟩ := h.of_completes hcompletes
  obtain ⟨hdone', howed'⟩ := h'.of_completes hcompletes'
  have hmatch := h.matching h' hperm hE
  have hdocument {d d' : DocId} (hpaired : Declaration.Paired E E' d d') :
      w₁'.document d' = w₁.document d :=
    hmatch.document_eq h.fresh h'.fresh hcompletes hcompletes' hpaired (hacyclic d) (hdone d)
      (hdone' d')
  refine ⟨w₁, w₁', hrun, hrun', fun path => ?_, Multiset.coe_eq_coe.1 ?_, Multiset.coe_eq_coe.1 ?_⟩
  · unfold shown
    rw [hcompletes.evolves.package, hcompletes'.evolves.package]
    rcases h.at?_cases h' hperm path with
      ⟨hnone, hnone'⟩ | ⟨item, item', hitem, hitem', hname, hkind, hpaired⟩
    · rw [hnone, hnone']
      rfl
    · rw [hitem, hitem', Option.map_some, Option.map_some, hname, hkind]
      exact congrArg (fun d => some (item.name, item.kind, d)) (hdocument hpaired)
  · -- what was reported is what the documentations tell
    have htotal := total_eq_of_paired hperm hE (hcompletes.evolves.size.trans h.size)
      (hcompletes'.evolves.size.trans h'.size) hdocument Documentation.told
    have hreported := hcompletes.balances.diagnostics
    have hreported' := hcompletes'.balances.diagnostics
    rw [h.diagnostics, add_comm, add_left_cancel_iff] at hreported
    rw [h'.diagnostics, add_comm, add_left_cancel_iff] at hreported'
    rw [hreported, hreported', htotal]
  · -- what was warned about is what the queues held
    have htotal := total_eq_of_paired hperm hE h.size h'.size hmatch.document w.owed
    have hwarned := hcompletes.balances.warnings
    have hwarned' := hcompletes'.balances.warnings
    rw [howed, add_zero, h.warnings, Multiset.coe_nil, zero_add] at hwarned
    rw [howed', add_zero, h'.warnings, Multiset.coe_nil, zero_add, hmatch.owed] at hwarned'
    rw [hwarned, hwarned', htotal]

end Declared

end Workspace

end

end ApiDoc
