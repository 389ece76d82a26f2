import ApiDoc.Proofs.Order.Matching
import ApiDoc.Proofs.Workspace.Items
import ApiDoc.Proofs.Workspace.Reading

/-!
# Declarations

A package that is put together from a list of declarations, exports and their members, each after
its owner and no two of one name (`Declaration.Orderly`). What stands in the package is then known
(`Workspace.Declared`): the documentations are the comments as they are read, in the order of the
list; an item is found by its name and its owner's; and every problem is a diagnostic.
-/

namespace ApiDoc

/-- A declaration of a package: an export, or a member of one. -/
structure Declaration where
  /-- The name of the export that it is a member of. -/
  owner : Option Text
  /-- Its name. -/
  name : Text
  /-- Its kind. -/
  kind : ItemKind
  /-- Its comment. -/
  comment : Text
  deriving DecidableEq, Repr

namespace Declaration

/-- The names that lead to the owner. -/
def path (x : Declaration) : List Text :=
  x.owner.toList

/-- The names that lead to the declaration. -/
def key (x : Declaration) : List Text :=
  x.path ++ [x.name]

/-- The name by which diagnostics call the declaration. -/
def title (x : Declaration) : Text :=
  match x.owner with
  | none => x.name
  | some owner => owner ++ '.' :: x.name

/-- Declarations each of which comes after its owner, no two of one name. -/
inductive Orderly : List Declaration → Prop
  | nil : Orderly []
  | add {E : List Declaration} {x : Declaration} (h : Orderly E) (hfresh : x.key ∉ E.map key)
      (howner : ∀ owner, x.owner = some owner → [owner] ∈ E.map key) : Orderly (E ++ [x])

theorem Orderly.nodup_keys {E : List Declaration} (h : Orderly E) : (E.map key).Nodup := by
  induction h with
  | nil => exact List.nodup_nil
  | @add E x _ hfresh _ ih =>
    rw [List.map_append, List.map_singleton]
    exact List.nodup_append'.2 ⟨ih, List.nodup_singleton _, List.disjoint_singleton.2 hfresh⟩

theorem Orderly.nodup {E : List Declaration} (h : Orderly E) : E.Nodup :=
  h.nodup_keys.of_map

/-- An export followed by its members. -/
def IsGroup (group : List Declaration) : Prop :=
  ∃ x members, group = x :: members ∧ x.owner = none ∧ ∀ m ∈ members, m.owner = some x.name

/-- Members after their owners. -/
theorem Orderly.append {E members : List Declaration} (h : Orderly E)
    (howner : ∀ m ∈ members, ∀ owner, m.owner = some owner → [owner] ∈ E.map key)
    (hnodup : ((E ++ members).map key).Nodup) : Orderly (E ++ members) := by
  induction members generalizing E with
  | nil => rwa [List.append_nil]
  | cons m members ih =>
    obtain ⟨hfirst, hrest⟩ := List.forall_mem_cons.1 howner
    have hfresh : m.key ∉ E.map key := by
      intro hmem
      rw [List.map_append, List.map_cons] at hnodup
      exact (List.nodup_append'.1 hnodup).2.2 hmem List.mem_cons_self
    rw [List.append_cons] at hnodup ⊢
    refine ih (h.add hfresh hfirst) (fun m hm owner hm' => ?_) hnodup
    rw [List.map_append]
    exact List.mem_append_left _ (hrest m hm owner hm')

/-- Exports one after the other, each followed by its members. -/
theorem Orderly.append_flatten {E : List Declaration} {groups : List (List Declaration)}
    (h : Orderly E) (hgroups : ∀ group ∈ groups, IsGroup group)
    (hnodup : ((E ++ groups.flatten).map key).Nodup) : Orderly (E ++ groups.flatten) := by
  induction groups generalizing E with
  | nil => rwa [List.flatten_nil, List.append_nil]
  | cons group groups ih =>
    obtain ⟨⟨x, members, rfl, hexport, hmembers⟩, hrest⟩ := List.forall_mem_cons.1 hgroups
    rw [List.flatten_cons, ← List.append_assoc] at hnodup ⊢
    refine ih ?_ hrest hnodup
    have hgroup : ((E ++ x :: members).map key).Nodup := by
      rw [List.map_append] at hnodup
      exact (List.nodup_append'.1 hnodup).1
    have hfresh : x.key ∉ E.map key := by
      intro hmem
      rw [List.map_append, List.map_cons] at hgroup
      exact (List.nodup_append'.1 hgroup).2.2 hmem List.mem_cons_self
    have hkey : x.key = [x.name] := by rw [key, path, hexport]; rfl
    rw [List.append_cons] at hgroup ⊢
    refine (h.add hfresh (by rw [hexport]; nofun)).append (fun m hm owner howner => ?_) hgroup
    rw [hmembers m hm] at howner
    rw [← Option.some.inj howner, ← hkey]
    exact List.mem_map_of_mem (List.mem_append_right _ List.mem_cons_self)

end Declaration

namespace Workspace

/-- The workspace after something was declared. -/
def declare (w : Workspace) (x : Declaration) : Workspace :=
  ((Action.addItem x.path x.name x.kind x.comment).run w).2

/-- A package without items, in which nothing was reported. -/
structure Bare (w : Workspace) : Prop where
  documents : w.documents = #[]
  exports : w.package.exports = []
  diagnostics : w.diagnostics = []
  warnings : w.warnings = []

/-- What stands in a package that is put together from declarations. -/
structure Declared (base : Workspace) (E : List Declaration) (w : Workspace) : Prop where
  ready : w.Ready
  name : w.package.name = base.package.name
  surroundings : w.surroundings = base.surroundings
  external : w.external = base.external
  size : w.documents.size = E.length
  parsed : ∀ d x, E[d]? = some x →
    Documentation.parse base.surroundings (some x.title) (Comment.body x.comment) =
      .ok (w.document d)
  found : ∀ key name kind d,
    (Item.at? key w.package.exports).map Item.face = some (name, kind, d) ↔
      ∃ x, E[d]? = some x ∧ x.key = key ∧ x.name = name ∧ x.kind = kind
  diagnostics : (w.diagnostics : Multiset Diagnostic) = w.total Documentation.told
  warnings : w.warnings = []

section
variable {base w w₁ : Workspace} {E : List Declaration} {x : Declaration}

theorem Bare.declared (h : base.Bare) (hready : base.Ready) : base.Declared [] base where
  ready := hready
  name := rfl
  surroundings := rfl
  external := rfl
  size := by rw [h.documents]; rfl
  parsed := nofun
  found key name kind d := by
    have hnone : Item.at? key base.package.exports = none := by
      rw [h.exports]
      cases key with
      | nil => rfl
      | cons name key => exact Item.at?_eq_none_of_find? rfl key
    rw [hnone]
    exact ⟨nofun, fun ⟨_, hx, _⟩ => nomatch hx⟩
  diagnostics := by
    rw [h.diagnostics, total, h.documents]
    rfl
  warnings := h.warnings

/-- Documentations that are the comments of declarations in their order still are with one more of
both. -/
theorem parsed_register {around : Surroundings} {d : Documentation}
    (hsize : w.documents.size = E.length)
    (hparsed : ∀ i y, E[i]? = some y →
      Documentation.parse around (some y.title) (Comment.body y.comment) = .ok (w.document i))
    (hparse : Documentation.parse around (some x.title) (Comment.body x.comment) = .ok d)
    {i : DocId} {y : Declaration} (hy : (E ++ [x])[i]? = some y) :
    Documentation.parse around (some y.title) (Comment.body y.comment) =
      .ok ((w.register x.path x.name x.kind d).document i) := by
  rw [document_register, hsize]
  rcases getElem?_concat_eq_some_iff.1 hy with hy | ⟨rfl, rfl⟩
  · rw [if_neg (Nat.ne_of_lt (List.getElem?_eq_some_iff.1 hy).1)]
    exact hparsed i y hy
  · rw [if_pos rfl]
    exact hparse

namespace Declared

/-- An item stands where it was declared. -/
theorem exists_item (h : base.Declared E w) {d : DocId} (hx : E[d]? = some x) :
    ∃ item, Item.at? x.key w.package.exports = some item ∧ item.face = (x.name, x.kind, d) :=
  Option.map_eq_some_iff.1 ((h.found x.key x.name x.kind d).2 ⟨x, hx, rfl, rfl, rfl⟩)

/-- What stands in the package was declared. -/
theorem exists_declaration (h : base.Declared E w) {key : List Text} {item : Item}
    (hitem : Item.at? key w.package.exports = some item) :
    ∃ x, E[item.doc]? = some x ∧ x.key = key ∧ x.name = item.name ∧ x.kind = item.kind :=
  (h.found key item.name item.kind item.doc).1 (by rw [hitem]; rfl)

theorem exists_item_of_mem (h : base.Declared E w) {key : List Text}
    (hkey : key ∈ E.map Declaration.key) :
    ∃ item, Item.at? key w.package.exports = some item := by
  obtain ⟨x, hx, rfl⟩ := List.mem_map.1 hkey
  obtain ⟨d, hd⟩ := List.mem_iff_getElem?.1 hx
  obtain ⟨item, hitem, -⟩ := h.exists_item hd
  exact ⟨item, hitem⟩

theorem at?_eq_none (h : base.Declared E w) {key : List Text}
    (hkey : key ∉ E.map Declaration.key) : Item.at? key w.package.exports = none := by
  refine Option.eq_none_iff_forall_ne_some.2 fun item hitem => hkey ?_
  obtain ⟨x, hx, rfl, -⟩ := h.exists_declaration hitem
  exact List.mem_map_of_mem (List.mem_of_getElem? hx)

/-- Diagnostics call an item by its title. -/
theorem qualifiedName_eq (h : base.Declared E w)
    (howner : ∀ owner, x.owner = some owner → [owner] ∈ E.map Declaration.key) :
    w.qualifiedName x.path x.name = x.title := by
  unfold qualifiedName Declaration.title Declaration.path
  cases hx : x.owner with
  | none => rfl
  | some owner =>
    obtain ⟨item, hitem⟩ := h.exists_item_of_mem (howner owner hx)
    obtain ⟨y, -, hkey, hname, -⟩ := h.exists_declaration hitem
    have hlast : some y.name = some owner := by
      rw [← List.getLast?_concat (l := y.path), ← Declaration.key, hkey]
      rfl
    rw [Option.toList_some, hitem, ← Option.some.inj hlast, hname]

/-- After one more declaration its item stands at its place. -/
theorem face_register (h : base.Declared E w) (hfresh : x.key ∉ E.map Declaration.key)
    (howner : ∀ owner, x.owner = some owner → [owner] ∈ E.map Declaration.key)
    (added : Documentation) (key : List Text) :
    (Item.at? key (w.register x.path x.name x.kind added).package.exports).map Item.face =
      if key = x.key then some (x.name, x.kind, E.length)
      else (Item.at? key w.package.exports).map Item.face := by
  rw [← h.size]
  refine face_at?_register x.kind added ?_ (h.at?_eq_none hfresh) key
  unfold Declaration.path
  cases hx : x.owner with
  | none => exact .inl rfl
  | some owner =>
    obtain ⟨item, hitem⟩ := h.exists_item_of_mem (howner owner hx)
    exact .inr (by rw [Option.toList_some, hitem]; rfl)

/-- One more declaration, after its owner and under a new name. -/
theorem declare (h : base.Declared E w) (hfresh : x.key ∉ E.map Declaration.key)
    (howner : ∀ owner, x.owner = some owner → [owner] ∈ E.map Declaration.key) :
    base.Declared (E ++ [x]) (w.declare x) := by
  obtain ⟨d, w₁, hparse, hname, hrun, ⟨log, diagnostics, faults, rfl⟩, hq₁, hdiagnostics⟩ :=
    Action.run_addItem_of_ready h.ready x.path x.name x.kind x.comment
  rw [h.qualifiedName_eq howner, h.surroundings] at hparse
  have hface := h.face_register hfresh howner d
  rw [Workspace.declare, hrun]
  refine ⟨⟨h.ready.known, hq₁, h.ready.isOpen⟩, h.name, h.surroundings, h.external, ?_,
    fun i y hy => parsed_register h.size h.parsed hparse hy, fun key name kind i => ?_, ?_,
    h.warnings⟩
  · rw [List.length_append, ← h.size]
    exact Array.size_push _
  · refine (iff_of_eq (congrArg (· = _) (hface key))).trans ?_
    simp only [getElem?_concat_eq_some_iff]
    by_cases hkey : key = x.key
    · rw [if_pos hkey]
      constructor
      · intro heq
        cases heq
        exact ⟨x, .inr ⟨rfl, rfl⟩, hkey.symm, rfl, rfl⟩
      · rintro ⟨y, hy | ⟨rfl, rfl⟩, hykey, rfl, rfl⟩
        · exact absurd (List.mem_map.2 ⟨y, List.mem_of_getElem? hy, hykey.trans hkey⟩) hfresh
        · rfl
    · rw [if_neg hkey, h.found]
      refine exists_congr fun y => and_congr_left fun hy => (or_iff_left fun hlast => hkey ?_).symm
      rw [← hy.1, hlast.2]
  · have htotal : total Documentation.told (w.register x.path x.name x.kind d) =
        w.total Documentation.told + d.told := by
      simp only [total, register, Array.toList_push, List.map_append, List.sum_append,
        List.map_singleton, List.sum_singleton]
    refine Eq.trans ?_ htotal.symm
    rw [← h.diagnostics, Documentation.told, Multiset.coe_add]
    exact congrArg _ hdiagnostics

end Declared

/-- The workspace after some declarations, one after the other. -/
def declareAll (w : Workspace) (E : List Declaration) : Workspace :=
  E.foldl declare w

/-- What stands in a package after orderly declarations. -/
theorem Bare.declareAll (h : base.Bare) (hready : base.Ready) (hE : Declaration.Orderly E) :
    base.Declared E (base.declareAll E) := by
  induction hE with
  | nil => exact h.declared hready
  | @add E x _ hfresh howner ih =>
    rw [Workspace.declareAll, List.foldl_append]
    exact ih.declare hfresh howner

end

end Workspace

end ApiDoc
