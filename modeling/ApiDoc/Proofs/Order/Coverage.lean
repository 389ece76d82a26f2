import Mathlib.Tactic.TFAE
import ApiDoc.Extraction.Report
import ApiDoc.Proofs.Order.Families

/-!
# Which entries of a manifest are documented

Every entry of a manifest gets a documentation when it is read, but the completion reaches the
documentations of the items that are listed in the end, and no others
(`Completes.document_eq_of_unlisted`): a request to inherit leads to an item as well. So an entry
whose name comes again among its siblings is neither listed nor completed. Main statement:
`Manifest.documented_of_read`, what is listed and what is completed whatever the names are, and that
every entry is if and only if the names are distinct.
-/

namespace ApiDoc

open Workspace

/-! ## What the completion reaches -/

section
variable {frame : Frame} {ids : List DocId} {w w₁ : Workspace} {d : DocId}

/-- A documentation of no item is left as it is, unless the work is about it. -/
theorem Performs.document_eq_of_unlisted (h : Performs frame w w₁) (hd : d ≠ frame.document)
    (hunlisted : d ∉ w.package.items.map Item.doc) : w₁.document d = w.document d := by
  have hkeep {w w₁ : Workspace} (hsetting : w₁.setting = w.setting)
      (hunlisted : d ∉ w.package.items.map Item.doc) : d ∉ w₁.package.items.map Item.doc := by
    rwa [show w₁.package = w.package from congrArg Setting.package hsetting]
  induction h with
  | @enter id w _ _ _ ih =>
    have htouches := touches_begun w id
    exact (ih hd (hkeep htouches.setting hunlisted)).trans (htouches.document_ne hd)
  | @conclude id w _ => exact (touches_concluded w id).document_ne hd
  | @answer id content _ w _ _ _ _ ih =>
    have htouches := (touches_popped w id).trans (touches_answered (w.popped id) id content)
    exact (ih hd (hkeep htouches.setting hunlisted)).trans (htouches.document_ne hd)
  | @force id _ _ _ source w _ _ _ hlead henter _ ihenter ihcopy =>
    have htouches := touches_popped w id
    have hpopped := hkeep htouches.setting hunlisted
    -- the request leads to an item, whose documentation is another one
    have hsource : d ≠ source := by
      rintro rfl
      obtain ⟨item, hitem, rfl⟩ := exists_item_of_lead hlead
      exact hpopped (List.mem_map_of_mem hitem)
    have hentered := ihenter hsource hpopped
    have hcopied := ihcopy hd (hkeep henter.evolves.setting hpopped)
    exact hcopied.trans (hentered.trans (htouches.document_ne hd))
  | @reuse id _ _ _ _ w _ _ _ _ _ ih =>
    have htouches := touches_popped w id
    exact (ih hd (hkeep htouches.setting hunlisted)).trans (htouches.document_ne hd)
  | @copy id kind source w _ _ ih =>
    have htouches := touches_copied w id kind source
    exact (ih hd (hkeep htouches.setting hunlisted)).trans (htouches.document_ne hd)

/-- A documentation of no item is left as it is, unless it is asked for. -/
theorem Completes.document_eq_of_unlisted (h : Completes ids w w₁) (hd : d ∉ ids)
    (hunlisted : d ∉ w.package.items.map Item.doc) : w₁.document d = w.document d := by
  induction h with
  | nil => rfl
  | enter hperforms _ ih =>
    obtain ⟨hne, hrest⟩ := not_or.1 (mt List.mem_cons.2 hd)
    have hlater := ih hrest (by rwa [hperforms.evolves.package])
    exact hlater.trans (hperforms.document_eq_of_unlisted hne hunlisted)
  | skip _ _ ih => exact ih (fun hmem => hd (List.mem_cons_of_mem _ hmem)) hunlisted
  | close _ ih => exact ih hd hunlisted

/-- The completion of a package in which nothing was begun completes the documentations of its
items, and leaves all others as they are. -/
theorem Action.run_completeAll_of_fresh (hq : w.Quiet) (hfresh : w.Fresh) :
    ∃ w₁, completeAll.run w = (.ok (), w₁) ∧ w.Evolves w₁ ∧
      (∀ d ∈ w.package.items.map Item.doc, (w₁.document d).state = .done) ∧
      ∀ d ∉ w.package.items.map Item.doc, w₁.document d = w.document d := by
  obtain ⟨w₁, hrun, -, hcompletes⟩ := run_completeAll hq
  exact ⟨w₁, hrun, hcompletes.evolves, fun d hd => hcompletes.done_of_mem hfresh hd,
    fun d hd => hcompletes.document_eq_of_unlisted hd hd⟩

end

namespace Manifest

/-! ## Names of entries and of declarations -/

section
variable {config : Config} {manifest : OrderedMap Json} {w w₁ : Workspace} {v : Json}
  {families : List (Family Declaration)}

/-- The names of an entry's members are those of the members in its family. -/
theorem names_of_family {f : Family Declaration} (h : itemDeclarations v = .ok f.toList) :
    Json.names v.members = (f.members.map Declaration.name).map fun name => some (.str name) := by
  obtain ⟨e, members, hentry, hmembers, hlist⟩ := itemDeclarations_eq_ok_iff.1 h
  obtain ⟨-, rfl⟩ := List.cons.inj hlist
  rw [← (fields_of_entry hentry).2, names_of_members hmembers, List.map_map, List.map_map]
  refine List.map_congr_left fun m _ => ?_
  exact congrArg (Option.map Json.str) List.getLast?_concat

/-- The names in a manifest are distinct if and only if those in its families are. -/
theorem distinct_iff
    (h : List.Forall₂ (fun v f => itemDeclarations v = .ok f.toList) (items manifest) families) :
    Distinct manifest ↔ Family.Distinct Declaration.name families := by
  have hnodup (names : List Text) :
      (names.map fun name => some (Json.str name)).Nodup ↔ names.Nodup :=
    List.nodup_map_iff fun _ _ heq => Json.str.inj (Option.some.inj heq)
  have howners : Json.names (items manifest) =
      (families.map fun f => f.owner.name).map fun name => some (.str name) := by
    rw [names_of_groups (List.forall₂_map_right_iff.2 h), List.map_map, List.map_map]
    rfl
  constructor
  · rintro ⟨hexports, hmembers⟩
    rw [howners, hnodup] at hexports
    refine ⟨hexports, fun f hf => ?_⟩
    obtain ⟨v, hv, hdeclares⟩ := exists_of_forall₂_right h hf
    have hnames := hmembers v hv
    rwa [names_of_family hdeclares, hnodup] at hnames
  · rintro ⟨hexports, hmembers⟩
    refine ⟨by rwa [howners, hnodup], fun v hv => ?_⟩
    obtain ⟨f, hf, hdeclares⟩ := exists_of_forall₂_right h.flip hv
    rw [names_of_family hdeclares, hnodup]
    exact hmembers f hf

/-! ## Entries and their documentation -/

/-- What becomes of the entries of a manifest when their package is completed. -/
structure Documented (families : List (Family Declaration)) (w w₁ : Workspace) : Prop where
  /-- Every entry has a documentation of its own. -/
  size : w₁.documents.size = (Family.all families).length
  /-- Before the completion it was the entry's comment as it is read. -/
  parsed : ∀ d x, (Family.all families)[d]? = some x →
    Documentation.parse w.surroundings (some x.title) (Comment.body x.comment) =
      .ok (w.document d)
  /-- Of the entries of one name among their siblings the last is listed, in the place of the
  first. -/
  items : w₁.package.items.map Item.face =
    (Family.kept Family.nameOf (Family.numbered 0 families)).map Family.faceOf
  /-- The report counts these. -/
  total : w₁.reportJson.field? "total_items".toList =
    some (.int (Family.kept Family.nameOf (Family.numbered 0 families)).length)
  /-- What is listed is completed. -/
  done : ∀ item ∈ w₁.package.items, (w₁.documentOf item).state = .done
  /-- What is not listed is left as it was read. -/
  unreached : ∀ d < w₁.documents.size, d ∉ w₁.package.items.map Item.doc →
    w₁.document d = w.document d ∧ (w₁.document d).state = .unvisited

theorem Standing.fresh {base : Workspace} (h : Standing base families w) : w.Fresh := by
  intro d hd
  rw [h.size] at hd
  exact (Documentation.wellRead_of_parse
    (h.parsed d _ (List.getElem?_eq_getElem hd))).unvisited

/-- The completion of a package that was read from a manifest. -/
theorem Standing.documented {base : Workspace} (h : Standing base families w) :
    ∃ w₁, Action.completeAll.run w = (.ok (), w₁) ∧ Documented families w w₁ := by
  obtain ⟨w₁, hrun, hevolves, hdone, hunreached⟩ := Action.run_completeAll_of_fresh h.quiet h.fresh
  rw [← hevolves.package] at hdone hunreached
  have hitems := Family.items_exports h.exports
  rw [← hevolves.package] at hitems
  refine ⟨w₁, hrun, hevolves.size.trans h.size, h.surroundings ▸ h.parsed, hitems, ?_,
    fun item hitem => hdone _ (List.mem_map_of_mem hitem), fun d hd hunlisted => ?_⟩
  · have hlength := congrArg List.length hitems
    rw [List.length_map, List.length_map] at hlength
    rw [← hlength]
    rfl
  · have hsame := hunreached d hunlisted
    exact ⟨hsame, hsame ▸ h.fresh d (hevolves.size ▸ hd)⟩

namespace Documented

/-- If all entries are listed in their order, every documentation is completed. -/
theorem done_of_items (h : Documented families w w₁)
    (hitems : w₁.package.items.map Item.face = (Family.all families).zipIdx.map Family.faceOf) :
    ∀ d < w₁.documents.size, (w₁.document d).state = .done := by
  have hdocs : w₁.package.items.map Item.doc = List.range (Family.all families).length := by
    have hnumbers := congrArg (List.map fun face : Text × ItemKind × DocId => face.2.2) hitems
    rw [List.map_map, List.map_map] at hnumbers
    exact hnumbers.trans ((List.zipIdx_map_snd 0 _).trans List.range_eq_range'.symm)
  intro d hd
  have hlisted : d ∈ w₁.package.items.map Item.doc := by
    rwa [hdocs, List.mem_range, ← h.size]
  obtain ⟨item, hitem, rfl⟩ := List.mem_map.1 hlisted
  exact h.done item hitem

/-- If every documentation is completed, as many items are counted as there are entries. -/
theorem total_of_done (h : Documented families w w₁)
    (hdone : ∀ d < w₁.documents.size, (w₁.document d).state = .done) :
    w₁.reportJson.field? "total_items".toList = some (.int (Family.all families).length) := by
  have hlisted : List.range w₁.documents.size ⊆ w₁.package.items.map Item.doc := fun d hd => by
    have hd := List.mem_range.1 hd
    refine Decidable.not_not.1 fun hunlisted => ?_
    have hstate := (h.unreached d hd hunlisted).2
    rw [hdone d hd] at hstate
    cases hstate
  have hlength := congrArg List.length h.items
  have hge := (List.nodup_range.subperm hlisted).length_le
  have hle := Family.length_kept_le Family.nameOf (Family.numbered 0 families)
  rw [List.length_map, List.length_map] at hlength
  rw [List.length_range, List.length_map, h.size, hlength] at hge
  rw [Family.all_numbered, List.length_zipIdx] at hle
  rw [h.total, Nat.le_antisymm hle hge]

/-- If as many items are counted as there are entries, the names are distinct. -/
theorem distinct_of_total (h : Documented families w w₁)
    (htotal : w₁.reportJson.field? "total_items".toList =
      some (.int (Family.all families).length)) :
    Family.Distinct Family.nameOf (Family.numbered 0 families) := by
  rw [h.total] at htotal
  have hcount := Int.ofNat.inj (Json.int.inj (Option.some.inj htotal))
  refine Family.distinct_of_length_kept ?_
  rw [Family.all_numbered, List.length_zipIdx, hcount]

end Documented

/-- A manifest that is read is documented up to the names that come again: of the entries of one
name among their siblings the last is listed, in the place of the first, and completed, and the
others are not. So if and only if the names are distinct, the package lists exactly the entries in
their order, if and only if the report counts as many items as there are entries, and if and only if
every documentation is completed. -/
theorem documented_of_read (hread : read config manifest = (.ok (), some w)) :
    ∃ (families : List (Family Declaration)) (w₁ : Workspace),
      (items manifest).mapM itemDeclarations = .ok (families.map Family.toList) ∧
      Action.completeAll.run w = (.ok (), w₁) ∧ Documented families w w₁ ∧
      [Distinct manifest,
        w₁.package.items.map Item.face = (Family.all families).zipIdx.map Family.faceOf,
        w₁.reportJson.field? "total_items".toList = some (.int (Family.all families).length),
        ∀ d < w₁.documents.size, (w₁.document d).state = .done].TFAE := by
  obtain ⟨base, families, -, hdecoded, hstanding⟩ := standing_of_read hread
  obtain ⟨w₁, hrun, hdocumented⟩ := hstanding.documented
  refine ⟨families, w₁, mapM_eq_ok_iff.2 (List.forall₂_map_right_iff.2 hdecoded), hrun,
    hdocumented, ?_⟩
  have hdistinct : Distinct manifest ↔
      Family.Distinct Family.nameOf (Family.numbered 0 families) := by
    rw [distinct_iff hdecoded]
    conv_lhs => rw [← Family.map_numbered 0 families]
    exact Family.distinct_map
  tfae_have 1 → 2 := fun h => by
    rw [hdocumented.items, (hdistinct.1 h).kept_eq_all, Family.all_numbered]
  tfae_have 2 → 4 := hdocumented.done_of_items
  tfae_have 4 → 3 := hdocumented.total_of_done
  tfae_have 3 → 1 := fun h => hdistinct.2 (hdocumented.distinct_of_total h)
  tfae_finish

end

/-- The four entries of a manifest with distinct names are listed and completed. -/
theorem inOrder_documented : ∃ w w₁, read {} inOrder = (.ok (), some w) ∧
    Action.completeAll.run w = (.ok (), w₁) ∧
    w₁.package.items.map Item.face = [("f".toList, .function, 0), ("c".toList, .classDecl, 1),
      ("a".toList, .method, 2), ("b".toList, .method, 3)] ∧
    ∀ d < w₁.documents.size, (w₁.document d).state = .done := by
  have hok : (read {} inOrder).1 = .ok () := by cbv
  have hsome : (read {} inOrder).2.isSome = true := by cbv
  obtain ⟨w, hw⟩ := Option.isSome_iff_exists.1 hsome
  have hread : read {} inOrder = (.ok (), some w) := Prod.ext hok hw
  obtain ⟨families, w₁, hdecoded, hrun, -, htfae⟩ := documented_of_read hread
  have hfaces : (Except.toOption ((items inOrder).mapM itemDeclarations)).map
      (fun groups => groups.flatten.zipIdx.map Family.faceOf) =
        some [("f".toList, .function, 0), ("c".toList, .classDecl, 1), ("a".toList, .method, 2),
          ("b".toList, .method, 3)] := by cbv
  rw [hdecoded] at hfaces
  have hlisted := (htfae.out 0 1).1 distinct_inOrder
  exact ⟨w, w₁, hread, hrun, hlisted.trans (Option.some.inj hfaces),
    (htfae.out 0 3).1 distinct_inOrder⟩

/-- A manifest of two items with one name. -/
def twice : OrderedMap Json :=
  [("package".toList, .ofString "pkg"),
    ("items".toList, .arr [entryJson "Foo" "class" "First." [],
      entryJson "Foo" "function" "Second." []])]

/-- Of two items with one name only the second is listed and counted, and the documentation of the
first is never completed. -/
theorem twice_undocumented : ∃ w w₁, read {} twice = (.ok (), some w) ∧
    Action.completeAll.run w = (.ok (), w₁) ∧ (items twice).length = 2 ∧
    w₁.documents.size = 2 ∧ (w₁.document 0).state = .unvisited ∧
    w₁.package.items.map Item.face = [("Foo".toList, .function, 1)] ∧
    w₁.reportJson.field? "total_items".toList = some (.int 1) := by
  have hok : (read {} twice).1 = .ok () := by cbv
  have hsome : (read {} twice).2.isSome = true := by cbv
  obtain ⟨w, hw⟩ := Option.isSome_iff_exists.1 hsome
  have hcompleted : ((read {} twice).2.map fun w =>
      ((Action.completeAll.run w).1, (Action.completeAll.run w).2.documents.size,
        ((Action.completeAll.run w).2.document 0).state,
        (Action.completeAll.run w).2.package.items.map Item.face,
        (Action.completeAll.run w).2.reportJson.field? "total_items".toList)) =
      some (.ok (), 2, .unvisited, [("Foo".toList, .function, 1)], some (.int 1)) := by cbv
  rw [hw] at hcompleted
  obtain ⟨houtcome, hobserved⟩ := Prod.mk.inj (Option.some.inj hcompleted)
  simp only [Prod.mk.injEq] at hobserved
  obtain ⟨hsize, hstate, hitems, htotal⟩ := hobserved
  exact ⟨w, _, Prod.ext hok hw, Prod.ext houtcome rfl, rfl, hsize, hstate, hitems, htotal⟩

end Manifest

end ApiDoc
