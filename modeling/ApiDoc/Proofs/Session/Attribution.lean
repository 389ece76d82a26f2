import ApiDoc.Extraction.Report
import ApiDoc.Proofs.Completion.Records
import ApiDoc.Proofs.Session.Edits
import ApiDoc.Proofs.Workspace.Items
import ApiDoc.Proofs.Workspace.Reading

/-!
# Whose diagnostics they are

A problem is kept twice: with its documentation, and among the diagnostics of the package, where
only the name of the item says whose it is. While no two items have one name, the diagnostics under
the name of an item are the problems of its documentation in their order, and there are no others
(`Workspace.Attributed`). It does not matter how the reports of several documentations come between
one another while one waits for the rest. Main statement:
`DistinctSession.diagnostics_attributed`.
-/

namespace ApiDoc

open Workspace

/-- No member of an export has members of its own. -/
def Package.IsShallow (package : Package) : Prop :=
  ∀ item ∈ OrderedMap.values package.exports, ∀ member ∈ OrderedMap.values item.members,
    member.members = []

instance (package : Package) : Decidable package.IsShallow :=
  inferInstanceAs (Decidable (∀ item ∈ OrderedMap.values package.exports,
    ∀ member ∈ OrderedMap.values item.members, member.members = []))

namespace Workspace

/-- The diagnostics under a name, in their order. -/
def diagnosticsOf (w : Workspace) (name : Text) : List Diagnostic :=
  w.diagnostics.filter fun x => x.itemName = some name

/-- The diagnostics are those of the documentations, which their names tell apart: `names` has the
name of each documentation at its number. -/
structure Attributed (names : List Text) (w : Workspace) : Prop where
  nodup : names.Nodup
  size : w.documents.size = names.length
  itemName : ∀ d, (w.document d).itemName = names[d]?
  own : ∀ d name, names[d]? = some name →
    w.diagnosticsOf name = (w.document d).problems.map (w.document d).diagnostic
  known : ∀ x ∈ w.diagnostics, ∃ name ∈ names, x.itemName = some name
  failed : ∀ d, (w.document d).FailsByProblems

/-- Every item has a documentation under its name, and every documentation an item. -/
structure Occupied (names : List Text) (w : Workspace) : Prop where
  found : ∀ path name item, Item.at? (path ++ [name]) w.package.exports = some item →
    names[item.doc]? = some (w.qualifiedName path name)
  held : ∀ d < names.length, ∃ path name item,
    Item.at? (path ++ [name]) w.package.exports = some item ∧ item.doc = d

end Workspace

/-- A session in which no two items are added under one name and no addition is refused, while the
listener is patient. The names of the items are listed in the order of the additions. -/
inductive DistinctSession : List Text → Workspace → Prop
  /-- A package without items and diagnostics. -/
  | start {w : Workspace} (hdocuments : w.documents = #[]) (hexports : w.package.exports = [])
      (hdiagnostics : w.diagnostics = []) (hq : w.Quiet) : DistinctSession [] w
  /-- An item is added, under a new name, as an export or below an item that is there. -/
  | add {names : List Text} {w : Workspace} (h : DistinctSession names w) (path : List Text)
      (name : Text) (kind : ItemKind) (comment : Text)
      (howner : path = [] ∨ (Item.at? path w.package.exports).isSome)
      (hnew : w.qualifiedName path name ∉ names)
      (hok : ((Operation.add path name kind comment).perform.run w).1 = .ok ()) :
      DistinctSession (names ++ [w.qualifiedName path name])
        ((Operation.add path name kind comment).perform.run w).2
  /-- Items of another package are made known. -/
  | external {names : List Text} {w : Workspace} (h : DistinctSession names w) (package : Text)
      (items : OrderedMap ResolvedItem) :
      DistinctSession names ((Operation.external package items).perform.run w).2
  /-- The settings are changed. -/
  | configure {names : List Text} {w : Workspace} (h : DistinctSession names w) (config : Config) :
      DistinctSession names ((Operation.configure config).perform.run w).2
  /-- Documentations are completed. -/
  | call {names : List Text} {w : Workspace} (h : DistinctSession names w) (call : Call) :
      DistinctSession names ((Operation.call call).perform.run w).2

/-- In a package without deeper members, what stands anywhere is an export or a member of one. -/
theorem Package.IsShallow.mem_items {package : Package} (h : package.IsShallow) {key : List Text}
    {item : Item} (hitem : Item.at? key package.exports = some item) : item ∈ package.items := by
  cases key with
  | nil => cases hitem
  | cons name key =>
    cases key with
    | nil =>
      have hexport := OrderedMap.mem_values_of_find? hitem
      exact List.mem_flatMap.2 ⟨item, hexport, List.mem_cons_self⟩
    | cons next key =>
      rw [Item.at?_cons (List.cons_ne_nil _ _)] at hitem
      obtain ⟨owner, howner, hitem⟩ := Option.bind_eq_some_iff.1 hitem
      have hexport := OrderedMap.mem_values_of_find? howner
      cases key with
      | nil =>
        have hmember := OrderedMap.mem_values_of_find? hitem
        exact List.mem_flatMap.2 ⟨owner, hexport, List.mem_cons_of_mem _ hmember⟩
      | cons last key =>
        rw [Item.at?_cons (List.cons_ne_nil _ _)] at hitem
        obtain ⟨member, hmember, hitem⟩ := Option.bind_eq_some_iff.1 hitem
        rw [h owner hexport member (OrderedMap.mem_values_of_find? hmember),
          Item.at?_eq_none_of_find? rfl] at hitem
        cases hitem

section
variable {names : List Text} {name : Text} {w w₁ : Workspace} {id : DocId}
  {f : Documentation → Documentation} {new : List Problem} {due : List Warning}
  {d d₁ : Documentation} {around : Surroundings}

/-! ## The diagnostics of one documentation -/

namespace Documentation

/-- The diagnostics of one documentation are all under its name. -/
theorem filter_diagnostic (d : Documentation) (problems : List Problem) (name : Text) :
    (problems.map d.diagnostic).filter (fun x => x.itemName = some name) =
      if d.itemName = some name then problems.map d.diagnostic else [] := by
  split
  · next heq =>
    refine List.filter_eq_self.2 fun x hx => ?_
    obtain ⟨p, -, rfl⟩ := List.mem_map.1 hx
    exact decide_eq_true heq
  · next hne =>
    refine List.filter_eq_nil_iff.2 fun x hx => ?_
    obtain ⟨p, -, rfl⟩ := List.mem_map.1 hx
    exact fun heq => hne (of_decide_eq_true heq)

end Documentation

namespace Workspace

/-- The diagnostics that come from one documentation are added to those under its name. -/
theorem diagnosticsOf_append {problems : List Problem}
    (h : w₁.diagnostics = w.diagnostics ++ problems.map d.diagnostic) (name : Text) :
    w₁.diagnosticsOf name =
      w.diagnosticsOf name ++ if d.itemName = some name then problems.map d.diagnostic else [] := by
  rw [diagnosticsOf, h, List.filter_append, d.filter_diagnostic]
  rfl

/-- A documentation with a problem has a number that was given out. -/
theorem lt_size_of_problems_ne (h : (w.document id).problems ≠ []) : id < w.documents.size := by
  refine Nat.lt_of_not_le fun hle => h ?_
  rw [document_of_size_le hle]

namespace Attributed

theorem lt_size (h : w.Attributed names) {d : DocId} (hd : names[d]? = some name) :
    d < w.documents.size :=
  h.size ▸ (List.getElem?_eq_some_iff.1 hd).1

theorem start (hdocuments : w.documents = #[]) (hdiagnostics : w.diagnostics = []) :
    w.Attributed [] where
  nodup := List.nodup_nil
  size := by rw [hdocuments]; rfl
  itemName d := by
    rw [document_of_size_le (by rw [hdocuments]; exact Nat.zero_le d)]
    rfl
  own := nofun
  known := by
    rw [hdiagnostics]
    nofun
  failed d := by
    rw [document_of_size_le (by rw [hdocuments]; exact Nat.zero_le d)]
    exact iff_of_false nofun fun h => h rfl

/-- There is no diagnostic under another name. -/
theorem diagnosticsOf_eq_nil (h : w.Attributed names) (hname : name ∉ names) :
    w.diagnosticsOf name = [] := by
  refine List.filter_eq_nil_iff.2 fun x hx heq => ?_
  obtain ⟨known, hknown, hx⟩ := h.known x hx
  cases hx.symm.trans (of_decide_eq_true heq)
  exact hname hknown

/-- Every diagnostic is a problem of a documentation, under its name. -/
theorem exists_problem (h : w.Attributed names) {x : Diagnostic} (hx : x ∈ w.diagnostics) :
    ∃ d name, names[d]? = some name ∧ x.itemName = some name ∧
      x.problem ∈ (w.document d).problems := by
  obtain ⟨name, hname, hitem⟩ := h.known x hx
  obtain ⟨d, hd⟩ := List.mem_iff_getElem?.1 hname
  have hmem : x ∈ w.diagnosticsOf name := List.mem_filter.2 ⟨hx, decide_eq_true hitem⟩
  rw [h.own d name hd] at hmem
  obtain ⟨p, hp, rfl⟩ := List.mem_map.1 hmem
  exact ⟨d, name, hd, hitem, hp⟩

/-- Every diagnostic is a problem of an item, under its name. -/
theorem exists_item (h : w.Attributed names) (hoccupied : w.Occupied names) {x : Diagnostic}
    (hx : x ∈ w.diagnostics) : ∃ path name item,
      Item.at? (path ++ [name]) w.package.exports = some item ∧
      x.itemName = some (w.qualifiedName path name) ∧
      x.problem ∈ (w.documentOf item).problems := by
  obtain ⟨d, full, hd, hname, hproblem⟩ := h.exists_problem hx
  obtain ⟨path, name, item, hitem, rfl⟩ := hoccupied.held d (List.getElem?_eq_some_iff.1 hd).1
  cases hd.symm.trans (hoccupied.found path name item hitem)
  exact ⟨path, name, item, hitem, hname, hproblem⟩

/-- There is a diagnostic for every documentation with a problem. -/
theorem diagnostics_ne_nil (h : w.Attributed names) {d : DocId}
    (hproblems : (w.document d).problems ≠ []) : w.diagnostics ≠ [] := by
  have hd : d < names.length := h.size ▸ lt_size_of_problems_ne hproblems
  intro hnil
  have hown := h.own d _ (List.getElem?_eq_getElem hd)
  rw [diagnosticsOf, hnil] at hown
  exact hproblems (List.map_eq_nil_iff.1 hown.symm)

end Attributed

/-! ## Completion -/

theorem Records.itemName_eq (h : Records id f new due w w₁) (d : DocId) :
    (w₁.document d).itemName = (w.document d).itemName := by
  by_cases hd : d = id
  · subst hd
    rw [h.document_self h.inside]
    exact h.itemName
  · rw [h.document_ne hd]

/-- A step finds problems of one documentation. They are added to the diagnostics under its name,
and the diagnostics under another name stay as they are. -/
theorem Attributed.records (h : w.Attributed names) (hstep : Records id f new due w w₁) :
    w₁.Attributed names where
  nodup := h.nodup
  size := hstep.size.trans h.size
  itemName d := (hstep.itemName_eq d).trans (h.itemName d)
  own d name hd := by
    rw [diagnosticsOf_append hstep.diagnostics, h.own d name hd, h.itemName id]
    by_cases heq : d = id
    · subst heq
      rw [if_pos hd, hstep.document_self hstep.inside, hstep.problems,
        Documentation.diagnostic_eq hstep.itemName, List.map_append]
    · have hne : names[id]? ≠ some name := fun hid =>
        heq ((List.getElem?_inj (h.size ▸ h.lt_size hd) h.nodup).1 (hd.trans hid.symm))
      rw [if_neg hne, List.append_nil, hstep.document_ne heq]
  known x hx := by
    rw [hstep.diagnostics] at hx
    rcases List.mem_append.1 hx with hx | hx
    · exact h.known x hx
    · obtain ⟨p, -, rfl⟩ := List.mem_map.1 hx
      have hid : id < names.length := h.size ▸ hstep.inside
      refine ⟨names[id], List.getElem_mem hid, ?_⟩
      exact (h.itemName id).trans (List.getElem?_eq_getElem hid)
  failed d := by
    by_cases heq : d = id
    · subst heq
      have hbefore := h.failed d
      rw [hstep.document_self hstep.inside]
      unfold Documentation.FailsByProblems at hbefore ⊢
      rw [hstep.hasFailed, hstep.problems]
      cases new with
      | nil => rwa [List.append_nil, List.isEmpty_nil, Bool.not_true, Bool.or_false]
      | cons p new => exact iff_of_true (Bool.or_true _) (by simp)
    · rw [hstep.document_ne heq]
      exact h.failed d

theorem Attributed.recorded (h : w.Attributed names) (hstep : Recorded w w₁) :
    w₁.Attributed names := by
  cases hstep with
  | step hstep => exact h.records hstep
  | close w => exact ⟨h.nodup, h.size, h.itemName, h.own, h.known, h.failed⟩

theorem Recorded.diagnostics_grow (h : Recorded w w₁) : w.diagnostics <+: w₁.diagnostics := by
  cases h with
  | step h => exact h.diagnostics ▸ List.prefix_append _ _
  | close => exact List.prefix_rfl

end Workspace

theorem Completes.attributed {ids : List DocId} (h : Completes ids w w₁)
    (hw : w.Attributed names) : w₁.Attributed names :=
  h.keeps (fun hstep hbefore => hbefore.recorded hstep) hw

theorem Completes.diagnostics_grow {ids : List DocId} (h : Completes ids w w₁) :
    w.diagnostics <+: w₁.diagnostics :=
  h.keeps (P := fun w₁ => w.diagnostics <+: w₁.diagnostics)
    (fun hstep hbefore => hbefore.trans hstep.diagnostics_grow) List.prefix_rfl

namespace Workspace

/-- While the listener is patient, an operation adds diagnostics at the end only. -/
theorem diagnostics_grow_perform (hq : w.Quiet) (operation : Operation) :
    w.diagnostics <+: (operation.perform.run w).2.diagnostics ∧
      (operation.perform.run w).2.Quiet := by
  cases operation with
  | add path name kind comment =>
    rw [Operation.perform]
    rcases Action.run_addItem_cases_of_quiet hq path name kind comment with
      ⟨e, w₁, hrun, -, hq₁, hgrow⟩ | ⟨d, w₁, hrun, -, -, hq₁, hdiagnostics⟩ <;> rw [hrun]
    · exact ⟨hgrow, hq₁⟩
    · exact ⟨hdiagnostics ▸ List.prefix_append _ _, hq₁⟩
  | external | configure => exact ⟨List.prefix_rfl, hq⟩
  | call call =>
    obtain ⟨w₁, hrun, hq₁, hcompletes⟩ := Action.run_call hq call
    rw [Operation.perform, hrun]
    exact ⟨hcompletes.diagnostics_grow, hq₁⟩

theorem diagnostics_grow_after (hq : w.Quiet) (operations : List Operation) :
    w.diagnostics <+: (w.after operations).diagnostics := by
  induction operations generalizing w with
  | nil => exact List.prefix_rfl
  | cons operation operations ih =>
    obtain ⟨hgrow, hq₁⟩ := diagnostics_grow_perform hq operation
    exact hgrow.trans (ih hq₁)

/-! ## Additions -/

/-- A new documentation under a new name brings its diagnostics with it. -/
theorem Attributed.register (h : w.Attributed names) (hnew : name ∉ names)
    (hname : d.itemName = some name) (hfailed : d.FailsByProblems) (hreports : w.ReportsTo w₁)
    (hdiagnostics : w₁.diagnostics = w.diagnostics ++ d.problems.map d.diagnostic)
    (path : List Text) (key : Text) (kind : ItemKind) :
    (w₁.register path key kind d).Attributed (names ++ [name]) := by
  have hall : (w₁.register path key kind d).diagnostics =
      w.diagnostics ++ d.problems.map d.diagnostic := hdiagnostics
  have hdocument (i : DocId) : (w₁.register path key kind d).document i =
      if i = names.length then d else w.document i := by
    rw [document_register, ← h.size]
    obtain ⟨_, _, _, rfl⟩ := hreports
    rfl
  exact {
    nodup := List.nodup_append'.2
      ⟨h.nodup, List.nodup_singleton _, List.disjoint_singleton.2 hnew⟩
    size := by
      rw [List.length_append, List.length_singleton, ← h.size, ← hreports.documents_eq]
      exact Array.size_push _
    itemName i := by
      refine Option.ext fun other => ?_
      rw [hdocument, getElem?_concat_eq_some_iff]
      split
      · next heq =>
        subst heq
        simp [hname, eq_comm]
      · next hne => simp [h.itemName, hne]
    own i other hi := by
      rw [diagnosticsOf_append hall, hdocument]
      rcases getElem?_concat_eq_some_iff.1 hi with hi | ⟨rfl, rfl⟩
      · have hne : d.itemName ≠ some other := by
          rw [hname]
          rintro ⟨⟩
          exact hnew (List.mem_of_getElem? hi)
        rw [if_neg hne, List.append_nil, h.own i other hi,
          if_neg (Nat.ne_of_lt (h.size ▸ h.lt_size hi))]
      · rw [h.diagnosticsOf_eq_nil hnew, if_pos hname, if_pos rfl, List.nil_append]
    known x hx := by
      rw [hall] at hx
      rcases List.mem_append.1 hx with hx | hx
      · obtain ⟨other, hother, hx⟩ := h.known x hx
        exact ⟨other, List.mem_append_left _ hother, hx⟩
      · obtain ⟨p, -, rfl⟩ := List.mem_map.1 hx
        exact ⟨name, List.mem_append_right _ List.mem_cons_self, hname⟩
    failed i := by
      rw [hdocument]
      split
      · exact hfailed
      · exact h.failed i }

theorem Occupied.start (hexports : w.package.exports = []) : w.Occupied [] where
  found path name item hitem := by
    have hnone : Item.at? (path ++ [name]) [] = none := by
      cases path <;> exact Item.at?_eq_none_of_find? rfl _
    rw [hexports, hnone] at hitem
    cases hitem
  held := nofun

/-- Which items there are and what they are called depends on the package only. -/
theorem Occupied.of_package_eq (h : w.Occupied names) (hpackage : w₁.package = w.package) :
    w₁.Occupied names where
  found path name item hitem := by
    rw [hpackage] at hitem
    unfold qualifiedName
    rw [hpackage]
    exact h.found path name item hitem
  held d hd := by
    rw [hpackage]
    exact h.held d hd

/-- Every item and every documentation has its counterpart after an addition under a new name. -/
theorem Occupied.register (h : w.Occupied names) (hsize : w.documents.size = names.length)
    {path : List Text} {key : Text} (kind : ItemKind) (added : Documentation)
    (howner : path = [] ∨ (Item.at? path w.package.exports).isSome)
    (hnew : w.qualifiedName path key ∉ names) :
    (w.register path key kind added).Occupied (names ++ [w.qualifiedName path key]) := by
  have hfresh : Item.at? (path ++ [key]) w.package.exports = none :=
    Option.eq_none_iff_forall_ne_some.2 fun item hitem =>
      hnew (List.mem_of_getElem? (h.found path key item hitem))
  have hname {other : List Text} (hother : other ≠ path ++ [key]) :=
    qualifiedName_register kind added howner hfresh hother
  refine ⟨fun other name item hitem => ?_, fun d hd => ?_⟩
  · refine getElem?_concat_eq_some_iff.2 ?_
    rcases at?_register_cases howner hfresh hitem with ⟨hplace, hface⟩ | ⟨before, hbefore, hface⟩
    · obtain ⟨rfl, hkey⟩ := List.append_inj' hplace rfl
      obtain rfl := List.singleton_inj.1 hkey
      have hpath : other ≠ other ++ [name] := by simp
      exact .inr ⟨hsize ▸ congrArg (·.2.2) hface, hname hpath name⟩
    · have hother : other ≠ path ++ [key] := by
        rintro rfl
        rw [Item.at?_concat_eq_none (by simp) hfresh] at hbefore
        cases hbefore
      have hdoc : before.doc = item.doc := congrArg (·.2.2) hface
      exact .inl (hdoc ▸ hname hother name ▸ h.found other name before hbefore)
  · rw [List.length_append, List.length_singleton, Nat.lt_succ_iff_lt_or_eq] at hd
    rcases hd with hd | rfl
    · obtain ⟨other, name, before, hbefore, rfl⟩ := h.held d hd
      obtain ⟨item, hitem, hface⟩ := exists_at?_register_of_at? kind added howner hfresh hbefore
      exact ⟨other, name, item, hitem, congrArg (·.2.2) hface⟩
    · obtain ⟨item, hitem, hface⟩ := exists_at?_register kind added howner hfresh
      exact ⟨path, key, item, hitem, hsize ▸ congrArg (·.2.2) hface⟩

/-- An addition under a new name that is not refused. -/
theorem Attributed.add (h : w.Attributed names) (hoccupied : w.Occupied names) (hq : w.Quiet)
    {path : List Text} {key : Text} {kind : ItemKind} {comment : Text}
    (howner : path = [] ∨ (Item.at? path w.package.exports).isSome)
    (hnew : w.qualifiedName path key ∉ names)
    (hrun : (Action.addItem path key kind comment).run w = (.ok (), w₁)) :
    w₁.Quiet ∧ w₁.Attributed (names ++ [w.qualifiedName path key]) ∧
      w₁.Occupied (names ++ [w.qualifiedName path key]) := by
  rcases Action.run_addItem_cases_of_quiet hq path key kind comment with
    ⟨e, w₂, hrefused, -⟩ | ⟨d, w₂, hadded, hparse, hreports, hq₂, hdiagnostics⟩
  · cases hrun.symm.trans hrefused
  · cases hrun.symm.trans hadded
    have hname := Documentation.itemName_of_parse hparse
    have hown : (fun problem => ({ problem, itemName := some (w.qualifiedName path key) } :
        Diagnostic)) = d.diagnostic := by
      rw [← hname]
      rfl
    rw [hown] at hdiagnostics
    have hfailed := (Documentation.wellRead_of_parse hparse).failed
    refine ⟨hq₂, h.register hnew hname hfailed hreports hdiagnostics path key kind, ?_⟩
    obtain ⟨_, _, _, rfl⟩ := hreports
    exact (hoccupied.register h.size kind d howner hnew).of_package_eq rfl

end Workspace

/-! ## Sessions -/

namespace DistinctSession

/-- After every session the diagnostics are those of the documentations, and each of these is that
of one item. -/
theorem invariant (h : DistinctSession names w) :
    w.Quiet ∧ w.Attributed names ∧ w.Occupied names := by
  induction h with
  | start hdocuments hexports hdiagnostics hq =>
    exact ⟨hq, .start hdocuments hdiagnostics, .start hexports⟩
  | add _ path name kind comment howner hnew hok ih =>
    obtain ⟨hq, hattributed, hoccupied⟩ := ih
    exact hattributed.add hoccupied hq howner hnew (Prod.ext hok rfl)
  | external _ _ _ ih | configure _ _ ih =>
    obtain ⟨hq, hattributed, hoccupied⟩ := ih
    exact ⟨hq, { hattributed with }, hoccupied.of_package_eq rfl⟩
  | call _ call ih =>
    obtain ⟨hq, hattributed, hoccupied⟩ := ih
    obtain ⟨w₁, hrun, hq₁, hcompletes⟩ := Action.run_call hq call
    rw [Operation.perform, hrun]
    exact ⟨hq₁, hcompletes.attributed hattributed,
      hoccupied.of_package_eq hcompletes.evolves.package⟩

/-- After a session in which no two items are added under one name, the diagnostics under the name
of an item are the problems of its documentation, each once and in their order, and the item counts
as failed if and only if there are any. There are no other diagnostics, and whatever is done later
adds more at the end only. So if no member has members of its own, there is a diagnostic if and only
if the report counts a failed item. -/
theorem diagnostics_attributed (h : DistinctSession names w) :
    (∀ path name item, Item.at? (path ++ [name]) w.package.exports = some item →
      w.diagnosticsOf (w.qualifiedName path name) =
        (w.documentOf item).problems.map (w.documentOf item).diagnostic ∧
      ((w.documentOf item).hasFailed = true ↔ (w.documentOf item).problems ≠ [])) ∧
    (∀ x ∈ w.diagnostics, ∃ path name item,
      Item.at? (path ++ [name]) w.package.exports = some item ∧
      x.itemName = some (w.qualifiedName path name) ∧ x.problem ∈ (w.documentOf item).problems) ∧
    (∀ operations, w.diagnostics <+: (w.after operations).diagnostics) ∧
    (w.package.IsShallow → (w.diagnostics ≠ [] ↔ 0 < w.failedItems.length)) := by
  obtain ⟨hq, hattributed, hoccupied⟩ := h.invariant
  refine ⟨fun path name item hitem => ⟨?_, hattributed.failed item.doc⟩,
    fun x => hattributed.exists_item hoccupied, diagnostics_grow_after hq,
    fun hshallow => ⟨fun hne => ?_, fun hpos => ?_⟩⟩
  · exact hattributed.own item.doc _ (hoccupied.found path name item hitem)
  · obtain ⟨x, hx⟩ := List.exists_mem_of_ne_nil _ hne
    obtain ⟨path, name, item, hitem, -, hproblem⟩ := hattributed.exists_item hoccupied hx
    refine List.length_pos_of_mem (List.mem_filter.2 ⟨hshallow.mem_items hitem, ?_⟩)
    exact (hattributed.failed item.doc).2 (List.ne_nil_of_mem hproblem)
  · obtain ⟨item, hitem⟩ := List.exists_mem_of_length_pos hpos
    have hproblems := (hattributed.failed item.doc).1 (List.mem_filter.1 hitem).2
    exact hattributed.diagnostics_ne_nil hproblems

end DistinctSession

/-- A package without items. -/
def Workspace.vacant : Workspace where
  package := { name := some "p".toList }
  identity := some { scope := [], name := "p".toList }
  config := {}

/-- A class and its member that inherit from each other. The member is to be completed, so the class
is completed on the way, and the circle is its problem. -/
def Workspace.crossing : Workspace :=
  Workspace.vacant.after
    [.add [] "C".toList .classDecl "\x7b@inheritdoc C.m\x7d @foo".toList,
      .add ["C".toList] "m".toList .method "\x7b@inheritdoc C\x7d".toList, .call (.item 1)]

/-- The report about `crossing` has two diagnostics, so it counts failed items. -/
theorem DistinctSession.crossing_diagnostics_attributed :
    ∃ names, DistinctSession names crossing ∧ crossing.package.IsShallow ∧
      crossing.diagnostics.map Diagnostic.itemName = [some "C".toList, some "C".toList] ∧
      0 < crossing.failedItems.length := by
  have hC := (DistinctSession.start rfl rfl rfl (by decide : vacant.Quiet)).add [] "C".toList
    .classDecl "\x7b@inheritdoc C.m\x7d @foo".toList (.inl rfl) nofun (by cbv)
  have hm := hC.add ["C".toList] "m".toList .method "\x7b@inheritdoc C\x7d".toList (.inr (by cbv))
    (of_decide_eq_false (by cbv)) (by cbv)
  have hshallow : crossing.package.IsShallow := of_decide_eq_true (by cbv)
  have hnames : crossing.diagnostics.map Diagnostic.itemName =
      [some "C".toList, some "C".toList] := by cbv
  obtain ⟨-, -, -, hfailed⟩ := diagnostics_attributed (hm.call (.item 1))
  refine ⟨_, hm.call (.item 1), hshallow, hnames, (hfailed hshallow).1 fun hnil => ?_⟩
  have hnone : crossing.diagnostics = [] := hnil
  rw [hnone] at hnames
  cases hnames

end

end ApiDoc
