import ApiDoc.Proofs.Data.Shape
import ApiDoc.Proofs.Order.Families
import ApiDoc.Proofs.Resolution.Notation
import ApiDoc.Proofs.Session.Robustness

/-!
# Ill-formed manifests

What can come of a manifest, whatever JSON stands where. The form that a manifest must have is given
without the readers (`Manifest.IsWellFormed`). Every reader is judged by the values it reads
(`Manifest.Judges`): it ends well only if they have the form, fails with an error about the manifest
only if they have not, and is interrupted only by a link that leaves its package out. One reader
after the other, or one for every entry of a list, is judged by all that they read
(`Manifest.Judges.andThen`, `Manifest.Judges.forM`). Main statement: `Manifest.read_outcome`.

The form allows one name too many: the declared name of a package may end with a newline
(`Manifest.newlineName_accepted`).
-/

namespace ApiDoc

open Workspace

/-! ## Declared names -/

namespace PackageName
variable {t name : Text} {p : PackageName}

theorem dropFinalNewline_eq_self (h : Reference.PackageNotation p name) :
    Text.dropFinalNewline name = name := by
  refine if_neg fun hlast => ?_
  have hblank := List.any_eq_false.1 h.hasBlank '\n' (List.mem_of_getLast? hlast)
  exact hblank rfl

/-- A declared name is taken if it is the name of a package, and also with a newline behind it. -/
theorem parse?_eq_some_iff : parse? t = some p ↔
    ∃ name, Reference.PackageNotation p name ∧ (t = name ∨ t = name ++ ['\n']) := by
  rw [parse?, ofFull?_eq_some_iff]
  constructor
  · intro h
    refine ⟨_, h, ?_⟩
    unfold Text.dropFinalNewline
    split
    · next hlast => exact .inr (List.dropLast_append_getLast? _ hlast).symm
    · exact .inl rfl
  · rintro ⟨name, h, rfl | rfl⟩
    · rwa [dropFinalNewline_eq_self h]
    · rwa [Text.dropFinalNewline, if_pos List.getLast?_concat, List.dropLast_concat]

/-- A text is taken for the declared name of a package. -/
def IsDeclared (t : Text) : Prop :=
  t = [] ∨ ∃ p name, Reference.PackageNotation p name ∧ (t = name ∨ t = name ++ ['\n'])

end PackageName

namespace Manifest

/-! ## The form of a manifest -/

/-- A value is an entry: an object with a text as its name and the word for a kind. The comment, a
text, and the list of members may be left out. -/
inductive IsEntry : Json → Entry → Prop
  | obj {fields : OrderedMap Json} {e : Entry}
    (name : OrderedMap.find? "name".toList fields = some (.str e.name))
    (kind : OrderedMap.find? "kind".toList fields = some (.ofString e.kind.name))
    (docs : (OrderedMap.find? "docs".toList fields).getD (.str []) = .str e.docs)
    (members : (OrderedMap.find? "members".toList fields).getD (.arr []) = .arr e.members) :
    IsEntry (.obj fields) e

/-- A value is an entry without members. -/
def IsMember (v : Json) (e : Entry) : Prop :=
  IsEntry v e ∧ e.members = []

/-- A value is an entry, and its members are entries without members. -/
def IsItem (v : Json) : Prop :=
  ∃ e, IsEntry v e ∧ ∀ m ∈ e.members, ∃ e₁, IsMember m e₁

/-- A value is the items of another package: an object of items. -/
def IsPackage (isText : Json → Prop) (v : Json) : Prop :=
  ∃ items, v = .obj items ∧ ∀ item ∈ items, Json.IsResolvedItem isText item.2

/-- A value is the items of all other packages: an object of their items. -/
def IsExternal (isText : Json → Prop) (v : Json) : Prop :=
  ∃ packages, v = .obj packages ∧ ∀ package ∈ packages, IsPackage isText package.2

/-- What a manifest says apart from its items: which package it is about, whose name is empty or
taken for the name of a package, and what is known of other packages. What stands there for a text
must be one, unless something else is asked of it. -/
structure HasHead (manifest : OrderedMap Json) (package : Text)
    (isText : Json → Prop := Json.IsText) : Prop where
  declared : OrderedMap.find? "package".toList manifest = some (.str package)
  named : PackageName.IsDeclared package
  external : IsExternal isText ((OrderedMap.find? "external".toList manifest).getD (.obj []))

/-- A manifest has the form it must have, and is about a package. -/
structure IsWellFormed (manifest : OrderedMap Json) (package : Text)
    (isText : Json → Prop := Json.IsText) : Prop extends HasHead manifest package isText where
  items : ∃ vs, (OrderedMap.find? "items".toList manifest).getD (.arr []) = .arr vs ∧
    ∀ v ∈ vs, IsItem v

/-- A manifest has its form, whatever stands for a text in the items of other packages. -/
def IsLoadable (manifest : OrderedMap Json) (package : Text) : Prop :=
  IsWellFormed manifest package fun _ => True

/-- The items of other packages hold texts where they hold anything for a text: if they have their
form whatever stands there, they have it with texts. -/
def GivesTexts (manifest : OrderedMap Json) : Prop :=
  IsExternal (fun _ => True) ((OrderedMap.find? "external".toList manifest).getD (.obj [])) →
    IsExternal Json.IsText ((OrderedMap.find? "external".toList manifest).getD (.obj []))

/-- A value lists an entry: itself, or one of its members. -/
inductive Lists (v : Json) : Entry → Prop
  | owner {e : Entry} (howner : IsEntry v e) : Lists v e
  | member {e e₁ : Entry} {m : Json} (howner : IsEntry v e) (hm : m ∈ e.members)
    (hmember : IsMember m e₁) : Lists v e₁

/-- Some link in the comment of an entry leaves its package out. -/
def Entry.OmitsPackage (e : Entry) : Prop :=
  Token.OmitPackage (Token.tokenize (Comment.body e.docs))

/-- Some link in the comment of a listed entry leaves its package out. -/
def OmitsPackage (manifest : OrderedMap Json) : Prop :=
  ∃ v ∈ items manifest, ∃ e, Lists v e ∧ e.OmitsPackage

section
variable {α : Type} {owner : Option Text} {v : Json} {e : Entry} {manifest : OrderedMap Json}
  {config : Config} {package name t : Text} {vs : List Json} {field : Option Json} {w : Workspace}

theorem docsOf_eq_ok_iff : docsOf name field = .ok t ↔ field.getD (.str []) = .str t := by
  unfold docsOf
  split
  · simp
  · simp
  · next hother => exact iff_of_false nofun (hother _)

theorem membersOf_eq_ok_iff : membersOf name field = .ok vs ↔ field.getD (.arr []) = .arr vs := by
  unfold membersOf
  split
  · simp
  · simp
  · next hother => exact iff_of_false nofun (hother _)

theorem itemsOf_eq_ok_iff : itemsOf field = .ok vs ↔ field.getD (.arr []) = .arr vs := by
  unfold itemsOf
  split
  · simp
  · simp
  · next hother => exact iff_of_false nofun (hother _)

/-- The values that are read as entries; members of members are none. -/
theorem entry_eq_ok_iff_isEntry :
    entry owner v = .ok e ↔ IsEntry v e ∧ (owner.isSome → e.members = []) := by
  cases v with
  | obj fields =>
    rw [entry_eq_ok_iff, docsOf_eq_ok_iff, membersOf_eq_ok_iff]
    constructor
    · rintro ⟨hname, ⟨kind, hkind, hword⟩, hdocs, hmembers, hnested⟩
      rw [Json.itemKind_eq_ok_iff.1 hword] at hkind
      exact ⟨.obj hname hkind hdocs hmembers, hnested⟩
    · rintro ⟨⟨hname, hkind, hdocs, hmembers⟩, hnested⟩
      exact ⟨hname, ⟨_, hkind, Json.itemKind_name _⟩, hdocs, hmembers, hnested⟩
  | null | bool | int | double | str | arr =>
    refine iff_of_false nofun ?_
    rintro ⟨⟨⟩, -⟩

/-- The values that are read as the items of other packages. -/
theorem exists_externalItems_iff (package : Text) (v : Json) :
    (∃ known, externalItems package v = .ok known) ↔ IsPackage Json.IsText v := by
  cases v with
  | obj fields =>
    refine exists_mapM_eq_ok_iff.trans ?_
    simp only [IsPackage, Json.obj.injEq, exists_eq_left']
    refine forall₂_congr fun field _ => ?_
    rw [← Json.exists_resolvedItem_iff]
    cases ResolvedItem.ofJson field.2 with
    | ok known => exact iff_of_true ⟨_, rfl⟩ ⟨_, rfl⟩
    | error e => exact iff_of_false nofun nofun
  | null | bool | int | double | str | arr => exact iff_of_false nofun nofun

/-- The values that are read as the items of all other packages. -/
theorem exists_external_iff : (∃ known, external v = .ok known) ↔ IsExternal Json.IsText v := by
  cases v with
  | obj fields =>
    refine exists_mapM_eq_ok_iff.trans ?_
    simp only [IsExternal, Json.obj.injEq, exists_eq_left']
    refine forall₂_congr fun field _ => ?_
    rw [← exists_externalItems_iff field.1]
    cases externalItems field.1 field.2 with
    | ok known => exact iff_of_true ⟨_, rfl⟩ ⟨_, rfl⟩
    | error e => exact iff_of_false nofun nofun
  | null | bool | int | double | str | arr => exact iff_of_false nofun nofun

/-! ## Whatever stands for a text -/

theorem IsExternal.mono {isText isText₁ : Json → Prop} (himp : ∀ v, isText v → isText₁ v)
    (h : IsExternal isText v) : IsExternal isText₁ v := by
  obtain ⟨packages, rfl, hpackages⟩ := h
  refine ⟨packages, rfl, fun package hpackage => ?_⟩
  obtain ⟨items, hitems, hforms⟩ := hpackages package hpackage
  exact ⟨items, hitems, fun item hitem => (hforms item hitem).mono himp⟩

/-- If nothing but a text stands for a text, what can be loaded has the form that is asked for. -/
theorem isLoadable_iff (htexts : GivesTexts manifest) :
    IsLoadable manifest package ↔ IsWellFormed manifest package := by
  constructor
  · rintro ⟨⟨hdeclared, hnamed, hexternal⟩, hitems⟩
    exact ⟨⟨hdeclared, hnamed, htexts hexternal⟩, hitems⟩
  · rintro ⟨⟨hdeclared, hnamed, hexternal⟩, hitems⟩
    exact ⟨⟨hdeclared, hnamed, hexternal.mono fun _ _ => trivial⟩, hitems⟩

/-! ## The head -/

/-- A workspace while the items of a manifest about a package are read. -/
structure IsReading (package : Text) (w : Workspace) : Prop where
  quiet : w.Quiet
  isOpen : w.isComplete = false
  identity : w.identity = none ↔ package = []
  name : w.package.name = some package

theorem exists_ofName? (h : PackageName.IsDeclared package) (config : Config) :
    ∃ w, ofName? package config = some w := by
  unfold ofName?
  rcases h with rfl | ⟨p, hname⟩
  · exact ⟨_, rfl⟩
  · rw [PackageName.parse?_eq_some_iff.2 hname]
    split <;> exact ⟨_, rfl⟩

theorem of_ofName? (h : ofName? package config = some w) :
    PackageName.IsDeclared package ∧ ∀ external, IsReading package { w with external } := by
  obtain ⟨hnil, rfl⟩ | ⟨hne, identity, hparse, rfl⟩ := eq_of_ofName? h
  · exact ⟨.inl hnil, fun _ => ⟨quiet_of_faults_eq_nil rfl, rfl, iff_of_true rfl hnil, rfl⟩⟩
  · exact ⟨.inr ⟨identity, PackageName.parse?_eq_some_iff.1 hparse⟩,
      fun _ => ⟨quiet_of_faults_eq_nil rfl, rfl, iff_of_false nofun hne, rfl⟩⟩

/-- A manifest with a head gives a workspace. -/
theorem HasHead.exists_workspace (h : HasHead manifest package) (config : Config) :
    ∃ base, workspace config manifest = .ok base := by
  obtain ⟨known, hknown⟩ := exists_external_iff.2 h.external
  obtain ⟨w, hw⟩ := exists_ofName? h.named config
  refine ⟨{ w with external := known }, ?_⟩
  unfold workspace
  simp only [h.declared, hknown, hw]
  rfl

/-- A manifest that gives a workspace has a head, and its items can be read there. -/
theorem exists_hasHead (h : workspace config manifest = .ok w) :
    ∃ package, HasHead manifest package ∧ IsReading package w := by
  obtain ⟨package, known, base, hdeclared, hknown, hname, rfl⟩ := of_workspace h
  obtain ⟨hnamed, hreading⟩ := of_ofName? hname
  exact ⟨package, ⟨hdeclared, hnamed, exists_external_iff.1 ⟨known, hknown⟩⟩, hreading known⟩

/-! ## Judgements -/

/-- How a reading ends, judged by what was read, and what holds of the workspace that was
reached. -/
inductive Judged (holds : Workspace → Prop) (good omits : Prop) :
    Except Failure Unit × Workspace → Prop
  | read {w : Workspace} (hw : holds w) (hgood : good) (hnone : ¬ omits) :
    Judged holds good omits (.ok (), w)
  | malformed {e : Error} {w : Workspace} (hbad : ¬ good) :
    Judged holds good omits (.error (.malformed e), w)
  | interrupted {w : Workspace} (homits : omits) :
    Judged holds good omits (.error (.interrupted .missingPackage), w)

/-- A reader is judged by whether what it reads is good, and whether a link in it leaves its package
out. -/
def Judges (holds : Workspace → Prop) (reader : Reading Unit) (good omits : Prop) : Prop :=
  ∀ w, holds w → Judged holds good omits (reader.run w)

namespace Judges
variable {holds : Workspace → Prop} {x y : Reading Unit} {good omits good₁ omits₁ : Prop}

theorem congr (h : Judges holds x good omits) (hgood : good ↔ good₁) (homits : omits ↔ omits₁) :
    Judges holds x good₁ omits₁ := by
  rwa [← propext hgood, ← propext homits]

theorem pure : Judges holds (Pure.pure ()) True False :=
  fun _ hw => .read hw trivial id

/-- One reader after the other is judged by what both read. -/
theorem andThen (hx : Judges holds x good omits) (hy : Judges holds y good₁ omits₁) :
    Judges holds (x >>= fun _ => y) (good ∧ good₁) (omits ∨ omits₁) := by
  intro w hw
  have hfirst := hx w hw
  rw [Reading.run_bind]
  rcases hrun : x.run w with ⟨outcome, w₁⟩
  rw [hrun] at hfirst
  cases hfirst with
  | read hw₁ hgood hnone =>
    have hrest := hy w₁ hw₁
    dsimp only
    rcases hrun₁ : y.run w₁ with ⟨outcome, w₂⟩
    rw [hrun₁] at hrest
    cases hrest with
    | read hw₂ hgood₁ hnone₁ => exact .read hw₂ ⟨hgood, hgood₁⟩ (not_or.2 ⟨hnone, hnone₁⟩)
    | malformed hbad => exact .malformed fun h => hbad h.2
    | interrupted homits => exact .interrupted (.inr homits)
  | malformed hbad => exact .malformed fun h => hbad h.1
  | interrupted homits => exact .interrupted (.inl homits)

/-- A list is judged by its entries. -/
theorem forM {reader : α → Reading Unit} {good omits : α → Prop}
    (h : ∀ a, Judges holds (reader a) (good a) (omits a)) (as : List α) :
    Judges holds (as.forM reader) (∀ a ∈ as, good a) (∃ a ∈ as, omits a) := by
  induction as with
  | nil => exact pure.congr (by simp) (by simp)
  | cons a as ih => exact ((h a).andThen ih).congr (by simp) (by simp)

/-- What is decoded first is judged by what comes of the decoded value. -/
theorem ofExcept_bind {decoded : Except Error α} {f : α → Reading Unit} {good omits : α → Prop}
    (h : ∀ a, Judges holds (f a) (good a) (omits a)) :
    Judges holds (Reading.ofExcept decoded >>= f) (∃ a, decoded = .ok a ∧ good a)
      (∃ a, decoded = .ok a ∧ omits a) := by
  cases decoded with
  | ok a => exact (h a).congr (by simp) (by simp)
  | error e => exact fun w _ => .malformed nofun

end Judges

/-- An addition is interrupted if no package is known and a link leaves it out, and never else. -/
theorem judges_addItem (path : List Text) (name : Text) (kind : ItemKind) (comment : Text) :
    Judges (IsReading package) (Reading.perform (Action.addItem path name kind comment)) True
      (package = [] ∧ Token.OmitPackage (Token.tokenize (Comment.body comment))) := by
  intro w hw
  rw [← hw.identity]
  rcases Action.run_addItem_outcome hw.quiet hw.isOpen path name kind comment with
    ⟨w₁, hrun, homits⟩ | ⟨d, w₁, hrun, ⟨_, _, _, rfl⟩, hq₁, hkeeps⟩
  · rw [Reading.run_perform_error hrun]
    exact .interrupted homits
  · rw [Reading.run_perform_ok hrun]
    exact .read ⟨hq₁, hw.isOpen, hw.identity, hw.name⟩ trivial hkeeps

theorem judges_readMember (owner : Text) (v : Json) :
    Judges (IsReading package) (readMember owner v) (∃ e, IsMember v e)
      (package = [] ∧ ∃ e, IsMember v e ∧ e.OmitsPackage) := by
  have hentry (e : Entry) : entry (some owner) v = .ok e ↔ IsMember v e :=
    entry_eq_ok_iff_isEntry.trans (and_congr_right' (forall_prop_of_true rfl))
  have hreader : Judges (IsReading package) (readMember owner v)
      (∃ e, entry (some owner) v = .ok e ∧ True)
      (∃ e, entry (some owner) v = .ok e ∧ package = [] ∧ e.OmitsPackage) := by
    unfold readMember
    exact Judges.ofExcept_bind fun e => judges_addItem [owner] e.name e.kind e.docs
  refine hreader.congr ?_ ?_
  · simp only [hentry, and_true]
  · simp only [hentry, and_left_comm, exists_and_left]

theorem judges_readItem (v : Json) :
    Judges (IsReading package) (readItem v) (IsItem v)
      (package = [] ∧ ∃ e, Lists v e ∧ e.OmitsPackage) := by
  have hentry (e : Entry) : entry none v = .ok e ↔ IsEntry v e :=
    entry_eq_ok_iff_isEntry.trans (and_iff_left nofun)
  have hreader : Judges (IsReading package) (readItem v)
      (∃ e, entry none v = .ok e ∧ True ∧ ∀ m ∈ e.members, ∃ e₁, IsMember m e₁)
      (∃ e, entry none v = .ok e ∧ (package = [] ∧ e.OmitsPackage ∨
        ∃ m ∈ e.members, package = [] ∧ ∃ e₁, IsMember m e₁ ∧ e₁.OmitsPackage)) := by
    unfold readItem
    exact Judges.ofExcept_bind fun e => (judges_addItem [] e.name e.kind e.docs).andThen
      (Judges.forM (judges_readMember e.name) e.members)
  refine hreader.congr ?_ ⟨?_, ?_⟩
  · simp only [hentry, true_and, IsItem]
  · rintro ⟨e, he, ⟨hnil, homits⟩ | ⟨m, hm, hnil, e₁, hmember, homits⟩⟩
    · exact ⟨hnil, e, .owner ((hentry e).1 he), homits⟩
    · exact ⟨hnil, e₁, .member ((hentry e).1 he) hm hmember, homits⟩
  · rintro ⟨hnil, e, ⟨howner⟩ | ⟨howner, hm, hmember⟩, homits⟩
    · exact ⟨_, (hentry _).2 howner, .inl ⟨hnil, homits⟩⟩
    · exact ⟨_, (hentry _).2 howner, .inr ⟨_, hm, hnil, _, hmember, homits⟩⟩

theorem mem_items_iff : v ∈ items manifest ↔
    ∃ vs, itemsOf (OrderedMap.find? "items".toList manifest) = .ok vs ∧ v ∈ vs := by
  constructor
  · intro hv
    unfold items at hv
    split at hv
    · next vs hfield => exact ⟨vs, by rw [hfield]; rfl, hv⟩
    · cases hv
  · rintro ⟨vs, hvs, hv⟩
    rwa [← eq_items_of_itemsOf hvs]

/-- The list of items. -/
theorem judges_items (manifest : OrderedMap Json) :
    Judges (IsReading package)
      (Reading.ofExcept (itemsOf (OrderedMap.find? "items".toList manifest)) >>= fun vs =>
        vs.forM readItem)
      (∃ vs, (OrderedMap.find? "items".toList manifest).getD (.arr []) = .arr vs ∧
        ∀ v ∈ vs, IsItem v)
      (package = [] ∧ OmitsPackage manifest) := by
  refine (Judges.ofExcept_bind (Judges.forM judges_readItem)).congr ?_ ?_
  · simp only [itemsOf_eq_ok_iff]
  · constructor
    · rintro ⟨vs, hvs, v, hv, hnil, homits⟩
      exact ⟨hnil, v, mem_items_iff.2 ⟨vs, hvs, hv⟩, homits⟩
    · rintro ⟨hnil, v, hv, homits⟩
      obtain ⟨vs, hvs, hv⟩ := mem_items_iff.1 hv
      exact ⟨vs, hvs, v, hv, hnil, homits⟩

/-- A manifest is read in whatever form, with one of three outcomes: it has the form it must have,
and there is a workspace of its package; it has not, and fails with an error; or the package has the
empty name, and a link in some comment leaves its package out. -/
theorem read_outcome (config : Config) (manifest : OrderedMap Json) :
    (∃ w package, read config manifest = (.ok (), some w) ∧ w.package.name = some package ∧
      IsWellFormed manifest package ∧ ¬ (package = [] ∧ OmitsPackage manifest)) ∨
    (∃ e, (read config manifest).1 = .error (.malformed e) ∧
      ∀ package, ¬ IsWellFormed manifest package) ∨
    (read config manifest).1 = .error (.interrupted .missingPackage) ∧
      OrderedMap.find? "package".toList manifest = some (.str []) ∧ OmitsPackage manifest := by
  unfold read
  cases hbase : workspace config manifest with
  | error e =>
    refine .inr (.inl ⟨e, rfl, fun package h => ?_⟩)
    obtain ⟨base, hok⟩ := h.toHasHead.exists_workspace config
    cases hbase.symm.trans hok
  | ok base =>
    obtain ⟨package, hhead, hreading⟩ := exists_hasHead hbase
    have hjudged := judges_items manifest base hreading
    dsimp only
    rcases hrun : (Reading.ofExcept (itemsOf (OrderedMap.find? "items".toList manifest)) >>=
      fun vs => vs.forM readItem).run base with ⟨outcome, w⟩
    rw [hrun] at hjudged
    cases hjudged with
    | read hw hitems hnone => exact .inl ⟨w, package, rfl, hw.name, ⟨hhead, hitems⟩, hnone⟩
    | malformed hbad => exact .inr (.inl ⟨_, rfl, fun _ h => hbad h.items⟩)
    | interrupted homits => exact .inr (.inr ⟨rfl, homits.1 ▸ hhead.declared, homits.2⟩)

/-- A manifest about `pkg` with a newline behind the name is read, although no package is written
like that. -/
theorem newlineName_accepted :
    (∃ w, read {} [("package".toList, .ofString "pkg\n")] = (.ok (), some w) ∧
      w.package.name = some "pkg\n".toList) ∧
    "pkg\n".toList ≠ [] ∧ ¬ ∃ p, Reference.PackageNotation p "pkg\n".toList := by
  refine ⟨⟨_, rfl, rfl⟩, by decide, ?_⟩
  rintro ⟨p, h⟩
  cases h.hasBlank

end

end Manifest

end ApiDoc
