import ApiDoc.Proofs.Text.Blank
import ApiDoc.Proofs.Text.Split
import ApiDoc.Proofs.Workspace.Quiet

/-!
# The names of an item of the package

A comment can name an item of its own package in three ways: by a link, into which the parts of the
package's name are put, by a reference without a package, and by a key with those parts. A key that
names a package is one of the package at hand if the parts, put together, are the declared name.
They are, less a newline at the end of the declared name (`PackageName.full_of_parse?`), so the
three ways lead to the same item for every name that ends otherwise. Main statement:
`Workspace.names_agree`.

Where the declared name does end with a newline, a link to an item of the package leads out of it
(`Workspace.widgetBehindNewline_names_disagree`).
-/

namespace ApiDoc

namespace ItemKey

/-- A key names an item of the package at hand, as a reference without a package does: by an
identifier, and by another one if it is a member. -/
structure IsLocal (key : ItemKey) : Prop where
  package : key.package = { scope := [], name := [] }
  exportName : Reference.isIdentifier key.exportName = true
  memberName : key.memberName = [] ∨ Reference.isIdentifier key.memberName = true

/-- The key with a package put in. -/
def inPackage (own : PackageName) (key : ItemKey) : ItemKey :=
  { key with package := own }

end ItemKey

section
variable {t name : Text} {c : Char} {p own : PackageName} {key : ItemKey}

/-! ## Package names -/

namespace PackageName

/-- The parts of a full name, put together, are the name. -/
theorem full_of_ofFull? (h : ofFull? t = some p) : p.full = t ∧ p.name ≠ [] := by
  unfold ofFull? at h
  split at h
  · next r =>
    split at h
    · next scope name hsplit =>
      split at h
      · next hparts =>
        cases h
        obtain ⟨-, hname⟩ := Bool.and_eq_true_iff.1 hparts
        refine ⟨?_, ?_⟩
        · rw [Text.eq_of_splitFirst? hsplit]
          rfl
        · rintro rfl
          cases hname
      · cases h
    · cases h
  · split at h
    · next hname =>
      cases h
      refine ⟨rfl, ?_⟩
      rintro rfl
      cases hname
    · cases h

theorem full_ne_nil (own : PackageName) (hname : own.name ≠ []) : own.full ≠ [] := by
  unfold full
  split
  · exact hname
  · exact List.append_ne_nil_of_right_ne_nil _ (List.cons_ne_nil _ _)

/-- The parts of a declared name, put together, are the name less a newline at its end. -/
theorem full_of_parse? (h : parse? name = some p) : p.full = Text.dropFinalNewline name :=
  (full_of_ofFull? h).1

end PackageName

/-! ## Identifiers -/

theorem Text.isWord_of_isLetter (h : isLetter c = true) : isWord c = true := by
  have hascii : c.isAlphanum = true ∧ c.toNat < 0x80 := by
    simp only [isLetter, Bool.or_eq_true, Bool.and_eq_true, decide_eq_true_eq, Char.le_def,
      UInt32.le_iff_toNat_le, Char.toNat_val, Char.reduceToNat] at h
    simp only [Char.isAlphanum, Char.isAlpha, Char.isUpper, Char.isLower, Char.isDigit,
      Bool.or_eq_true, Bool.and_eq_true, decide_eq_true_eq, UInt32.le_iff_toNat_le, ge_iff_le,
      Char.toNat_val, Char.reduceToNat]
    omega
  rw [isWord, isAlphanumeric, if_pos hascii.2, hascii.1, Bool.or_true]

namespace Reference

/-- A character that an identifier may have: a word character or a dollar sign. -/
def isNameChar (c : Char) : Bool :=
  Text.isWord c || c = '$'

theorem isNameChar_of_mem (h : isIdentifier t = true) (hc : c ∈ t) : isNameChar c = true := by
  cases t with
  | nil => cases hc
  | cons d r =>
    obtain ⟨hd, hr⟩ := Bool.and_eq_true_iff.1 h
    rcases List.mem_cons.1 hc with rfl | hc
    · simp only [Bool.or_eq_true, decide_eq_true_eq] at hd
      rcases hd with (hd | rfl) | rfl
      · rw [isNameChar, Text.isWord_of_isLetter hd, Bool.true_or]
      · rfl
      · rfl
    · exact List.all_eq_true.1 hr c hc

theorem not_mem_of_isIdentifier (h : isIdentifier t = true) (hc : isNameChar c = false) :
    c ∉ t := by
  intro hmem
  rw [isNameChar_of_mem h hmem] at hc
  cases hc

theorem isBlank_eq_false_of_isNameChar (h : isNameChar c = true) : Text.isBlank c = false := by
  simp only [isNameChar, Bool.or_eq_true, decide_eq_true_eq] at h
  rcases h with h | rfl
  · exact Text.isBlank_eq_false_of_isWord h
  · rfl

theorem ne_nil_of_isIdentifier (h : isIdentifier t = true) : t ≠ [] := by
  rintro rfl
  cases h

end Reference

/-! ## References -/

namespace ItemKey.IsLocal

/-- The names of a key consist of the characters of identifiers, and a point stands between them. -/
theorem of_mem (h : key.IsLocal) (hc : c ∈ key.itemText) :
    c = '.' ∨ Reference.isNameChar c = true := by
  have hexport (hc : c ∈ key.exportName) := Reference.isNameChar_of_mem h.exportName hc
  unfold itemText at hc
  split at hc
  · exact .inr (hexport hc)
  · next hmember =>
    rcases List.mem_append.1 hc with hc | hc
    · exact .inr (hexport hc)
    · rcases List.mem_cons.1 hc with rfl | hc
      · exact .inl rfl
      · rcases h.memberName with hempty | hidentifier
        · rw [hempty] at hc
          cases hc
        · exact .inr (Reference.isNameChar_of_mem hidentifier hc)

theorem not_mem (h : key.IsLocal) (hpoint : c ≠ '.') (hc : Reference.isNameChar c = false) :
    c ∉ key.itemText := by
  intro hmem
  rcases h.of_mem hmem with rfl | hname
  · exact hpoint rfl
  · rw [hname] at hc
    cases hc

theorem hasBlank_itemText (h : key.IsLocal) : Text.hasBlank key.itemText = false := by
  refine List.any_eq_false.2 fun c hc => ?_
  rcases h.of_mem hc with rfl | hname
  · decide
  · rw [Reference.isBlank_eq_false_of_isNameChar hname]
    decide

theorem itemText_ne_nil (h : key.IsLocal) : key.itemText ≠ [] := by
  have hexport := Reference.ne_nil_of_isIdentifier h.exportName
  unfold itemText
  split
  · exact hexport
  · exact List.append_ne_nil_of_left_ne_nil hexport _

/-- The names are read back from what a reference writes. -/
theorem exportAndMember_itemText (h : key.IsLocal) :
    Reference.exportAndMember key.itemText = .ok (key.exportName, key.memberName) := by
  have hpoint {t : Text} (ht : Reference.isIdentifier t = true) : '.' ∉ t :=
    Reference.not_mem_of_isIdentifier ht rfl
  rcases h.memberName with hempty | hmember
  · have htext : key.itemText = key.exportName := if_pos (by rw [hempty]; rfl)
    rw [htext, hempty, Reference.exportAndMember, Text.splitOn_eq_singleton (hpoint h.exportName)]
    exact if_pos h.exportName
  · have htext : key.itemText = key.exportName ++ '.' :: key.memberName :=
      if_neg (by simpa using Reference.ne_nil_of_isIdentifier hmember)
    rw [htext, Reference.exportAndMember, Text.splitOn_append (hpoint h.exportName),
      Text.splitOn_eq_singleton (hpoint hmember)]
    simp only [h.exportName, hmember, Bool.not_true, Bool.false_eq_true, if_false]

/-- A reference without a package is read as the key that it writes. -/
theorem parse_itemText (h : key.IsLocal) : Reference.parse key.itemText = .ok key := by
  have hkey : key = { package := { scope := [], name := [] }, exportName := key.exportName,
                      memberName := key.memberName } := by
    rw [← h.package]
  have hpackage : Reference.packageAndItem key.itemText =
      .ok ({ scope := [], name := [] }, key.itemText) := by
    rw [Reference.packageAndItem, Text.splitFirst?_eq_none (h.not_mem (by decide) rfl)]
  rw [Reference.parse, List.isEmpty_eq_false_iff.2 h.itemText_ne_nil, h.hasBlank_itemText]
  simp only [hpackage, h.exportAndMember_itemText, Bool.or_false, Bool.false_eq_true, if_false]
  exact congrArg Except.ok hkey.symm

theorem isWebAddress_itemText (h : key.IsLocal) : Link.isWebAddress key.itemText = false := by
  rw [Link.isWebAddress, Bool.and_eq_false_iff]
  refine .inr (Bool.eq_false_iff.2 fun hprefix => ?_)
  have hcolon := (List.isPrefixOf_iff_prefix.1 hprefix).subset List.mem_cons_self
  exact h.not_mem (by decide) rfl ((List.dropWhile_sublist _).subset hcolon)

/-- A link without a package has the package at hand put in. -/
theorem parse_link (h : key.IsLocal) (own : PackageName) :
    Link.parse (some own) key.itemText = .link (.itemLink {
      display := [key.itemText]
      target := key.inPackage own
      status := .incomplete
      place := none }) := by
  have hdisplay : Element.displayOf key.itemText = [key.itemText] := by
    rw [Element.displayOf, List.isEmpty_eq_false_iff.2 h.itemText_ne_nil, Text.collapse,
      Text.collapseFrom_eq_self h.hasBlank_itemText]
    rfl
  have hunqualified : key.isQualified = false := by
    rw [isQualified, h.package]
    rfl
  rw [Link.parse, List.isEmpty_eq_false_iff.2 h.itemText_ne_nil,
    Text.splitOn_eq_singleton (h.not_mem (by decide) rfl), List.map_singleton,
    Text.strip_eq_self h.hasBlank_itemText]
  simp only [Link.ofAddress, hdisplay, h.isWebAddress_itemText, h.parse_itemText, hunqualified,
    Bool.false_eq_true, if_false]
  rfl

end ItemKey.IsLocal

/-! ## Resolution -/

namespace Workspace
variable {w base : Workspace} {config : Config} {item : Item}

/-- A key of the package itself leads to the item of its names. -/
theorem lookUp_eq_found (hown : w.isOwnKey key = true)
    (hitem : w.package.find? key.exportName key.memberName = some item) :
    w.lookUp key = .found (.own item.kind item.doc) := by
  rw [lookUp, if_pos hown, hitem]

/-- Any other key leads to no item of the package. -/
theorem lookUp_ne_found (hown : w.isOwnKey key = false) (kind : ItemKind) (doc : DocId) :
    w.lookUp key ≠ .found (.own kind doc) := by
  rw [lookUp, hown]
  split
  · next hfalse => cases hfalse
  · split
    · nofun
    · split <;> nofun

/-- A key with the parts of a package's name is one of the package if the parts, put together, are
the declared name. -/
theorem isOwnKey_inPackage (w : Workspace) (key : ItemKey) (hname : own.name ≠ []) :
    w.isOwnKey (key.inPackage own) = true ↔ w.package.name = some own.full := by
  have hfull : own.full.isEmpty = false := List.isEmpty_eq_false_iff.2 (own.full_ne_nil hname)
  change (own.full.isEmpty || decide (w.package.name = some own.full)) = true ↔ _
  rw [hfull, Bool.false_or, decide_eq_true_iff]

/-- The three ways to name an item of the package: a link, a reference without a package, and a key
with the parts of the package's name. The reference always leads to the item. So does the key, which
is also the target of the link, unless the declared name ends with a newline: then it leads to no
item of the package. -/
theorem names_agree (hname : name ≠ []) (hbase : Workspace.ofName? name config = some base)
    (hpackage : w.package.name = base.package.name) (hidentity : w.identity = base.identity)
    (hkey : key.IsLocal)
    (hitem : w.package.find? key.exportName key.memberName = some item) :
    ∃ own, PackageName.parse? name = some own ∧
      Link.parse w.identity key.itemText = .link (.itemLink {
        display := [key.itemText]
        target := key.inPackage own
        status := .incomplete
        place := none }) ∧
      Reference.parse key.itemText = .ok key ∧
      (Action.resolve key).run w = (.ok (some (.own item.kind item.doc)), w) ∧
      (name.getLast? ≠ some '\n' → (Action.resolve (key.inPackage own)).run w =
        (.ok (some (.own item.kind item.doc)), w)) ∧
      (name.getLast? = some '\n' → ∀ kind doc,
        w.lookUp (key.inPackage own) ≠ .found (.own kind doc)) := by
  rw [ofName?, List.isEmpty_eq_false_iff.2 hname, if_neg Bool.false_ne_true] at hbase
  obtain ⟨own, hown, rfl⟩ := Option.map_eq_some_iff.1 hbase
  have hfull := PackageName.full_of_parse? hown
  have hparts := isOwnKey_inPackage w key (PackageName.full_of_ofFull? hown).2
  have hlocal : w.isOwnKey key = true := by
    rw [isOwnKey, ItemKey.fullPackageName, hkey.package]
    rfl
  refine ⟨own, hown, ?_, hkey.parse_itemText, ?_, fun hlast => ?_, fun hlast kind doc => ?_⟩
  · rw [hidentity]
    exact hkey.parse_link own
  · rw [Action.run_resolve, lookUp_eq_found hlocal hitem]
  · have hname₁ : w.package.name = some own.full := by
      rw [hpackage, hfull, Text.dropFinalNewline, if_neg hlast]
    rw [Action.run_resolve, lookUp_eq_found (hparts.2 hname₁) hitem]
  · refine lookUp_ne_found (Bool.eq_false_iff.2 fun hown₁ => ?_) kind doc
    have hname₁ := hparts.1 hown₁
    rw [hpackage, hfull, Text.dropFinalNewline, if_pos hlast] at hname₁
    have hlength := congrArg List.length (Option.some.inj hname₁)
    rw [List.length_dropLast] at hlength
    have := List.length_pos_iff.2 hname
    omega

/-- The work on a package with a class and a method of it. -/
def ofWidget (name : Text) : Workspace where
  package :=
    { name := some name
      exports := [("Widget".toList, .mk "Widget".toList .classDecl 0
        [("render".toList, .mk "render".toList .method 1 [])])] }
  identity := PackageName.parse? name
  config := {}

/-- In a package with a scope, a link to the method of a class leads to it. -/
theorem widgetInScope_names_agree :
    Link.parse (ofWidget "@scope/pkg".toList).identity "Widget.render".toList =
        .link (.itemLink {
          display := ["Widget.render".toList]
          target := { package := { scope := "@scope".toList, name := "pkg".toList },
                      exportName := "Widget".toList, memberName := "render".toList }
          status := .incomplete
          place := none }) ∧
      (Action.resolve { package := { scope := "@scope".toList, name := "pkg".toList },
                        exportName := "Widget".toList, memberName := "render".toList }).run
          (ofWidget "@scope/pkg".toList) =
        (.ok (some (.own .method 1)), ofWidget "@scope/pkg".toList) := by
  have hkey : ItemKey.IsLocal { package := { scope := [], name := [] },
                                exportName := "Widget".toList, memberName := "render".toList } :=
    ⟨rfl, by decide, .inr (by decide)⟩
  have hbase : ofName? "@scope/pkg".toList {} = some {
      package := { name := some "@scope/pkg".toList }
      identity := PackageName.parse? "@scope/pkg".toList
      config := {} } := by rfl
  have hparts : PackageName.parse? "@scope/pkg".toList =
      some { scope := "@scope".toList, name := "pkg".toList } := by decide
  obtain ⟨own, hown, hlink, -, -, hresolve, -⟩ := names_agree (w := ofWidget "@scope/pkg".toList)
    (by decide) hbase rfl rfl hkey rfl
  obtain rfl := Option.some.inj (hown.symm.trans hparts)
  exact ⟨hlink, hresolve (by decide)⟩

/-- A declared name may end with a newline, and then a link to the method of a class leads out of
the package: the method is not found, and there is a warning. A reference without a package finds
it. -/
theorem widgetBehindNewline_names_disagree :
    (ofName? "pkg\n".toList {}).map (·.identity) = some (ofWidget "pkg\n".toList).identity ∧
      Link.parse (ofWidget "pkg\n".toList).identity "Widget.render".toList =
        .link (.itemLink {
          display := ["Widget.render".toList]
          target := { package := { scope := [], name := "pkg".toList },
                      exportName := "Widget".toList, memberName := "render".toList }
          status := .incomplete
          place := none }) ∧
      (Action.resolve { package := { scope := [], name := "pkg".toList },
                        exportName := "Widget".toList, memberName := "render".toList }).run
          (ofWidget "pkg\n".toList) =
        (.ok none, (ofWidget "pkg\n".toList).warned (some (.unknownPackage
          { package := { scope := [], name := "pkg".toList },
            exportName := "Widget".toList, memberName := "render".toList }))) ∧
      (Action.resolve { package := { scope := [], name := [] },
                        exportName := "Widget".toList, memberName := "render".toList }).run
          (ofWidget "pkg\n".toList) =
        (.ok (some (.own .method 1)), ofWidget "pkg\n".toList) := by
  refine ⟨?_, ?_, ?_, ?_⟩
  · rfl
  · rfl
  · rfl
  · rfl

end Workspace

end

end ApiDoc
