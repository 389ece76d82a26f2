import ApiDoc.Proofs.Resolution.Naming

/-!
# The notation of references

A reference is written `@scope/package:Export.member`, where the scope, the package and the member
may be left out. The notation is given here as a grammar that does not say where a text is cut
(`Reference.Denotes`). A point is also a character of scopes and packages, but no text has two
readings: only the first colon counts, and there is no colon in a package. What is read is what the
grammar has (`Reference.parse_eq_ok_iff`), by one lemma for each function that cuts a text, and a
key is written as the text that denotes it (`Reference.Denotes.text_eq`). Main statement:
`Reference.reads_notation`.
-/

namespace ApiDoc

/-! ## The grammar -/

/-- A scope or a package: one or more lowercase letters, digits and the signs `-_.~`. -/
structure PackageName.IsNamePart (t : Text) : Prop where
  nonempty : t ≠ []
  of_mem : ∀ c ∈ t, ('a' ≤ c ∧ c ≤ 'z') ∨ ('0' ≤ c ∧ c ≤ '9') ∨ c ∈ ['-', '_', '.', '~']

namespace Reference

/-- An identifier: a letter, underscore or dollar sign, then word characters and dollar signs. -/
inductive IsName : Text → Prop
  | cons {first : Char} {rest : Text} :
    (Text.isLetter first = true ∨ first = '_' ∨ first = '$') →
    (∀ c ∈ rest, Text.isWord c = true ∨ c = '$') → IsName (first :: rest)

/-- How a package is written. -/
inductive PackageNotation : PackageName → Text → Prop
  | plain {name : Text} : PackageName.IsNamePart name → PackageNotation { scope := [], name } name
  | inScope {scope name : Text} : PackageName.IsNamePart scope → PackageName.IsNamePart name →
    PackageNotation { scope := '@' :: scope, name } ('@' :: scope ++ '/' :: name)

/-- How an export is written, and how a member of one. -/
inductive ItemNotation : Text → Text → Text → Prop
  | ofExport {name : Text} : IsName name → ItemNotation name [] name
  | ofMember {name member : Text} : IsName name → IsName member →
    ItemNotation name member (name ++ '.' :: member)

/-- A text is a reference, and a key has its parts. -/
inductive Denotes : Text → ItemKey → Prop
  | unqualified {exportName memberName item : Text} : ItemNotation exportName memberName item →
    Denotes item { package := { scope := [], name := [] }, exportName, memberName }
  | qualified {package : PackageName} {exportName memberName full item : Text} :
    PackageNotation package full → ItemNotation exportName memberName item →
    Denotes (full ++ ':' :: item) { package, exportName, memberName }

end Reference

/-- A key whose parts are of the form that the notation asks for. There is a scope only with a
package. -/
structure ItemKey.WellFormed (key : ItemKey) : Prop where
  package : key.package = { scope := [], name := [] } ∨
    PackageName.IsNamePart key.package.name ∧ (key.package.scope = [] ∨
      ∃ scope, key.package.scope = '@' :: scope ∧ PackageName.IsNamePart scope)
  exportName : Reference.IsName key.exportName
  memberName : key.memberName = [] ∨ Reference.IsName key.memberName

section
variable {t name member item full : Text} {c : Char} {p : PackageName} {key : ItemKey}

/-! ## Packages -/

namespace PackageName

theorem isPart_iff : isPart t = true ↔ IsNamePart t := by
  have hclass : (t.all isNameChar = true ↔ ∀ c ∈ t,
      ('a' ≤ c ∧ c ≤ 'z') ∨ ('0' ≤ c ∧ c ≤ '9') ∨ c ∈ ['-', '_', '.', '~']) := by
    simp only [List.all_eq_true, isNameChar, Bool.or_eq_true, Bool.and_eq_true, decide_eq_true_eq,
      List.mem_cons, List.not_mem_nil, or_false, or_assoc]
  rw [isPart, Bool.and_eq_true, hclass, Bool.not_eq_true', List.isEmpty_eq_false_iff]
  exact ⟨fun ⟨hnonempty, hmem⟩ => ⟨hnonempty, hmem⟩, fun h => ⟨h.nonempty, h.of_mem⟩⟩

theorem IsNamePart.isNameChar_of_mem (h : IsNamePart t) (hc : c ∈ t) : isNameChar c = true :=
  List.all_eq_true.1 (Bool.and_eq_true_iff.1 (isPart_iff.2 h)).2 c hc

theorem IsNamePart.not_mem (h : IsNamePart t) (hc : isNameChar c = false) : c ∉ t := by
  intro hmem
  rw [h.isNameChar_of_mem hmem] at hc
  cases hc

/-- The full names that are taken apart are those of the notation. -/
theorem ofFull?_eq_some_iff : ofFull? t = some p ↔ Reference.PackageNotation p t := by
  constructor
  · intro h
    unfold ofFull? at h
    split at h
    · split at h
      · next scope name hsplit =>
        split at h
        · next hparts =>
          cases h
          obtain ⟨hscope, hname⟩ := Bool.and_eq_true_iff.1 hparts
          rw [Text.eq_of_splitFirst? hsplit]
          exact .inScope (isPart_iff.1 hscope) (isPart_iff.1 hname)
        · cases h
      · cases h
    · split at h
      · next hname =>
        cases h
        exact .plain (isPart_iff.1 hname)
      · cases h
  · rintro (hname | ⟨hscope, hname⟩)
    · unfold ofFull?
      split
      · exact absurd List.mem_cons_self (hname.not_mem rfl)
      · exact if_pos (isPart_iff.2 hname)
    · rw [List.cons_append, ofFull?, Text.splitFirst?_append (hscope.not_mem rfl)]
      simp only [isPart_iff.2 hscope, isPart_iff.2 hname, Bool.and_true, if_true]

end PackageName

namespace Reference

/-- A package is written without a colon. -/
theorem PackageNotation.not_mem (h : PackageNotation p full) : ':' ∉ full := by
  cases h with
  | plain hname => exact hname.not_mem rfl
  | inScope hscope hname =>
    simp [hscope.not_mem (c := ':') rfl, hname.not_mem (c := ':') rfl]

theorem PackageNotation.hasBlank (h : PackageNotation p full) : Text.hasBlank full = false := by
  have hpart {name : Text} (hname : PackageName.IsNamePart name) :
      name.any Text.isBlank = false := by
    refine List.any_eq_false.2 fun c hc => ?_
    rw [Text.isBlank_eq_false_of_class PackageName.isNameChar (by decide)
      (hname.isNameChar_of_mem hc)]
    decide
  cases h with
  | plain hname => exact hpart hname
  | inScope hscope hname =>
    simp only [Text.hasBlank, List.any_append, List.any_cons, hpart hscope, hpart hname]
    decide

/-- A package is written as its full name. -/
theorem PackageNotation.full_eq (h : PackageNotation p full) : p.full = full ∧ p.name ≠ [] :=
  PackageName.full_of_ofFull? (PackageName.ofFull?_eq_some_iff.2 h)

/-! ## Items -/

theorem isIdentifier_iff : isIdentifier t = true ↔ IsName t := by
  cases t with
  | nil => exact iff_of_false Bool.false_ne_true nofun
  | cons first rest =>
    simp only [isIdentifier, Bool.and_eq_true, Bool.or_eq_true, decide_eq_true_eq, or_assoc,
      List.all_eq_true]
    exact ⟨fun ⟨hfirst, hrest⟩ => .cons hfirst hrest, fun | .cons hfirst hrest => ⟨hfirst, hrest⟩⟩

/-- The names of an item make a key within a package, which is written as the item is. -/
theorem ItemNotation.isLocal {name member : Text} (h : ItemNotation name member t) :
    ItemKey.IsLocal ⟨⟨[], []⟩, name, member⟩ ∧ ItemKey.itemText ⟨⟨[], []⟩, name, member⟩ = t := by
  rcases h with hname | ⟨hname, hmember⟩
  · exact ⟨⟨rfl, isIdentifier_iff.2 hname, .inl rfl⟩, rfl⟩
  · have hidentifier := isIdentifier_iff.2 hmember
    refine ⟨⟨rfl, isIdentifier_iff.2 hname, .inr hidentifier⟩, if_neg ?_⟩
    simpa using ne_nil_of_isIdentifier hidentifier

/-- An item is written without a colon. -/
theorem ItemNotation.not_mem (h : ItemNotation name member t) : ':' ∉ t := by
  obtain ⟨hkey, rfl⟩ := h.isLocal
  exact hkey.not_mem (by decide) rfl

/-- The items that are taken apart are those of the notation. -/
theorem exportAndMember_eq_ok_iff :
    exportAndMember t = .ok (name, member) ↔ ItemNotation name member t := by
  constructor
  · intro h
    have hjoin := Text.joinWith_splitOn '.' t
    unfold exportAndMember at h
    split at h
    · next hpieces =>
      rw [hpieces] at hjoin
      split at h
      · next hname =>
        cases h
        rw [← hjoin]
        exact .ofExport (isIdentifier_iff.1 hname)
      · cases h
    · next hpieces =>
      rw [hpieces] at hjoin
      split at h
      · cases h
      · next hname =>
        split at h
        · cases h
        · next hmember =>
          cases h
          rw [Bool.not_eq_true', Bool.not_eq_false] at hname hmember
          rw [← hjoin, Text.joinWith, Text.joinWith, List.append_assoc]
          · exact .ofMember (isIdentifier_iff.1 hname) (isIdentifier_iff.1 hmember)
          · exact List.cons_ne_nil _ _
    · cases h
  · intro h
    obtain ⟨hkey, rfl⟩ := h.isLocal
    exact hkey.exportAndMember_itemText

/-! ## References -/

/-- A reference holds no blank, and it is not empty. -/
theorem Denotes.hasBlank (h : Denotes t key) : Text.hasBlank t = false ∧ t ≠ [] := by
  have hitem {name member item : Text} (hitem : ItemNotation name member item) :
      Text.hasBlank item = false ∧ item ≠ [] := by
    obtain ⟨hkey, rfl⟩ := hitem.isLocal
    exact ⟨hkey.hasBlank_itemText, hkey.itemText_ne_nil⟩
  cases h with
  | unqualified h => exact hitem h
  | qualified hpackage h =>
    refine ⟨?_, List.append_ne_nil_of_right_ne_nil _ (List.cons_ne_nil _ _)⟩
    have hfull := hpackage.hasBlank
    have hrest := (hitem h).1
    unfold Text.hasBlank at hfull hrest ⊢
    rw [List.any_append, List.any_cons, hfull, hrest]
    decide

/-- What a text is cut into is a package and what follows the colon, or the text has no package. -/
theorem packageAndItem_cases (h : packageAndItem t = .ok (p, item)) :
    p = { scope := [], name := [] } ∧ t = item ∨
      ∃ full, PackageNotation p full ∧ t = full ++ ':' :: item := by
  unfold packageAndItem at h
  split at h
  · cases h
    exact .inl ⟨rfl, rfl⟩
  · next hsplit =>
    split at h
    · next hfull =>
      cases h
      exact .inr ⟨_, PackageName.ofFull?_eq_some_iff.1 hfull, Text.eq_of_splitFirst? hsplit⟩
    · cases h

/-- A package is cut off at its colon. -/
theorem PackageNotation.packageAndItem (h : PackageNotation p full) (item : Text) :
    packageAndItem (full ++ ':' :: item) = .ok (p, item) := by
  rw [Reference.packageAndItem, Text.splitFirst?_append h.not_mem]
  simp only [PackageName.ofFull?_eq_some_iff.2 h]

/-- What is read of a text is the key that it denotes. -/
theorem parse_eq_ok_iff : parse t = .ok key ↔ Denotes t key := by
  constructor
  · intro h
    unfold parse at h
    split at h
    · cases h
    · split at h
      · cases h
      · next hpackage =>
        split at h
        · cases h
        · next hitem =>
          cases h
          have hnotation := exportAndMember_eq_ok_iff.1 hitem
          rcases packageAndItem_cases hpackage with ⟨rfl, rfl⟩ | ⟨full, hfull, rfl⟩
          · exact .unqualified hnotation
          · exact .qualified hfull hnotation
  · intro h
    obtain ⟨hblank, hnonempty⟩ := h.hasBlank
    rw [parse, List.isEmpty_eq_false_iff.2 hnonempty, hblank]
    cases h with
    | @unqualified name member item hitem =>
      simp only [packageAndItem, Text.splitFirst?_eq_none hitem.not_mem,
        exportAndMember_eq_ok_iff.2 hitem, Bool.or_false, Bool.false_eq_true, if_false]
    | qualified hpackage hitem =>
      simp only [hpackage.packageAndItem, exportAndMember_eq_ok_iff.2 hitem, Bool.or_false,
        Bool.false_eq_true, if_false]

/-- The key of an item that names a package is written as the package and the item. -/
theorem ItemNotation.text_eq {package : PackageName} (h : ItemNotation name member item)
    (hname : package.name ≠ []) :
    ItemKey.text { package, exportName := name, memberName := member } =
      package.full ++ ':' :: item := by
  rw [ItemKey.text, ItemKey.isQualified, List.isEmpty_eq_false_iff.2 hname]
  exact congrArg (package.full ++ ':' :: ·) h.isLocal.2

/-- A key is written as the text that denotes it. -/
theorem Denotes.text_eq (h : Denotes t key) : key.text = t := by
  cases h with
  | unqualified h => exact h.isLocal.2
  | qualified hpackage h =>
    obtain ⟨hfull, hname⟩ := hpackage.full_eq
    rw [h.text_eq hname, hfull]

end Reference

/-- A key is denoted by some text if and only if its parts are of the form that the notation asks
for. -/
theorem ItemKey.wellFormed_iff : key.WellFormed ↔ ∃ t, Reference.Denotes t key := by
  constructor
  · rintro ⟨hpackage, hname, hmember⟩
    obtain ⟨⟨scope, name⟩, exportName, memberName⟩ := key
    have hitem : ∃ item, Reference.ItemNotation exportName memberName item := by
      rcases hmember with hempty | hmember
      · obtain rfl : memberName = [] := hempty
        exact ⟨_, .ofExport hname⟩
      · exact ⟨_, .ofMember hname hmember⟩
    obtain ⟨item, hitem⟩ := hitem
    rcases hpackage with hpackage | ⟨hpart, hscope⟩
    · cases hpackage
      exact ⟨_, .unqualified hitem⟩
    · rcases hscope with hscope | ⟨scope', hscope, hpart'⟩
      · obtain rfl : scope = [] := hscope
        exact ⟨_, .qualified (.plain hpart) hitem⟩
      · obtain rfl : scope = '@' :: scope' := hscope
        exact ⟨_, .qualified (.inScope hpart' hpart) hitem⟩
  · rintro ⟨t, h⟩
    have hnames {name member item : Text} (h : Reference.ItemNotation name member item) :
        Reference.IsName name ∧ (member = [] ∨ Reference.IsName member) := by
      cases h with
      | ofExport hname => exact ⟨hname, .inl rfl⟩
      | ofMember hname hmember => exact ⟨hname, .inr hmember⟩
    cases h with
    | unqualified h => exact ⟨.inl rfl, (hnames h).1, (hnames h).2⟩
    | qualified hpackage h =>
      refine ⟨.inr ?_, (hnames h).1, (hnames h).2⟩
      cases hpackage with
      | plain hname => exact ⟨hname, .inl rfl⟩
      | inScope hscope hname => exact ⟨hname, .inr ⟨_, rfl, hscope⟩⟩

namespace Reference

/-- Reading is exact and inverse to writing. A text is read if and only if it has no blank and is of
the form of a reference; what is read has the parts of the text, and is written as the text. Of any
other text there is one error and no key. Every key of the form that the notation asks for is read
back from what is written of it. -/
theorem reads_notation :
    (∀ t, (∃ key, parse t = .ok key) ↔ Text.hasBlank t = false ∧ ∃ key, Denotes t key) ∧
      (∀ t key, parse t = .ok key → Denotes t key ∧ key.text = t) ∧
      (∀ t, (¬ ∃ key, parse t = .ok key) → ∃! error, parse t = .error error) ∧
      ∀ key : ItemKey, key.WellFormed → parse key.text = .ok key := by
  refine ⟨fun t => ?_, fun t key h => ?_, fun t h => ?_, fun key h => ?_⟩
  · constructor
    · rintro ⟨key, h⟩
      have hdenotes := parse_eq_ok_iff.1 h
      exact ⟨hdenotes.hasBlank.1, key, hdenotes⟩
    · rintro ⟨-, key, h⟩
      exact ⟨key, parse_eq_ok_iff.2 h⟩
  · have hdenotes := parse_eq_ok_iff.1 h
    exact ⟨hdenotes, hdenotes.text_eq⟩
  · cases hread : parse t with
    | ok key => exact absurd ⟨key, hread⟩ h
    | error e => exact ⟨e, rfl, fun e' he' => (Except.error.inj he').symm⟩
  · obtain ⟨t, hdenotes⟩ := ItemKey.wellFormed_iff.1 h
    rw [hdenotes.text_eq]
    exact parse_eq_ok_iff.2 hdenotes

/-- A point in a package separates nothing. -/
theorem pointInPackage_reads :
    parse "@scope/pkg.core:Widget.render".toList = .ok {
      package := { scope := "@scope".toList, name := "pkg.core".toList }
      exportName := "Widget".toList
      memberName := "render".toList } := by
  have hname {t : Text} (h : isIdentifier t = true) : IsName t := isIdentifier_iff.1 h
  have hpart {t : Text} (h : PackageName.isPart t = true) : PackageName.IsNamePart t :=
    PackageName.isPart_iff.1 h
  exact reads_notation.2.2.2 {
    package := { scope := "@scope".toList, name := "pkg.core".toList }
    exportName := "Widget".toList
    memberName := "render".toList }
    ⟨.inr ⟨hpart (by decide), .inr ⟨"scope".toList, by decide, hpart (by decide)⟩⟩,
      hname (by decide), .inr (hname (by decide))⟩

end Reference

end

end ApiDoc
