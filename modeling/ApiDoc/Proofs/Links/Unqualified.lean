import ApiDoc.Proofs.Resolution.Notation
import ApiDoc.Proofs.Sections.Inline

/-!
# Links that leave their package out

The one thing that stops the reading of a comment is a link to an item whose package is left out,
where no package is known to put in. The links of that kind are described here by how they are
written (`Link.LeavesPackageOut`): the address, which stands alone or before the only bar, is the
notation of an item and nothing else. Every link of a comment is reached, in whatever section it
stands, so a comment cannot be read if and only if it has such a link. Main statement:
`Documentation.parse_fails_iff`.
-/

namespace ApiDoc

namespace Link

/-- The content of a link tag leads to an address: all of it is the address, or what stands before
the only bar, with a text behind the bar that may be displayed. -/
inductive LeadsTo : Text → Text → Prop
  | plain {content : Text} : content ≠ [] → '|' ∉ content → LeadsTo content (Text.strip content)
  | displayed {before after : Text} : '|' ∉ before → '|' ∉ after →
    (∀ c ∈ Text.strip after, isDelimiter c = false) →
    LeadsTo (before ++ '|' :: after) (Text.strip before)

/-- The content of a link tag leads to an item and does not say which package the item is of. -/
def LeavesPackageOut (content : Text) : Prop :=
  ∃ address exportName memberName,
    LeadsTo content address ∧ Reference.ItemNotation exportName memberName address

section
variable {package : Option PackageName} {content address before between after : Text}
  {display : List Text}

/-! ## How links are read -/

theorem parse_of_not_mem (hne : content ≠ []) (hbar : '|' ∉ content) :
    parse package content =
      ofAddress package (Text.strip content) (Element.displayOf (Text.strip content)) := by
  rw [parse, if_neg (by simpa using hne), Text.splitOn_eq_singleton hbar]
  rfl

theorem parse_of_bar (hbefore : '|' ∉ before) (hafter : '|' ∉ after) :
    parse package (before ++ '|' :: after) =
      match (Text.strip after).find? isDelimiter with
      | some c => .malformed (.displayChar c)
      | none => ofAddress package (Text.strip before) (Element.displayOf
          (if (Text.strip after).isEmpty then Text.strip before else Text.strip after)) := by
  have hpieces : (Text.splitOn '|' (before ++ '|' :: after)).map Text.strip =
      [Text.strip before, Text.strip after] := by
    rw [Text.splitOn_append hbefore, Text.splitOn_eq_singleton hafter]
    rfl
  rw [parse, if_neg (by simp), hpieces]
  cases Text.strip after <;> rfl

theorem parse_of_bars (hbefore : '|' ∉ before) (hbetween : '|' ∉ between) :
    parse package (before ++ '|' :: (between ++ '|' :: after)) = .malformed .manyBars := by
  rw [parse, if_neg (by simp), Text.splitOn_append hbefore, Text.splitOn_append hbetween]
  obtain ⟨piece, pieces, hpieces⟩ := List.exists_cons_of_ne_nil (Text.splitOn_ne_nil '|' after)
  rw [hpieces]
  rfl

/-- A content that leads to an address is read as a link to it, displayed in some way. -/
theorem LeadsTo.parse (h : LeadsTo content address) (package : Option PackageName) :
    ∃ display, Link.parse package content = ofAddress package address display := by
  cases h with
  | plain hne hbar => exact ⟨_, parse_of_not_mem hne hbar⟩
  | displayed hbefore hafter hdisplay =>
    rw [parse_of_bar hbefore hafter,
      List.find?_eq_none.2 fun c hc => Bool.eq_false_iff.1 (hdisplay c hc)]
    exact ⟨_, rfl⟩

/-- A content leads to an address, or there is an error in how it is laid out. -/
theorem parse_cases (package : Option PackageName) (content : Text) :
    (∃ address display, LeadsTo content address ∧
      parse package content = ofAddress package address display) ∨
    ∃ e ∈ Error.empty :: .manyBars :: content.map .displayChar,
      parse package content = .malformed e := by
  by_cases hbar : '|' ∈ content
  · obtain ⟨before, after, rfl, hbefore⟩ := List.eq_append_cons_of_mem hbar
    by_cases hmore : '|' ∈ after
    · obtain ⟨between, rest, rfl, hbetween⟩ := List.eq_append_cons_of_mem hmore
      exact .inr ⟨.manyBars, by simp, parse_of_bars hbefore hbetween⟩
    · cases hdisplay : (Text.strip after).find? isDelimiter with
      | none =>
        have hfree := List.find?_eq_none.1 hdisplay
        have hleads : LeadsTo (before ++ '|' :: after) (Text.strip before) :=
          .displayed hbefore hmore fun c hc => Bool.eq_false_iff.2 (hfree c hc)
        obtain ⟨display, hparse⟩ := hleads.parse package
        exact .inl ⟨_, display, hleads, hparse⟩
      | some c =>
        have hc : c ∈ after := (Text.strip_sublist _).subset (List.mem_of_find?_eq_some hdisplay)
        refine .inr ⟨.displayChar c, by simp [hc], ?_⟩
        rw [parse_of_bar hbefore hmore, hdisplay]
  · cases content with
    | nil => exact .inr ⟨.empty, List.mem_cons_self, rfl⟩
    | cons c content =>
      exact .inl ⟨_, _, .plain (List.cons_ne_nil _ _) hbar,
        parse_of_not_mem (List.cons_ne_nil _ _) hbar⟩

/-- A web address has a colon. -/
theorem isWebAddress_eq_false (hcolon : ':' ∉ address) : isWebAddress address = false := by
  refine Bool.eq_false_iff.2 fun hweb => hcolon ?_
  simp only [isWebAddress, Bool.and_eq_true] at hweb
  have hstart := List.isPrefixOf_iff_prefix.1 hweb.2
  exact (List.dropWhile_sublist _).subset (hstart.subset List.mem_cons_self)

/-- Where no package is known, it is missing for the addresses that are the notation of an item and
nothing else. -/
theorem ofAddress_none_iff : ofAddress none address display = .missingPackage ↔
    ∃ exportName memberName, Reference.ItemNotation exportName memberName address := by
  constructor
  · intro h
    unfold ofAddress at h
    split at h
    · split at h <;> cases h
    · split at h
      · cases h
      · next key hkey =>
        dsimp only at h
        split at h
        · cases h
        · next hqualified =>
          cases Reference.parse_eq_ok_iff.1 hkey with
          | unqualified hitem => exact ⟨_, _, hitem⟩
          | qualified hpackage hitem =>
            refine absurd ?_ hqualified
            simpa [ItemKey.isQualified] using hpackage.full_eq.2
  · rintro ⟨exportName, memberName, hitem⟩
    rw [ofAddress, isWebAddress_eq_false hitem.not_mem,
      Reference.parse_eq_ok_iff.2 (.unqualified hitem)]
    rfl

/-- Where no package is known, it is missing for the links that leave it out. -/
theorem parse_none_iff : parse none content = .missingPackage ↔ LeavesPackageOut content := by
  constructor
  · intro h
    obtain ⟨address, display, hleads, hparse⟩ | ⟨e, -, hparse⟩ := parse_cases none content
    · obtain ⟨exportName, memberName, hitem⟩ := ofAddress_none_iff.1 (hparse.symm.trans h)
      exact ⟨address, exportName, memberName, hleads, hitem⟩
    · rw [hparse] at h
      cases h
  · rintro ⟨address, exportName, memberName, hleads, hitem⟩
    obtain ⟨display, hparse⟩ := hleads.parse none
    exact hparse.trans (ofAddress_none_iff.2 ⟨exportName, memberName, hitem⟩)

end

end Link

/-- The package of a link in a run is missing. -/
def Run.MissesPackage (package : Option PackageName) (run : Run) : Prop :=
  ∃ content ∈ run.contents .link, Link.parse package content = .missingPackage

/-! ## What stops the reading -/

section
variable {package : Option PackageName}

theorem Run.missesPackage_append (run run₁ : Run) : MissesPackage package (run ++ run₁) ↔
    MissesPackage package run ∨ MissesPackage package run₁ := by
  simp only [MissesPackage, contents_append, List.mem_append, or_and_right, exists_or]

theorem Run.missesPackage_flatMap (sections : List Section) :
    MissesPackage package (sections.flatMap Section.run) ↔
      ∃ s ∈ sections, MissesPackage package s.run := by
  induction sections with
  | nil => exact iff_of_false (by simp [MissesPackage, contents]) (by simp)
  | cons s sections ih =>
    rw [List.flatMap_cons, missesPackage_append, ih, List.exists_mem_cons_iff]

namespace Documentation

theorem readPiece_fails_iff (r : Block × Documentation) (piece : Piece) :
    (∃ e, readPiece package r piece = .error e) ↔
      ∃ content ∈ piece.content? .link, Link.parse package content = .missingPackage := by
  obtain ⟨elements, d⟩ := r
  cases piece with
  | text chars | inheritDoc content =>
    exact iff_of_false (ok_not_fails _) (by simp [Piece.content?])
  | link content =>
    simp only [readPiece, Piece.content?, if_true, Option.mem_some_iff, exists_eq_left']
    split
    · next h => exact iff_of_false (ok_not_fails _) (by simp [h])
    · next h => exact iff_of_false (ok_not_fails _) (by simp [h])
    · next h => exact iff_of_true ⟨_, rfl⟩ h

theorem readRun_fails_iff (d : Documentation) (run : Run) :
    (∃ e, readRun package d run = .error e) ↔ run.MissesPackage package := by
  rw [readRun, foldlM_fails_iff readPiece_fails_iff, Run.MissesPackage, Run.contents]
  simp only [List.mem_filterMap, Option.mem_def]
  constructor
  · rintro ⟨piece, hpiece, content, hcontent, hmissing⟩
    exact ⟨content, ⟨piece, hpiece, hcontent⟩, hmissing⟩
  · rintro ⟨content, ⟨piece, hpiece, hcontent⟩, hmissing⟩
    exact ⟨piece, hpiece, content, hcontent, hmissing⟩

theorem readSection_fails_iff (around : Surroundings) (d : Documentation) (s : Section) :
    (∃ e, readSection around d s = .error e) ↔ s.run.MissesPackage around.package := by
  obtain ⟨problems, hasFailed, put, -, heq⟩ := exists_readSection_eq around d s
  rw [heq, ← readRun_fails_iff { d with problems, hasFailed }]
  cases readRun around.package { d with problems, hasFailed } s.run with
  | error e => exact iff_of_true ⟨e, rfl⟩ ⟨e, rfl⟩
  | ok r => exact iff_of_false (ok_not_fails _) (ok_not_fails r)

/-- A comment cannot be read if and only if the package of one of its links is missing. -/
theorem parse_fails_iff (around : Surroundings) (itemName : Option Text) (body : Text) :
    (∃ e, parse around itemName body = .error e) ↔
      ∃ content ∈ Token.contents .link (Token.tokenize body),
        Link.parse around.package content = .missingPackage := by
  rw [← Outline.contents_ofTokens, parse]
  generalize Outline.ofTokens (Token.tokenize body) = outline
  change _ ↔ outline.run.MissesPackage around.package
  rw [Outline.run, Run.missesPackage_append, Run.missesPackage_flatMap, ofOutline]
  generalize opened itemName (Token.badBraces body) = start
  dsimp only
  rw [← readRun_fails_iff start]
  cases readRun around.package start outline.summary with
  | error e => exact iff_of_true ⟨e, rfl⟩ (.inl ⟨e, rfl⟩)
  | ok r =>
    have hsections := foldlM_fails_iff (readSection_fails_iff around) outline.sections
      { r.2 with content.summary := Block.normalize r.1 }
    rw [or_iff_right (ok_not_fails r), ← hsections]
    change (∃ e, (outline.sections.foldlM (readSection around) _ >>= _) = .error e) ↔ _
    cases outline.sections.foldlM (readSection around)
        { r.2 with content.summary := Block.normalize r.1 } with
    | error e => exact iff_of_true ⟨e, rfl⟩ ⟨e, rfl⟩
    | ok d => exact iff_of_false (ok_not_fails _) (ok_not_fails d)

end Documentation

end

end ApiDoc
