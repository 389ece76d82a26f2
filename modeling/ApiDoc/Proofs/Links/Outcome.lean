import ApiDoc.Proofs.Links.Address
import ApiDoc.Proofs.Sections.Contents
import ApiDoc.Proofs.Workspace.Reading

/-!
# What becomes of a link tag

A link tag becomes one element, or one problem is reported, or the reading stops because a package
is missing. Which of the three it is follows from the content of the tag and the package at hand.
What is displayed is the text behind the bar, or the address where no text is given (`Link.Shows`),
and what becomes of an address does not depend on it (`Link.linksTo_of_ofAddress`). So an element
links to the address of its content under one label, which is trimmed and collapsed. Main statement:
`Link.outcome_of_parse`.
-/

namespace ApiDoc

namespace Link

/-- The content of a link tag leads to an address, and a text is to be displayed for it: the one
behind the bar, or the address if there is no bar or only blanks behind it. -/
inductive Shows : Text → Text → Text → Prop
  | plain {content : Text} : content ≠ [] → '|' ∉ content →
    Shows content (Text.strip content) (Text.strip content)
  | blank {before after : Text} : '|' ∉ before → '|' ∉ after → Text.allBlank after = true →
    Shows (before ++ '|' :: after) (Text.strip before) (Text.strip before)
  | displayed {before after : Text} : '|' ∉ before → '|' ∉ after → Text.allBlank after = false →
    (∀ c ∈ Text.strip after, isDelimiter c = false) →
    Shows (before ++ '|' :: after) (Text.strip before) (Text.strip after)

/-- A text that links may be displayed by. -/
structure IsLabel (label : Text) : Prop where
  nonempty : label ≠ []
  trimmed : Text.strip label = label
  collapsed : Text.IsCollapsed label

/-- An element links to an address under a label. To an item it links by a key that is written as
the address, with the package at hand before it if there is none in the address. -/
inductive LinksTo (package : Option PackageName) (address label : Text) : Element → Prop
  | web : isWebAddress address = true → LinksTo package address label (.webLink [label] address)
  | item {target : ItemKey} : isWebAddress address = false → target.isQualified = true →
    (if ':' ∈ address then target.text = address
      else ∃ own ∈ package, target.text = own.full ++ ':' :: address) →
    LinksTo package address label
      (.itemLink { display := [label], target, status := .incomplete, place := none })

section
variable {package : Option PackageName} {content address shown label before after : Text}
  {e : Element}

/-! ## Contents -/

theorem Shows.parse (h : Shows content address shown) (package : Option PackageName) :
    Link.parse package content = ofAddress package address (Element.displayOf shown) := by
  cases h with
  | plain hne hbar => exact parse_of_not_mem hne hbar
  | @blank before after hbefore hafter hblank =>
    have hnil : Text.strip after = [] := by rwa [← List.isEmpty_iff, Text.isEmpty_strip]
    rw [parse_of_bar hbefore hafter, hnil]
    rfl
  | @displayed before after hbefore hafter hblank hfree =>
    have hnone : (Text.strip after).find? isDelimiter = none :=
      List.find?_eq_none.2 fun c hc => Bool.eq_false_iff.1 (hfree c hc)
    rw [parse_of_bar hbefore hafter, hnone, Text.isEmpty_strip, hblank]
    rfl

/-- What leads to an address shows something. -/
theorem LeadsTo.exists_shows (h : LeadsTo content address) :
    ∃ shown, Shows content address shown := by
  cases h with
  | plain hne hbar => exact ⟨_, .plain hne hbar⟩
  | @displayed before after hbefore hafter hfree =>
    cases hblank : Text.allBlank after with
    | true => exact ⟨_, .blank hbefore hafter hblank⟩
    | false => exact ⟨_, .displayed hbefore hafter hblank hfree⟩

/-- What is displayed is trimmed, and it is empty only if the address is. -/
theorem Shows.trimmed (h : Shows content address shown) :
    Text.strip shown = shown ∧ (shown = [] → address = []) := by
  cases h with
  | plain | blank => exact ⟨Text.strip_strip _, id⟩
  | @displayed before after _ _ hblank _ =>
    refine ⟨Text.strip_strip _, fun hnil => ?_⟩
    rw [← Text.isEmpty_strip, hnil] at hblank
    cases hblank

/-- A text that is given behind a bar is displayed, and there is no delimiter in it. -/
theorem Shows.of_given (h : Shows (before ++ '|' :: after) address shown)
    (hgiven : Text.allBlank after = false) :
    shown = Text.strip after ∧ ∀ c ∈ shown, isDelimiter c = false := by
  generalize hcontent : before ++ '|' :: after = content at h
  cases h with
  | plain _ hbar => exact absurd (hcontent ▸ by simp) hbar
  | blank hbefore hafter hblank =>
    obtain ⟨-, -, rfl⟩ := (List.append_cons_inj_of_notMem hbefore hafter).1 hcontent.symm
    rw [hblank] at hgiven
    cases hgiven
  | displayed hbefore hafter _ hfree =>
    obtain ⟨-, -, rfl⟩ := (List.append_cons_inj_of_notMem hbefore hafter).1 hcontent.symm
    exact ⟨rfl, hfree⟩

/-! ## Addresses -/

/-- No link has an empty address. -/
theorem ne_nil_of_ofAddress {display : List Text}
    (h : ofAddress package address display = .link e) : address ≠ [] := by
  rintro rfl
  cases h

theorem linksTo_of_ofAddress (hname : ∀ own ∈ package, own.name ≠ [])
    (h : ofAddress package address [label] = .link e) : LinksTo package address label e := by
  unfold ofAddress at h
  split at h
  · next hweb =>
    split at h
    · cases h
    · cases h
      exact .web hweb
  · next hweb =>
    have hweb : isWebAddress address = false := Bool.eq_false_iff.2 hweb
    split at h
    · cases h
    · next key hkey =>
      dsimp only at h
      cases Reference.parse_eq_ok_iff.1 hkey with
      | unqualified hitem =>
        cases package with
        | none => cases h
        | some own =>
          cases h
          have hown : own.name ≠ [] := hname own rfl
          refine .item hweb (by simpa [ItemKey.isQualified] using hown) ?_
          rw [if_neg hitem.not_mem]
          exact ⟨own, rfl, hitem.text_eq hown⟩
      | @qualified p _ _ full item hpackage hitem =>
        obtain ⟨hfull, hp⟩ := hpackage.full_eq
        have hqualified : p.name.isEmpty = false := List.isEmpty_eq_false_iff.2 hp
        rw [ItemKey.isQualified, hqualified] at h
        cases h
        refine .item hweb (by simpa [ItemKey.isQualified] using hp) ?_
        rw [if_pos (List.mem_append_right full List.mem_cons_self), hitem.text_eq hp, hfull]

/-- The links that leave their package out are links to items wherever a package is known. -/
theorem LeavesPackageOut.exists_itemLink (h : LeavesPackageOut content) (own : PackageName) :
    ∃ link, parse (some own) content = .link (.itemLink link) := by
  obtain ⟨address, exportName, memberName, hleads, hitem⟩ := h
  obtain ⟨display, hparse⟩ := hleads.parse (some own)
  rw [hparse, ofAddress, isWebAddress_eq_false hitem.not_mem,
    Reference.parse_eq_ok_iff.2 (.unqualified hitem)]
  exact ⟨_, rfl⟩

/-! ## Outcomes -/

/-- What a link tag does to a block and its documentation is what its content is read as: a link is
taken in and nothing is reported, an error is reported and nothing is taken in, and a missing
package stops the reading before anything is reported. -/
theorem readPiece_cases (package : Option PackageName) (content : Text) (b : Block)
    (d : Documentation) :
    (∃ e d', Documentation.readPiece package (b, d) (.link content) = .ok (b ++ [e], d') ∧
      d'.problems = d.problems ∧ parse package content = .link e.detach) ∨
    (∃ error, Documentation.readPiece package (b, d) (.link content) =
      .ok (b, d.report (.link error)) ∧ parse package content = .malformed error) ∨
    Documentation.readPiece package (b, d) (.link content) = .error { problems := d.problems } ∧
      parse package content = .missingPackage := by
  simp only [Documentation.readPiece]
  cases hparse : parse package content with
  | link e =>
    refine .inl ⟨(d.enqueueLink e).1, (d.enqueueLink e).2, rfl, ?_, ?_⟩
    · cases e <;> rfl
    · rw [← detach_of_parse hparse]
      cases e <;> rfl
  | malformed error => exact .inr (.inl ⟨error, rfl, rfl⟩)
  | missingPackage => exact .inr (.inr ⟨rfl, rfl⟩)

theorem parse_eq_missingPackage_iff :
    parse package content = .missingPackage ↔ package = none ∧ LeavesPackageOut content := by
  cases package with
  | none => rw [parse_none_iff, and_iff_right rfl]
  | some own => exact iff_of_false (parse_ne_missingPackage own content) (by simp)

/-- What is displayed for an address collapses to a label. -/
theorem Shows.isLabel (h : Shows content address shown) (hne : address ≠ []) :
    IsLabel (Text.collapse shown) := by
  obtain ⟨htrimmed, hnil⟩ := h.trimmed
  exact ⟨Text.collapse_ne_nil (mt hnil hne), Text.strip_collapse htrimmed,
    Text.isCollapsed_collapseFrom false shown⟩

theorem exists_linksTo_of_parse (hname : ∀ own ∈ package, own.name ≠ [])
    (h : parse package content = .link e) :
    ∃ address shown, Shows content address shown ∧ IsLabel (Text.collapse shown) ∧
      LinksTo package address (Text.collapse shown) e := by
  obtain ⟨address, -, hleads, -⟩ | ⟨error, -, hparse⟩ := parse_cases package content
  · obtain ⟨shown, hshows⟩ := hleads.exists_shows
    rw [hshows.parse] at h
    have hne := ne_nil_of_ofAddress h
    rw [Element.displayOf, List.isEmpty_eq_false_iff.2 (mt hshows.trimmed.2 hne)] at h
    exact ⟨address, shown, hshows, hshows.isLabel hne, linksTo_of_ofAddress hname h⟩
  · rw [hparse] at h
    cases h

/-- Every content of a link tag has one outcome. It is read as a link, and the block gets an element
and the documentation no problem; or as an error, and it is the other way round; or the reading
stops with the problems there were. The last happens if and only if no package is known and the
content leaves it out, and with a package the same content is a link to an item. What is read as a
link has one label, in which there is no delimiter if a text is given behind a bar, and links to the
address of the content. -/
theorem outcome_of_parse (package : Option PackageName) (hname : ∀ own ∈ package, own.name ≠ [])
    (content : Text) :
    (∀ (b : Block) (d : Documentation),
      (∃ e d', Documentation.readPiece package (b, d) (.link content) = .ok (b ++ [e], d') ∧
        d'.problems = d.problems ∧ parse package content = .link e.detach) ∨
      (∃ error, Documentation.readPiece package (b, d) (.link content) =
        .ok (b, d.report (.link error)) ∧ parse package content = .malformed error) ∨
      Documentation.readPiece package (b, d) (.link content) =
        .error { problems := d.problems } ∧ parse package content = .missingPackage) ∧
    (parse package content = .missingPackage ↔ package = none ∧ LeavesPackageOut content) ∧
    (LeavesPackageOut content → ∀ own, ∃ link,
      parse (some own) content = .link (.itemLink link)) ∧
    ∀ e, parse package content = .link e → ∃ address shown,
      Shows content address shown ∧ IsLabel (Text.collapse shown) ∧
      (∀ before after, content = before ++ '|' :: after → Text.allBlank after = false →
        ∀ c ∈ Text.collapse shown, isDelimiter c = false) ∧
      LinksTo package address (Text.collapse shown) e := by
  refine ⟨fun b d => readPiece_cases package content b d, parse_eq_missingPackage_iff,
    fun h own => h.exists_itemLink own, fun e he => ?_⟩
  obtain ⟨address, shown, hshows, hlabel, hlinks⟩ := exists_linksTo_of_parse hname he
  refine ⟨address, shown, hshows, hlabel, ?_, hlinks⟩
  rintro before after rfl hgiven c hc
  -- the space is the only character that collapsing brings in
  rcases Text.mem_of_mem_collapseFrom hc with rfl | hc
  · decide
  · exact (hshows.of_given hgiven).2 c hc

/-- A reference without a package, displayed by a text over two lines. -/
theorem wrappedDisplay_outcome :
    ∃ link address shown, parse (some ⟨"@scope".toList, "pkg".toList⟩)
        "Widget.render | the\n  method ".toList = .link (.itemLink link) ∧
      link.display = ["the method".toList] ∧
      link.target.text = "@scope/pkg:Widget.render".toList ∧
      Shows "Widget.render | the\n  method ".toList address shown ∧
      LinksTo (some ⟨"@scope".toList, "pkg".toList⟩) address (Text.collapse shown)
        (.itemLink link) := by
  have hparse : parse (some ⟨"@scope".toList, "pkg".toList⟩)
      "Widget.render | the\n  method ".toList = .link (.itemLink ⟨["the method".toList],
        ⟨⟨"@scope".toList, "pkg".toList⟩, "Widget".toList, "render".toList⟩,
        .incomplete, none⟩) := by cbv
  obtain ⟨address, shown, hshows, -, -, hlinks⟩ :=
    (outcome_of_parse _ (by simp) _).2.2.2 _ hparse
  exact ⟨_, address, shown, hparse, rfl, by cbv, hshows, hlinks⟩

end

end Link

end ApiDoc
