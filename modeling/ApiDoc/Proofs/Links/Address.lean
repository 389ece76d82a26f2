import ApiDoc.Proofs.Links.Unqualified

/-!
# The addresses of web links

Which contents of a link tag become web links, and which are turned down for words that follow the
address. What decides is the space alone: an address is trimmed, so that a blank in it has
characters on both sides, and it is turned down if one of these blanks is a space. A newline, a tab
or any other blank stays in the address (`Link.wrappedAddress_accepted`). Main statement:
`Link.webLink_of_parse`.
-/

namespace ApiDoc

namespace Link

section
variable {package : Option PackageName} {content address target : Text} {display shown : List Text}

/-- The address that a content leads to is trimmed. -/
theorem LeadsTo.strip_eq (h : LeadsTo content address) : Text.strip address = address := by
  cases h with
  | plain | displayed => exact Text.strip_strip _

/-- The address that a content leads to is a part of it. -/
theorem LeadsTo.subset (h : LeadsTo content address) : address ⊆ content := by
  intro c hc
  cases h with
  | plain => exact (Text.strip_sublist _).subset hc
  | displayed => exact List.mem_append_left _ ((Text.strip_sublist _).subset hc)

/-- A web address with a space in it is turned down, and any other becomes a web link. -/
theorem ofAddress_of_isWebAddress (h : isWebAddress address = true) :
    ofAddress package address display =
      if ' ' ∈ address then .malformed .spaceInAddress else .link (.webLink display address) := by
  rw [ofAddress, if_pos h]
  simp only [List.contains_iff_mem]

/-- An address that is no web address is the reference of an item link or an error in it. -/
theorem ofAddress_of_not_isWebAddress (package : Option PackageName) (display : List Text)
    (h : isWebAddress address = false) :
    (∃ e, ofAddress package address display = .malformed (.reference e)) ∨
    (∃ link, ofAddress package address display = .link (.itemLink link)) ∨
    ofAddress package address display = .missingPackage := by
  rw [ofAddress, if_neg (Bool.eq_false_iff.1 h)]
  cases Reference.parse address with
  | error e => exact .inl ⟨e, rfl⟩
  | ok key =>
    by_cases hkey : key.isQualified = true
    · exact .inr (.inl ⟨_, if_pos hkey⟩)
    · cases package with
      | none => exact .inr (.inr (if_neg hkey))
      | some package => exact .inr (.inl ⟨_, if_neg hkey⟩)

theorem ofAddress_eq_webLink_iff :
    ofAddress package address display = .link (.webLink shown target) ↔
      (isWebAddress address = true ∧ ' ' ∉ address) ∧ shown = display ∧ target = address := by
  cases hweb : isWebAddress address with
  | false =>
    obtain ⟨e, h⟩ | ⟨link, h⟩ | h := ofAddress_of_not_isWebAddress package display hweb <;>
      simp [h]
  | true =>
    rw [ofAddress_of_isWebAddress hweb]
    split
    · next hspace => simp [hspace]
    · next hspace => simp [hspace, eq_comm]

theorem ofAddress_eq_spaceInAddress_iff :
    ofAddress package address display = .malformed .spaceInAddress ↔
      isWebAddress address = true ∧ ' ' ∈ address := by
  cases hweb : isWebAddress address with
  | false =>
    obtain ⟨e, h⟩ | ⟨link, h⟩ | h := ofAddress_of_not_isWebAddress package display hweb <;>
      simp [h]
  | true =>
    rw [ofAddress_of_isWebAddress hweb]
    split
    · next hspace => simp [hspace]
    · next hspace => simp [hspace]

/-- A content becomes a web link to an address if and only if it leads there, the address is that
of a web page and no space is in it. If a space is in it, that is what is reported, and it is
reported of no other content. So the address of a web link is trimmed, and a blank in it is one of
the content's and no space: it is without blanks if the content has no other blank than spaces. -/
theorem webLink_of_parse (package : Option PackageName) (content : Text) :
    (∀ address, (∃ display, parse package content = .link (.webLink display address)) ↔
      LeadsTo content address ∧ isWebAddress address = true ∧ ' ' ∉ address) ∧
    (parse package content = .malformed .spaceInAddress ↔
      ∃ address, LeadsTo content address ∧ isWebAddress address = true ∧ ' ' ∈ address) ∧
    ∀ display address, parse package content = .link (.webLink display address) →
      Text.strip address = address ∧
        ∀ c ∈ address, Text.isBlank c = true → c ∈ content ∧ c ≠ ' ' := by
  have hlink : ∀ address, (∃ display, parse package content = .link (.webLink display address)) ↔
      LeadsTo content address ∧ isWebAddress address = true ∧ ' ' ∉ address := by
    intro address
    constructor
    · rintro ⟨display, h⟩
      obtain ⟨address₁, display₁, hleads, hparse⟩ | ⟨e, -, hparse⟩ := parse_cases package content
      · rw [hparse] at h
        obtain ⟨hweb, -, rfl⟩ := ofAddress_eq_webLink_iff.1 h
        exact ⟨hleads, hweb⟩
      · rw [hparse] at h
        cases h
    · rintro ⟨hleads, hweb⟩
      obtain ⟨display, hparse⟩ := hleads.parse package
      exact ⟨display, hparse.trans (ofAddress_eq_webLink_iff.2 ⟨hweb, rfl, rfl⟩)⟩
  refine ⟨hlink, ⟨?_, ?_⟩, ?_⟩
  · intro h
    obtain ⟨address, display, hleads, hparse⟩ | ⟨e, he, hparse⟩ := parse_cases package content
    · rw [hparse] at h
      exact ⟨address, hleads, ofAddress_eq_spaceInAddress_iff.1 h⟩
    · rw [hparse] at h
      cases h
      simp at he
  · rintro ⟨address, hleads, hweb⟩
    obtain ⟨display, hparse⟩ := hleads.parse package
    exact hparse.trans (ofAddress_eq_spaceInAddress_iff.2 hweb)
  · intro display address h
    obtain ⟨hleads, -, hspace⟩ := (hlink address).1 ⟨display, h⟩
    refine ⟨hleads.strip_eq, fun c hc _ => ⟨hleads.subset hc, ?_⟩⟩
    rintro rfl
    exact hspace hc

/-- A link tag that is wrapped behind its address, without a bar, is one tag of the comment, and
the newline and the word after it become part of the address. -/
theorem wrappedAddress_accepted :
    Token.tokenize "See \x7b@link http://x.com/a\nb\x7d.".toList =
      [.text "See ".toList, .inline "@link".toList "http://x.com/a\nb".toList,
        .text ".".toList] ∧
    parse none "http://x.com/a\nb".toList =
      .link (.webLink ["http://x.com/a b".toList] "http://x.com/a\nb".toList) ∧
    Text.hasBlank "http://x.com/a\nb".toList = true := by
  refine ⟨?_, ?_, ?_⟩ <;> cbv

end

end Link

end ApiDoc
