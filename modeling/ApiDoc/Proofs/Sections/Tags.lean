import ApiDoc.Proofs.Sections.Marks

/-!
# Tags that may not be used

Which tags of a comment are reported, and how. A tag that may not be used in the notation it stands
in is the start of no section and a piece of no run. So it is left for the outside, wherever it
stands: a run ends in front of it, and a section that is malformed does not take it in. What is
reported of the tags is therefore known from the tokens one by one (`Section.badTags_ofTokens`),
and each such tag is reported once. Main statement: `Documentation.tagMessages_of_parse`.
-/

namespace ApiDoc

/-- The block tags that a comment may use, in alphabetical order. -/
def BlockTag.allowed : List Text :=
  ["@alpha", "@beta", "@betadocumentation", "@deprecated", "@eventproperty", "@internal",
    "@internalremarks", "@override", "@packagedocumentation", "@param", "@preapproved", "@public",
    "@readonly", "@remarks", "@returns", "@sealed", "@virtual"].map String.toList

/-- The inline tags that a comment may use, in alphabetical order. -/
def InlineTag.allowed : List Text :=
  ["@inheritdoc", "@link"].map String.toList

/-- What is wrong with a token that is a tag: it may be used in the other notation only, or not at
all. -/
def Token.badTag? : Token → Option Problem
  | text _ => none
  | block tag =>
    if tag ∈ BlockTag.allowed then none
    else if tag ∈ InlineTag.allowed then some (.inlineTagExpected tag)
    else some (.unsupportedTag tag)
  | inline tag _ =>
    if tag ∈ InlineTag.allowed then none
    else if tag ∈ BlockTag.allowed then some (.blockTagExpected tag)
    else some (.unsupportedTag tag)

/-- The problem with the tag that a section is left with. -/
def Section.badTag? : Section → Option Problem
  | unsupported token => some (Documentation.tagProblem token)
  | _ => none

namespace Problem

/-- Whether a problem is with a tag. -/
def isOfTag : Problem → Bool
  | unsupportedTag _ | blockTagExpected _ | inlineTagExpected _ | tagOutOfPlace _ => true
  | _ => false

/-- Whether a message is about a tag, by the words that it begins with. -/
def isTagMessage (message : String) : Bool :=
  "The JSDoc tag \"".toList.isPrefixOf message.toList ||
    "The AEDoc tag \"".toList.isPrefixOf message.toList

end Problem

section
variable {p : Problem} {tag : Text} {token : Token} {tokens : List Token} {around : Surroundings}
  {s : Section} {d : Documentation}

/-! ## The messages -/

/-- Every block tag is written with an at sign. -/
theorem BlockTag.exists_toList_name (tag : BlockTag) : ∃ rest, tag.name.toList = '@' :: rest := by
  cases tag with
  | remarks | returns | param | deprecated | internalRemarks => exact ⟨_, String.toList_ofList⟩
  | release stage =>
    refine ⟨stage.name.toList, ?_⟩
    rw [name, String.toList_append, String.toList_ofList]
    rfl
  | flag f => cases f <;> exact ⟨_, String.toList_ofList⟩

namespace Problem

/-- A message that is known from its start on is about a tag if the start is that of one. -/
theorem isTagMessage_ofList_append (start : List Char) (rest : String) :
    isTagMessage (String.ofList start ++ rest) =
      (['T', 'h', 'e', ' ', 'J', 'S', 'D', 'o', 'c', ' ', 't', 'a', 'g', ' ', '"'].isPrefixOf
          (start ++ rest.toList) ||
        ['T', 'h', 'e', ' ', 'A', 'E', 'D', 'o', 'c', ' ', 't', 'a', 'g', ' ', '"'].isPrefixOf
          (start ++ rest.toList)) := by
  rw [isTagMessage, String.toList_append, String.toList_ofList, String.toList_ofList,
    String.toList_ofList]

theorem isTagMessage_ofList (chars : List Char) : isTagMessage (String.ofList chars) =
    (['T', 'h', 'e', ' ', 'J', 'S', 'D', 'o', 'c', ' ', 't', 'a', 'g', ' ', '"'].isPrefixOf chars ||
      ['T', 'h', 'e', ' ', 'A', 'E', 'D', 'o', 'c', ' ', 't', 'a', 'g', ' ', '"'].isPrefixOf
        chars) := by
  rw [isTagMessage, String.toList_ofList, String.toList_ofList, String.toList_ofList]

/-- The messages about tags are those of the problems with tags. -/
theorem isTagMessage_message (p : Problem) : isTagMessage p.message = p.isOfTag := by
  have hreference (e : Reference.Error) : isTagMessage e.message = false := by
    cases e with
    | malformed => exact (isTagMessage_ofList_append _ _).trans rfl
    | tooManyParts | badExport | badMember => exact (isTagMessage_ofList _).trans rfl
  cases p with
  | unsupportedTag | tagOutOfPlace | strayText | malformedInheritDoc | circularInheritDoc =>
    refine (congrArg isTagMessage String.append_assoc).trans ?_
    exact (isTagMessage_ofList_append _ _).trans rfl
  | blockTagExpected | inlineTagExpected =>
    refine (congrArg isTagMessage (String.append_assoc.trans String.append_assoc)).trans ?_
    exact (isTagMessage_ofList_append _ _).trans rfl
  | sectionNotAllowed tag =>
    obtain ⟨rest, hname⟩ : ∃ rest, (toString tag.name).toList = '@' :: rest :=
      tag.exists_toList_name
    refine (congrArg isTagMessage (String.append_assoc.trans String.append_assoc)).trans ?_
    refine (isTagMessage_ofList_append _ _).trans ?_
    rw [String.toList_append, hname]
    rfl
  | link e =>
    cases e with
    | reference e => exact hreference e
    | displayChar | spaceInAddress =>
      refine (congrArg isTagMessage String.append_assoc).trans ?_
      exact (isTagMessage_ofList_append _ _).trans rfl
    | empty | manyBars => exact (isTagMessage_ofList _).trans rfl
  | inheritDocReference e => exact hreference e
  | restrictedLink | blankInInheritDoc => exact (isTagMessage_ofList_append _ _).trans rfl
  | summaryNotAllowed | braceWithoutTag | paramWithoutDescription | paramWithoutHyphen
  | paramWithoutName | deprecatedWithoutMessage | deprecationNotRestated | manyReleaseTags
  | preapprovedNotInternal | sealedAndVirtual | virtualAndOverride =>
    exact (isTagMessage_ofList _).trans rfl

/-- Strings that end with different characters are different. -/
theorem append_ofList_ne {s t : String} {cs ds : List Char} {c d : Char}
    (hc : cs.getLast? = some c) (hd : ds.getLast? = some d) (hne : c ≠ d) :
    s ++ String.ofList cs ≠ t ++ String.ofList ds := by
  intro heq
  have hlast := congrArg (fun u : String => u.toList.getLast?) heq
  simp only [String.toList_append, String.toList_ofList, List.getLast?_append, hc, hd,
    Option.some_or, Option.some.injEq] at hlast
  exact hne hlast

/-- No other problem has the message that a tag may be used, but not here. -/
theorem message_ne_tagOutOfPlace (hp : ∀ tag, p ≠ tagOutOfPlace tag) (tag : Text) :
    p.message ≠ (tagOutOfPlace tag).message := by
  intro heq
  have htag : p.isOfTag = true := by
    rw [← isTagMessage_message, heq, isTagMessage_message]
    rfl
  cases p with
  | tagOutOfPlace tag => exact hp tag rfl
  | unsupportedTag | blockTagExpected | inlineTagExpected =>
    exact append_ofList_ne rfl rfl (by decide) heq
  | _ => cases htag

end Problem

/-! ## Tags that are left for the outside -/

theorem BlockTag.isSome_ofName? (tag : Text) : (ofName? tag).isSome = true ↔ tag ∈ allowed := by
  have hwords : (all.map fun t => t.name.toList).Perm allowed := by decide
  rw [← hwords.mem_iff, ofName?, List.find?_isSome, List.mem_map]
  simp only [decide_eq_true_eq]

theorem InlineTag.isSome_ofName? (tag : Text) : (ofName? tag).isSome = true ↔ tag ∈ allowed := by
  have hwords : (all.map fun t => t.name.toList).Perm allowed := by decide
  rw [← hwords.mem_iff, ofName?, List.find?_isSome, List.mem_map]
  simp only [decide_eq_true_eq]

/-- A piece of a run is no tag that may not be used. -/
theorem Token.badTag?_eq_none (h : (Piece.ofToken? token).isSome = true) :
    token.badTag? = none := by
  cases token with
  | text chars => rfl
  | block tag => cases h
  | inline tag content =>
    rw [Piece.isSome_ofToken?_inline, InlineTag.isSome_ofName?] at h
    exact if_pos h

/-- A tag that may not be used so is never one that may be used, but not here. -/
theorem Token.badTag?_ne_tagOutOfPlace (token : Token) (tag : Text) :
    token.badTag? ≠ some (.tagOutOfPlace tag) := by
  cases token with
  | text chars => nofun
  | block name =>
    rw [badTag?]
    split
    · nofun
    · split <;> nofun
  | inline name content =>
    rw [badTag?]
    split
    · nofun
    · split <;> nofun

/-- A tag that opens no section is reported with its problem. -/
theorem Token.badTag?_block (h : BlockTag.ofName? tag = none) :
    (block tag).badTag? = some (Documentation.tagProblem (block tag)) := by
  have hblock : tag ∉ BlockTag.allowed := by
    rw [← BlockTag.isSome_ofName?, h]
    exact Bool.false_ne_true
  rw [badTag?, if_neg hblock]
  by_cases hinline : tag ∈ InlineTag.allowed
  · have hname := (InlineTag.isSome_ofName? tag).2 hinline
    simp [Documentation.tagProblem, Token.tag, h, hinline, hname]
  · have hname := mt (InlineTag.isSome_ofName? tag).1 hinline
    simp [Documentation.tagProblem, Token.tag, h, hinline, hname]

/-- An inline tag that is no piece of a run is reported with its problem. -/
theorem Token.badTag?_inline {content : Text}
    (h : Piece.ofToken? (inline tag content) = none) :
    (inline tag content).badTag? = some (Documentation.tagProblem (inline tag content)) := by
  have hname : (InlineTag.ofName? tag).isSome = false := by
    rw [← Piece.isSome_ofToken?_inline tag content, h]
    rfl
  have hinline : tag ∉ InlineTag.allowed := by
    rw [← InlineTag.isSome_ofName?, hname]
    exact Bool.false_ne_true
  rw [badTag?, if_neg hinline]
  by_cases hblock : tag ∈ BlockTag.allowed
  · have hblock' := (BlockTag.isSome_ofName? tag).2 hblock
    simp [Documentation.tagProblem, Token.tag, hname, hblock, hblock']
  · have hblock' := mt (BlockTag.isSome_ofName? tag).1 hblock
    simp [Documentation.tagProblem, Token.tag, hname, hblock, hblock']

namespace Run

/-- A run takes in no tag that may not be used. -/
theorem filterMap_badTag?_take (tokens : List Token) :
    (take tokens).2.filterMap Token.badTag? = tokens.filterMap Token.badTag? := by
  induction tokens with
  | nil => rfl
  | cons token tokens ih =>
    rw [take]
    split
    · next piece hpiece =>
      rw [List.filterMap_cons_none (Token.badTag?_eq_none (Option.isSome_of_eq_some hpiece))]
      exact ih
    · rfl

end Run

namespace Section

/-- A parameter tag leaves the tags behind it to the sections after it, or to its run. -/
theorem filterMap_badTag?_ofParam (tokens : List Token) :
    (ofParam tokens).1.badTag? = none ∧
      (ofParam tokens).2.filterMap Token.badTag? = tokens.filterMap Token.badTag? := by
  unfold ofParam
  split
  · exact ⟨rfl, rfl⟩
  · split
    · exact ⟨rfl, rfl⟩
    · dsimp only
      split
      · exact ⟨rfl, rfl⟩
      · split
        · exact ⟨rfl, rfl⟩
        · exact ⟨rfl, Run.filterMap_badTag?_take _⟩
  · exact ⟨rfl, rfl⟩

/-- What is reported of the tags that a section takes in is reported of the section. -/
theorem filterMap_badTag?_next (token : Token) (tokens : List Token) :
    (next token tokens).1.badTag?.toList ++ (next token tokens).2.filterMap Token.badTag? =
      (token :: tokens).filterMap Token.badTag? := by
  have htake := Run.filterMap_badTag?_take tokens
  unfold next
  split
  · rfl
  · next tag =>
    split
    · next kind hkind =>
      have hallowed : (Token.block tag).badTag? = none :=
        if_pos ((BlockTag.isSome_ofName? tag).1 (Option.isSome_of_eq_some hkind))
      rw [List.filterMap_cons_none hallowed]
      cases kind with
      | remarks | returns | deprecated | internalRemarks => exact htake
      | param =>
        obtain ⟨hnone, hrest⟩ := filterMap_badTag?_ofParam tokens
        show (ofParam tokens).1.badTag?.toList ++ _ = _
        rw [hnone]
        exact hrest
      | release | flag => rfl
    · next hnone =>
      rw [List.filterMap_cons_some (Token.badTag?_block hnone)]
      rfl
  · next tag content =>
    split
    · next piece hpiece =>
      rw [List.filterMap_cons_none (Token.badTag?_eq_none (Option.isSome_of_eq_some hpiece))]
      exact htake
    · next hnone =>
      rw [List.filterMap_cons_some (Token.badTag?_inline hnone)]
      rfl

/-- The tags that the sections are left with are those of the tokens that may not be used, in
order. -/
theorem filterMap_badTag?_ofTokens (tokens : List Token) :
    (ofTokens tokens).filterMap badTag? = tokens.filterMap Token.badTag? := by
  induction tokens using ofTokens.induct with
  | case1 =>
    rw [ofTokens]
    rfl
  | case2 token tokens ih =>
    rw [ofTokens, ← filterMap_badTag?_next, ← ih, List.filterMap_cons]
    cases (next token tokens).1.badTag? <;> rfl

end Section

/-! ## What is reported -/

namespace Documentation

/-- The complaint of a section is about a tag if the section is left with one. -/
theorem filter_isOfTag_complaint (config : Config)
    (hs : ∀ p, s = .badParam p → p.isOfParam = true) :
    (s.complaint? config).filter Problem.isOfTag = s.badTag? := by
  cases s with
  | badParam p =>
    have hp := hs p rfl
    cases p <;> first | rfl | cases hp
  | unsupported token =>
    simp only [Section.complaint?, Section.badTag?, tagProblem]
    split <;> rfl
  | strayText chars =>
    simp only [Section.complaint?, Section.badTag?, Text.strayProblem?]
    split <;> rfl
  | _ => rfl

/-- What is reported of the tags of a comment is reported of each token that is a tag that may not
be used so, in order. -/
theorem filter_isOfTag_of_parse {itemName : Option Text} {body : Text}
    (hparse : parse around itemName body = .ok d) :
    d.problems.filter Problem.isOfTag = (Token.tokenize body).filterMap Token.badTag? := by
  have hform : d.formProblems.filter Problem.isOfTag = d.problems.filter Problem.isOfTag := by
    rw [formProblems, List.filter_filter]
    refine List.filter_congr fun p _ => ?_
    cases p <;> rfl
  have hbraces (n : Nat) :
      (List.replicate n Problem.braceWithoutTag).filter Problem.isOfTag = [] :=
    List.filter_eq_nil_iff.2 fun p hp => List.eq_of_mem_replicate hp ▸ Bool.false_ne_true
  rw [← hform, formProblems_of_parse hparse, List.filter_append, hbraces, List.nil_append,
    List.filter_filterMap, ← Run.filterMap_badTag?_take, ← Section.filterMap_badTag?_ofTokens]
  refine List.filterMap_congr fun s hs => filter_isOfTag_complaint _ ?_
  rintro p rfl
  exact Section.isOfParam_of_mem hs

/-- In a known package every comment is read, and the messages about tags are, in order, one for
each block tag that may not be used as a block tag and for each inline tag that may not be used as
an inline tag: that the tag must use the other notation if it may be used in that, and that it is
not supported if it may not be used at all. The message that a tag may be used, but not here, never
comes up. -/
theorem tagMessages_of_parse (package : PackageName) (config : Config) (itemName : Option Text)
    (body : Text) : ∃ d, parse { package := some package, config } itemName body = .ok d ∧
      (d.problems.map Problem.message).filter Problem.isTagMessage =
        ((Token.tokenize body).filterMap Token.badTag?).map Problem.message ∧
      ∀ tag, (Problem.tagOutOfPlace tag).message ∉ d.problems.map Problem.message := by
  have hknown : (Surroundings.mk (some package) config).package = some package := rfl
  obtain ⟨d, hparse, -⟩ := exists_parse hknown itemName body
  have hreported := filter_isOfTag_of_parse hparse
  refine ⟨d, hparse, ?_, ?_⟩
  · rw [← hreported, List.filter_map]
    refine congrArg (List.map _) (List.filter_congr fun p _ => ?_)
    exact Problem.isTagMessage_message p
  · intro tag hmem
    obtain ⟨p, hp, hmessage⟩ := List.mem_map.1 hmem
    refine Problem.message_ne_tagOutOfPlace (fun tag heq => ?_) tag hmessage
    have htoken : .tagOutOfPlace tag ∈ (Token.tokenize body).filterMap Token.badTag? := by
      rw [← hreported, ← heq]
      exact List.mem_filter.2 ⟨hp, heq ▸ rfl⟩
    obtain ⟨token, -, htoken⟩ := List.mem_filterMap.1 htoken
    exact Token.badTag?_ne_tagOutOfPlace token tag htoken

end Documentation

end

end ApiDoc
