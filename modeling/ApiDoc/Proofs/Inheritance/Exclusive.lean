import ApiDoc.Proofs.Links.Queue

/-!
# What may not stand beside a request to inherit

An item that inherits is to have no summary, remarks, parameters or returned value of its own. Two
checks report it otherwise, and each looks only at what was read before: a section is reported if a
request stands before it, and a request is reported if content stands before it in its own run, or
in the summary once that is read. So what is reported depends on the order of the comment only.
Main statement: `Documentation.exclusive_of_parse`, which says what is reported, in terms of the
outline of the comment.

Other orders pass: remarks that are followed by a flag and then by a request are not reported,
though the request replaces them (`Documentation.remarksThenRequest_unreported`).
-/

namespace ApiDoc

/-- Whether a piece of a run shows anything but blank text. -/
def Piece.hasContent (package : Option PackageName) : Piece → Bool
  | text chars => Block.hasContent (Prose.parse chars)
  | link content =>
    match Link.parse package content with
    | .link e => e.hasContent
    | _ => false
  | inheritDoc _ => false

/-- Whether a piece is a request to inherit. -/
def Piece.isRequest : Piece → Bool
  | inheritDoc _ => true
  | _ => false

namespace Run

/-- Whether a run asks to inherit. -/
def asks (run : Run) : Bool :=
  run.any Piece.isRequest

/-- A request of a run stands after content, of the run itself or of what was read before. -/
def AsksAfterContent (package : Option PackageName) (filled : Bool) (run : Run) : Prop :=
  ∃ before content after, run = before ++ .inheritDoc content :: after ∧
    (filled || before.any (Piece.hasContent package)) = true

end Run

namespace Section

/-- The run of a section. -/
def run : Section → Run
  | remarks run | returns run | param _ _ run | deprecated run | internalRemarks run | stray run =>
    run
  | badParam _ | release _ | flag _ | unsupported _ | strayText _ => []

/-- The tag of a section that an item that inherits may not have. -/
def exclusiveTag? : Section → Option BlockTag
  | remarks _ => some .remarks
  | returns _ => some .returns
  | param _ _ _ | badParam _ => some .param
  | _ => none

end Section

/-- Whether a problem is about what may not stand beside a request to inherit. -/
def Problem.isExclusivity : Problem → Bool
  | summaryNotAllowed | sectionNotAllowed _ => true
  | _ => false

/-- What is reported of a comment that inherits, from its outline and from what its summary shows:
each exclusive section that a request stands before, and the requests that content stands before. -/
structure Outline.Exclusive (outline : Outline) (package : Option PackageName)
    (d : Documentation) : Prop where
  isInherited : d.isInherited = (outline.summary.asks || outline.sections.any (·.run.asks))
  sections : ∀ tag, .sectionNotAllowed tag ∈ d.problems ↔ ∃ before s after,
    outline.sections = before ++ s :: after ∧ s.exclusiveTag? = some tag ∧
      (outline.summary.asks || before.any (·.run.asks)) = true
  summary : .summaryNotAllowed ∈ d.problems ↔ outline.summary.AsksAfterContent package false ∨
    ∃ s ∈ outline.sections, s.run.AsksAfterContent package (Block.hasContent d.content.summary)

section
variable {package : Option PackageName} {filled : Bool} {run : Run} {piece : Piece}
  {d d₁ : Documentation} {elements : Block} {p : Problem} {around : Surroundings} {s : Section}
  {sections : List Section}

/-! ## One run -/

theorem Run.not_asksAfterContent_nil : ¬ AsksAfterContent package filled [] := by
  rintro ⟨before, content, after, heq, -⟩
  cases before <;> cases heq

theorem Run.asksAfterContent_cons : AsksAfterContent package filled (piece :: run) ↔
    (piece.isRequest && filled) = true ∨
      AsksAfterContent package (filled || piece.hasContent package) run := by
  constructor
  · rintro ⟨before, content, after, heq, hcontent⟩
    cases before with
    | nil =>
      cases heq
      exact .inl (by simpa [Piece.isRequest] using hcontent)
    | cons first before =>
      cases heq
      exact .inr ⟨before, content, after, rfl, by simpa [Bool.or_assoc] using hcontent⟩
  · rintro (hrequest | ⟨before, content, after, rfl, hcontent⟩)
    · cases piece with
      | inheritDoc content => exact ⟨[], content, run, rfl, by simpa [Piece.isRequest] using hrequest⟩
      | text | link => cases hrequest
    · exact ⟨piece :: before, content, after, rfl, by simpa [Bool.or_assoc] using hcontent⟩

namespace Documentation

/-- What some reading does to a documentation, as far as the two checks are concerned: whether it
meets a request, and which of their problems it reports. -/
structure Reads (asks : Bool) (new : Problem → Prop) (d d₁ : Documentation) : Prop where
  isInherited : d₁.isInherited = (d.isInherited || asks)
  summary : d₁.content.summary = d.content.summary
  problems : ∀ p, p.isExclusivity = true → (p ∈ d₁.problems ↔ p ∈ d.problems ∨ new p)

/-- The reading reports none of the problems of the two checks and meets no request. -/
abbrev ReadsNothing : Documentation → Documentation → Prop :=
  Reads false fun _ => False

namespace Reads
variable {asks asks₁ : Bool} {new new₁ : Problem → Prop} {d₂ : Documentation}

theorem of_eq (hinherited : d₁.isInherited = d.isInherited)
    (hsummary : d₁.content.summary = d.content.summary) (hproblems : d₁.problems = d.problems) :
    ReadsNothing d d₁ :=
  ⟨by rw [hinherited, Bool.or_false], hsummary, fun p _ => by rw [hproblems, or_false]⟩

theorem trans (h : Reads asks new d d₁) (h₁ : Reads asks₁ new₁ d₁ d₂) :
    Reads (asks || asks₁) (fun p => new p ∨ new₁ p) d d₂ where
  isInherited := by rw [h₁.isInherited, h.isInherited, Bool.or_assoc]
  summary := h₁.summary.trans h.summary
  problems p hp := by rw [h₁.problems p hp, h.problems p hp, or_assoc]

/-- The problems may be described in another way. -/
theorem congr (h : Reads asks new d d₁) (hasks : asks = asks₁)
    (hnew : ∀ p, p.isExclusivity = true → (new p ↔ new₁ p)) : Reads asks₁ new₁ d d₁ where
  isInherited := hasks ▸ h.isInherited
  summary := h.summary
  problems p hp := by rw [h.problems p hp, hnew p hp]

theorem andNothing (h : Reads asks new d d₁) (h₁ : ReadsNothing d₁ d₂) : Reads asks new d d₂ :=
  (h.trans h₁).congr (Bool.or_false _) fun _ _ => iff_of_eq (or_false _)

/-- A report of any problem, if a condition holds. -/
theorem reportIf (condition : Bool) (p : Problem) (d : Documentation) :
    Reads false (fun q => q = p ∧ condition = true) d (d.reportIf condition p) := by
  cases condition with
  | false => exact (of_eq rfl rfl rfl).congr rfl fun _ _ => by simp
  | true =>
    refine ⟨(Bool.or_false _).symm, rfl, fun q _ => ?_⟩
    simp [Documentation.reportIf, Documentation.report]

/-- A report of a problem of another kind. -/
theorem reportOther (condition : Bool) (hp : p.isExclusivity = false) (d : Documentation) :
    ReadsNothing d (d.reportIf condition p) :=
  (reportIf condition p d).congr rfl fun q hq => iff_false_intro fun h => by
    rw [h.1, hp] at hq
    cases hq

theorem report (hp : p.isExclusivity = false) (d : Documentation) : ReadsNothing d (d.report p) :=
  reportOther true hp d

/-- One piece of a run. -/
theorem readPiece {elements₁ : Block}
    (hread : Documentation.readPiece package (elements, d) piece = .ok (elements₁, d₁)) :
    Block.hasContent elements₁ = (Block.hasContent elements || piece.hasContent package) ∧
      Reads piece.isRequest (fun p => p = .summaryNotAllowed ∧ (piece.isRequest &&
        (Block.hasContent elements || Block.hasContent d.content.summary)) = true) d d₁ := by
  have hnothing (h : ReadsNothing d d₁) : Reads false (fun p => p = .summaryNotAllowed ∧
      (false && (Block.hasContent elements || Block.hasContent d.content.summary)) = true) d d₁ :=
    h.congr rfl fun _ _ => by simp
  cases piece with
  | text chars =>
    cases hread
    exact ⟨List.any_append, hnothing (of_eq rfl rfl rfl)⟩
  | inheritDoc content =>
    cases hread
    refine ⟨(Bool.or_false _).symm, ?_⟩
    have hreport := reportIf
      (Block.hasContent elements || Block.hasContent d.content.summary) .summaryNotAllowed d
    exact ⟨(Bool.or_true _).symm, hreport.summary, hreport.problems⟩
  | link content =>
    simp only [Documentation.readPiece] at hread
    cases hlink : Link.parse package content with
    | link e =>
      simp only [hlink] at hread
      cases hread
      refine ⟨?_, hnothing ?_⟩
      · refine List.any_append.trans ?_
        simp only [Piece.hasContent, hlink]
        cases e <;> simp [Documentation.enqueueLink, Element.hasContent, Block.hasContent]
      · cases e <;> exact of_eq rfl rfl rfl
    | malformed e =>
      simp only [hlink] at hread
      cases hread
      simp only [Piece.hasContent, hlink]
      exact ⟨(Bool.or_false _).symm, hnothing (report rfl d)⟩
    | missingPackage =>
      simp only [hlink] at hread
      cases hread

/-- A run that is read from some elements on. -/
theorem foldlM_readPiece {result : Block × Documentation}
    (hread : run.foldlM (Documentation.readPiece package) (elements, d) = .ok result) :
    Reads run.asks (fun p => p = .summaryNotAllowed ∧ run.AsksAfterContent package
      (Block.hasContent elements || Block.hasContent d.content.summary)) d result.2 := by
  induction run generalizing elements d with
  | nil =>
    cases hread
    exact (of_eq rfl rfl rfl).congr rfl fun _ _ => by simp [Run.not_asksAfterContent_nil]
  | cons piece run ih =>
    rw [List.foldlM_cons] at hread
    obtain ⟨⟨elements₁, d₁⟩, hpiece, hrest⟩ := exists_of_bind_eq_ok hread
    obtain ⟨hcontent, hreads⟩ := readPiece hpiece
    refine (hreads.trans (ih hrest)).congr rfl fun p _ => ?_
    rw [hreads.summary, hcontent, Run.asksAfterContent_cons, ← and_or_left,
      Bool.or_right_comm]

theorem readRun {result : Block × Documentation}
    (hread : Documentation.readRun package d run = .ok result) :
    Reads run.asks (fun p => p = .summaryNotAllowed ∧
      run.AsksAfterContent package (Block.hasContent d.content.summary)) d result.2 :=
  foldlM_readPiece hread

end Reads

/-! ## One section -/

/-- What the check of an exclusive section reports. -/
theorem Reads.checkSection (tag : BlockTag) (d : Documentation) :
    Reads false (fun p => p = .sectionNotAllowed tag ∧ d.isInherited = true) d
      (d.checkSection tag) :=
  .reportIf d.isInherited _ d

/-- What the checks report while a section is read. -/
def SectionProblem (package : Option PackageName) (d : Documentation) (s : Section)
    (p : Problem) : Prop :=
  (∃ tag, s.exclusiveTag? = some tag ∧ p = .sectionNotAllowed tag ∧ d.isInherited = true) ∨
    p = .summaryNotAllowed ∧ s.run.AsksAfterContent package (Block.hasContent d.content.summary)

/-- A section that has a run: what comes of the run is put into the documentation. -/
theorem Reads.readRun_bind {f : Block × Documentation → Except MissingPackage Documentation}
    (hf : ∀ r d₁, f r = .ok d₁ → ReadsNothing r.2 d₁)
    (hread : (Documentation.readRun package d run >>= f) = .ok d₁) :
    Reads run.asks (fun p => p = .summaryNotAllowed ∧
      run.AsksAfterContent package (Block.hasContent d.content.summary)) d d₁ := by
  obtain ⟨r, hrun, hok⟩ := exists_of_bind_eq_ok hread
  exact (Reads.readRun hrun).andNothing (hf r d₁ hok)

/-- An exclusive section: it is checked and then read. -/
theorem Reads.exclusive {tag : BlockTag} {asks : Bool} (htag : s.exclusiveTag? = some tag)
    (h : Reads asks (fun p => p = .summaryNotAllowed ∧
      s.run.AsksAfterContent package (Block.hasContent d.content.summary))
      (d.checkSection tag) d₁) : Reads asks (SectionProblem package d s) d d₁ :=
  ((Reads.checkSection tag d).trans h).congr (Bool.false_or _) fun p _ => by
    simp [SectionProblem, htag]

/-- A section that may stand beside a request. -/
theorem Reads.plain {asks : Bool} (htag : s.exclusiveTag? = none)
    (h : Reads asks (fun p => p = .summaryNotAllowed ∧
      s.run.AsksAfterContent package (Block.hasContent d.content.summary)) d d₁) :
    Reads asks (SectionProblem package d s) d d₁ :=
  h.congr rfl fun p _ => by simp [SectionProblem, htag]

/-- A section without a run. -/
theorem Reads.noRun (hrun : s.run = []) (h : ReadsNothing d d₁) :
    Reads s.run.asks (fun p => p = .summaryNotAllowed ∧
      s.run.AsksAfterContent package (Block.hasContent d.content.summary)) d d₁ := by
  rw [hrun]
  exact h.congr rfl fun p _ => by simp [Run.not_asksAfterContent_nil]

theorem isExclusivity_of_isOfParam (hp : p.isOfParam = true) : p.isExclusivity = false := by
  cases p <;> first | rfl | cases hp

theorem isExclusivity_tagProblem (token : Token) : (tagProblem token).isExclusivity = false := by
  unfold tagProblem
  dsimp only
  split <;> rfl

theorem summary_checkSection (tag : BlockTag) (d : Documentation) :
    (d.checkSection tag).content.summary = d.content.summary :=
  (Reads.checkSection tag d).summary

/-- One section of a comment. -/
theorem Reads.readSection (hs : ∀ p, s = .badParam p → p.isExclusivity = false)
    (hread : Documentation.readSection around d s = .ok d₁) :
    Reads s.run.asks (SectionProblem around.package d s) d d₁ := by
  cases s with
  | remarks run | returns run | param name lead run =>
    refine .exclusive rfl ?_
    rw [← summary_checkSection]
    refine .readRun_bind (fun r d₂ hok => ?_) hread
    cases hok
    exact .of_eq rfl rfl rfl
  | badParam problem =>
    cases hread
    refine .exclusive rfl ?_
    rw [← summary_checkSection]
    exact .noRun rfl (.report (hs problem rfl) _)
  | deprecated run =>
    refine .plain rfl (.readRun_bind (fun r d₂ hok => ?_) hread)
    cases hok
    have hmessage : ReadsNothing r.2 { r.2 with
        content.deprecatedMessage := Block.normalize r.1 } := .of_eq rfl rfl rfl
    exact hmessage.andNothing (.reportOther _ rfl _)
  | internalRemarks run | stray run =>
    refine .plain rfl (.readRun_bind (fun r d₂ hok => ?_) hread)
    cases hok
    exact .of_eq rfl rfl rfl
  | release tag | flag f =>
    cases hread
    exact .plain rfl (.noRun rfl (.of_eq rfl rfl rfl))
  | unsupported token =>
    cases hread
    exact .plain rfl (.noRun rfl (.report (isExclusivity_tagProblem token) _))
  | strayText chars =>
    cases hread
    exact .plain rfl (.noRun rfl (.reportOther _ rfl _))

/-! ## One comment -/

/-- The sections of a comment. -/
theorem Reads.foldlM_readSection
    (hs : ∀ s ∈ sections, ∀ p, s = .badParam p → p.isExclusivity = false)
    (hread : sections.foldlM (Documentation.readSection around) d = .ok d₁) :
    Reads (sections.any (·.run.asks)) (fun p =>
      (∃ before s after tag, sections = before ++ s :: after ∧ s.exclusiveTag? = some tag ∧
        p = .sectionNotAllowed tag ∧ (d.isInherited || before.any (·.run.asks)) = true) ∨
      p = .summaryNotAllowed ∧ ∃ s ∈ sections,
        s.run.AsksAfterContent around.package (Block.hasContent d.content.summary)) d d₁ := by
  induction sections generalizing d with
  | nil =>
    cases hread
    exact (Reads.of_eq rfl rfl rfl).congr rfl fun p _ => by simp
  | cons s sections ih =>
    rw [List.foldlM_cons] at hread
    obtain ⟨d₂, hsection, hrest⟩ := exists_of_bind_eq_ok hread
    obtain ⟨hfirst, hothers⟩ := List.forall_mem_cons.1 hs
    have hreads := Reads.readSection hfirst hsection
    refine (hreads.trans (ih hothers hrest)).congr rfl fun p _ => ?_
    rw [hreads.summary, hreads.isInherited]
    constructor
    · rintro ((⟨tag, htag, rfl, hinherited⟩ | ⟨rfl, hasks⟩) |
        ⟨before, t, after, tag, rfl, htag, rfl, hinherited⟩ | ⟨rfl, t, ht, hasks⟩)
      · exact .inl ⟨[], s, sections, tag, rfl, htag, rfl, by simpa using hinherited⟩
      · exact .inr ⟨rfl, s, List.mem_cons_self, hasks⟩
      · exact .inl ⟨s :: before, t, after, tag, rfl, htag, rfl,
          by simpa [Bool.or_assoc] using hinherited⟩
      · exact .inr ⟨rfl, t, List.mem_cons_of_mem _ ht, hasks⟩
    · rintro (⟨before, t, after, tag, heq, htag, rfl, hinherited⟩ | ⟨rfl, t, ht, hasks⟩)
      · cases before with
        | nil =>
          cases heq
          exact .inl (.inl ⟨tag, htag, rfl, by simpa using hinherited⟩)
        | cons first before =>
          cases heq
          exact .inr (.inl ⟨before, t, after, tag, rfl, htag, rfl,
            by simpa [Bool.or_assoc] using hinherited⟩)
      · rcases List.mem_cons.1 ht with rfl | ht
        · exact .inl (.inr ⟨rfl, hasks⟩)
        · exact .inr (.inr ⟨rfl, t, ht, hasks⟩)

/-- The checks at the end of a comment are others. -/
theorem Reads.finish (releaseTags : Nat) (d : Documentation) :
    ReadsNothing d (d.finish releaseTags) := by
  have hfirst : ReadsNothing d ((d.reportIf d.omitsDeprecation .deprecationNotRestated).reportIf
      (1 < releaseTags) .manyReleaseTags) :=
    (reportOther _ rfl d).andNothing (reportOther _ rfl _)
  unfold Documentation.finish
  dsimp only
  refine (andNothing ?_ (reportOther _ rfl _)).andNothing (reportOther _ rfl _)
  split
  · exact (hfirst.andNothing (.report rfl _)).andNothing (.of_eq rfl rfl rfl)
  · exact hfirst

end Documentation

/-- What is reported of a comment that asks to inherit: exactly the exclusive sections that a
request stands before, and a request that content stands before in its run or in the summary. -/
theorem Documentation.exclusive_of_parse {itemName : Option Text} {body : Text}
    (hparse : Documentation.parse around itemName body = .ok d) :
    (Outline.ofTokens (Token.tokenize body)).Exclusive around.package d := by
  unfold Documentation.parse Documentation.ofOutline at hparse
  generalize houtline : Outline.ofTokens (Token.tokenize body) = outline at hparse
  have hbad : ∀ s ∈ outline.sections, ∀ p, s = .badParam p → p.isExclusivity = false := by
    rintro s hs p rfl
    rw [← houtline] at hs
    exact isExclusivity_of_isOfParam (Section.isOfParam_of_mem hs)
  obtain ⟨r, hrun, hparse⟩ := exists_of_bind_eq_ok hparse
  obtain ⟨d₁, hsections, hok⟩ := exists_of_bind_eq_ok hparse
  cases hok
  have hsummary := Reads.readRun hrun
  have hreads := (Reads.foldlM_readSection hbad hsections).andNothing
    (.finish (outline.sections.countP Section.isRelease) d₁)
  have hinherited : r.2.isInherited = outline.summary.asks := hsummary.isInherited
  have hproblems : ∀ p, p.isExclusivity = true → (p ∈ r.2.problems ↔
      p = .summaryNotAllowed ∧ outline.summary.AsksAfterContent around.package false) := by
    intro p hp
    refine (hsummary.problems p hp).trans (or_iff_right fun hmem => ?_)
    rw [List.eq_of_mem_replicate hmem] at hp
    cases hp
  refine ⟨hreads.isInherited.trans (congrArg (· || _) hinherited), fun tag => ?_, ?_⟩
  · rw [hreads.problems _ rfl, hproblems _ rfl, hinherited]
    constructor
    · rintro (⟨h, -⟩ | ⟨before, s, after, tag', heq, htag, h, hasks⟩ | ⟨h, -⟩)
      · cases h
      · cases h
        exact ⟨before, s, after, heq, htag, hasks⟩
      · cases h
    · rintro ⟨before, s, after, heq, htag, hasks⟩
      exact .inr (.inl ⟨before, s, after, tag, heq, htag, rfl, hasks⟩)
  · rw [hreads.problems _ rfl, hproblems _ rfl, hreads.summary]
    constructor
    · rintro (⟨-, hasks⟩ | ⟨_, _, _, _, _, _, h, -⟩ | ⟨-, hasks⟩)
      · exact .inl hasks
      · cases h
      · exact .inr hasks
    · rintro (hasks | hasks)
      · exact .inl ⟨rfl, hasks⟩
      · exact .inr (.inr ⟨rfl, hasks⟩)

/-- Remarks after a request are reported. -/
theorem Documentation.exclusive_requestThenRemarks :
    ∃ d, Documentation.parse
        { package := some { scope := [], name := "pkg".toList }, config := {} } none
        "\x7b@inheritdoc Base\x7d\n@remarks Local text.".toList = .ok d ∧
      .sectionNotAllowed .remarks ∈ d.problems ∧
      (Outline.ofTokens (Token.tokenize
        "\x7b@inheritdoc Base\x7d\n@remarks Local text.".toList)).Exclusive
        (some { scope := [], name := "pkg".toList }) d := by
  have hparse : Documentation.parse
      { package := some { scope := [], name := "pkg".toList }, config := {} } none
      "\x7b@inheritdoc Base\x7d\n@remarks Local text.".toList =
      .ok {
        content.remarks := [.text "Local text.".toList]
        isInherited := true
        problems := [.sectionNotAllowed .remarks]
        hasFailed := true
        pendingInheritDocs := ["Base".toList] } := by cbv
  exact ⟨_, hparse, List.mem_cons_self, Documentation.exclusive_of_parse hparse⟩

/-- Remarks before a request, with a flag in between, are not: neither check looks there, and the
remarks are replaced when the request is met. -/
theorem Documentation.remarksThenRequest_unreported :
    ∃ d, Documentation.parse
        { package := some { scope := [], name := "pkg".toList }, config := {} } none
        "@remarks Local text.\n@public\n\x7b@inheritdoc Base\x7d".toList = .ok d ∧
      d.isInherited = true ∧ d.content.remarks ≠ [] ∧ d.problems = [] ∧ d.hasFailed = false := by
  have hparse : Documentation.parse
      { package := some { scope := [], name := "pkg".toList }, config := {} } none
      "@remarks Local text.\n@public\n\x7b@inheritdoc Base\x7d".toList =
      .ok {
        content.remarks := [.text "Local text.".toList]
        releaseTag := .released
        isInherited := true
        pendingInheritDocs := ["Base".toList] } := by cbv
  exact ⟨_, hparse, rfl, List.cons_ne_nil _ _, rfl, rfl⟩

end

end ApiDoc
