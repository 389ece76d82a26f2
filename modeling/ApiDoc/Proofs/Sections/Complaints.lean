import ApiDoc.Documentation.Parse
import ApiDoc.Proofs.Outcome
import ApiDoc.Proofs.Text.Blank

/-!
# What is wrong with the form of a comment

Some problems concern only how a comment is written: braces without a tag, a parameter tag that
nothing useful follows, a tag that may not be used so, and text outside every section. Each of them
is the complaint of one section of the outline, or of one pair of braces; links, requests to inherit
and the checks at the end add none. So the problems of form are known from the outline alone, in
their order. Main statement: `Documentation.formProblems_of_parse`.
-/

namespace ApiDoc

namespace Problem

/-- Whether a problem is that of a parameter tag that nothing useful follows. -/
def isOfParam : Problem → Bool
  | paramWithoutDescription | paramWithoutHyphen | paramWithoutName => true
  | _ => false

/-- Whether a problem may come up in a run. -/
def isOfRun : Problem → Bool
  | link _ | summaryNotAllowed => true
  | _ => false

/-- Whether a problem concerns only how the comment is written. -/
def isOfForm : Problem → Bool
  | braceWithoutTag | unsupportedTag _ | blockTagExpected _ | inlineTagExpected _ | tagOutOfPlace _
  | strayText _ => true
  | p => p.isOfParam

end Problem

/-- The problem with a text outside every section, unless the text is blank. -/
def Text.strayProblem? (config : Config) (chars : Text) : Option Problem :=
  if Text.allBlank chars then none
  else some (.strayText (Documentation.excerpt config.excerptLength (Text.strip chars)))

/-- The problem of form that a section has, if it has one. -/
def Section.complaint? (config : Config) : Section → Option Problem
  | badParam problem => some problem
  | unsupported token => some (Documentation.tagProblem token)
  | strayText chars => Text.strayProblem? config chars
  | _ => none

/-- The problems of form found so far. -/
def Documentation.formProblems (d : Documentation) : List Problem :=
  d.problems.filter Problem.isOfForm

section
variable {d d₁ : Documentation} {p : Problem} {package : Option PackageName} {run : Run}
  {around : Surroundings} {s : Section} {sections : List Section} {token : Token}
  {tokens : List Token}

/-! ## Parameter tags -/

namespace Section

/-- A parameter tag gives a parameter, or a problem of a parameter tag. -/
theorem ofParam_cases (tokens : List Token) :
    (∃ p, (ofParam tokens).1 = .badParam p ∧ p.isOfParam = true) ∨
      ∃ name lead run, (ofParam tokens).1 = .param name lead run := by
  unfold ofParam
  split
  · exact .inl ⟨_, rfl, rfl⟩
  · split
    · exact .inl ⟨_, rfl, rfl⟩
    · dsimp only
      split
      · exact .inl ⟨_, rfl, rfl⟩
      · split
        · exact .inl ⟨_, rfl, rfl⟩
        · exact .inr ⟨_, _, _, rfl⟩
  · exact .inl ⟨_, rfl, rfl⟩

/-- The only problems that a section holds are those of a parameter tag. -/
theorem isOfParam_of_next (h : (next token tokens).1 = .badParam p) : p.isOfParam = true := by
  have hparam (h : (ofParam tokens).1 = .badParam p) : p.isOfParam = true := by
    rcases ofParam_cases tokens with ⟨q, hq, hproblem⟩ | ⟨name, lead, run, hrun⟩
    · rw [hq] at h
      cases h
      exact hproblem
    · rw [hrun] at h
      cases h
  unfold next at h
  split at h
  · cases h
  · split at h
    · next tag _ => cases tag <;> first | exact hparam h | cases h
    · cases h
  · split at h <;> cases h

/-- What holds of every section that a token starts holds of all sections of some tokens. -/
theorem forall_mem_ofTokens {P : Section → Prop} (hP : ∀ token tokens, P (next token tokens).1)
    (tokens : List Token) : ∀ s ∈ ofTokens tokens, P s := by
  induction tokens using ofTokens.induct with
  | case1 =>
    rw [ofTokens]
    nofun
  | case2 token tokens ih =>
    rw [ofTokens]
    exact List.forall_mem_cons.2 ⟨hP token tokens, ih⟩

theorem isOfParam_of_mem (hs : .badParam p ∈ ofTokens tokens) : p.isOfParam = true :=
  forall_mem_ofTokens (P := fun s => ∀ p, s = .badParam p → p.isOfParam = true)
    (fun _ _ _ => isOfParam_of_next) tokens _ hs p rfl

end Section

/-! ## Reports -/

theorem Problem.isOfForm_of_isOfParam (hp : p.isOfParam = true) : p.isOfForm = true := by
  cases p <;> first | rfl | cases hp

namespace Documentation

theorem isOfForm_tagProblem (token : Token) : (tagProblem token).isOfForm = true := by
  unfold tagProblem
  dsimp only
  split <;> rfl

theorem formProblems_report (hp : p.isOfForm = true) :
    (d.report p).formProblems = d.formProblems ++ [p] := by
  simp [formProblems, report, List.filter_append, hp]

/-- A problem of another kind is none of form. -/
theorem formProblems_reportIf (condition : Bool) (hp : p.isOfForm = false) :
    (d.reportIf condition p).formProblems = d.formProblems := by
  unfold reportIf
  split
  · simp [formProblems, report, List.filter_append, hp]
  · rfl

theorem formProblems_checkSection (tag : BlockTag) :
    (d.checkSection tag).formProblems = d.formProblems :=
  formProblems_reportIf d.isInherited rfl

/-! ## Runs -/

/-- What the reports about a run and the two queues leave as it is, a run leaves as it is. -/
theorem readRun_keeps {γ : Type} {part : Documentation → γ}
    (hreport : ∀ {p : Problem}, p.isOfRun = true → ∀ d, part (d.report p) = part d)
    (hlinks : ∀ d links, part { d with pendingLinks := links } = part d)
    (hrequests : ∀ d requests,
      part { d with pendingInheritDocs := requests, isInherited := true } = part d)
    {r : Block × Documentation} (hread : readRun package d run = .ok r) : part r.2 = part d := by
  refine foldlM_keeps (P := fun r => part r.2 = part d) ?_ rfl hread
  rintro piece - ⟨elements, d₁⟩ r₁ hkept hpiece
  refine Eq.trans ?_ hkept
  cases piece with
  | text chars =>
    cases hpiece
    rfl
  | inheritDoc content =>
    cases hpiece
    refine (hrequests _ _).trans ?_
    unfold reportIf
    split
    · exact hreport rfl d₁
    · rfl
  | link content =>
    simp only [readPiece] at hpiece
    split at hpiece
    · next e _ =>
      cases hpiece
      cases e with
      | itemLink link => exact hlinks d₁ _
      | text | paragraph | htmlTag | webLink => rfl
    · cases hpiece
      exact hreport rfl d₁
    · cases hpiece

/-- A run has no problem of form. -/
theorem formProblems_readRun {r : Block × Documentation} (hread : readRun package d run = .ok r) :
    r.2.formProblems = d.formProblems := by
  have hform {p : Problem} (hp : p.isOfRun = true) : p.isOfForm = false := by
    cases p <;> first | rfl | cases hp
  exact readRun_keeps (fun hp d => formProblems_reportIf (d := d) true (hform hp))
    (fun _ _ => rfl) (fun _ _ => rfl) hread

/-- A section that has a run: what comes of the run is put into the documentation. -/
theorem formProblems_readRun_bind {f : Block × Documentation → Except MissingPackage Documentation}
    (hf : ∀ r d₁, f r = .ok d₁ → d₁.formProblems = r.2.formProblems)
    (hread : (readRun package d run >>= f) = .ok d₁) : d₁.formProblems = d.formProblems := by
  obtain ⟨r, hrun, hok⟩ := exists_of_bind_eq_ok hread
  exact (hf r d₁ hok).trans (formProblems_readRun hrun)

/-! ## Sections -/

/-- A section adds its complaint. -/
theorem formProblems_readSection (hs : ∀ p, s = .badParam p → p.isOfParam = true)
    (hread : readSection around d s = .ok d₁) :
    d₁.formProblems = d.formProblems ++ (s.complaint? around.config).toList := by
  cases s with
  | remarks run | returns run | param name lead run =>
    refine Eq.trans ?_ (List.append_nil _).symm
    refine (formProblems_readRun_bind (fun r d₂ hok => ?_) hread).trans
      (formProblems_checkSection _)
    cases hok
    rfl
  | badParam problem =>
    cases hread
    refine (formProblems_report (Problem.isOfForm_of_isOfParam (hs problem rfl))).trans ?_
    rw [formProblems_checkSection]
    rfl
  | deprecated run =>
    refine Eq.trans ?_ (List.append_nil _).symm
    refine formProblems_readRun_bind (fun r d₂ hok => ?_) hread
    cases hok
    exact formProblems_reportIf _ rfl
  | internalRemarks run | stray run =>
    refine Eq.trans ?_ (List.append_nil _).symm
    refine formProblems_readRun_bind (fun r d₂ hok => ?_) hread
    cases hok
    rfl
  | release tag | flag f =>
    cases hread
    exact (List.append_nil _).symm
  | unsupported token =>
    cases hread
    exact formProblems_report (isOfForm_tagProblem token)
  | strayText chars =>
    cases hread
    simp only [Section.complaint?, Text.strayProblem?, Text.isEmpty_strip]
    cases Text.allBlank chars with
    | true => exact (List.append_nil _).symm
    | false => exact formProblems_report rfl

theorem formProblems_foldlM (hs : ∀ s ∈ sections, ∀ p, s = .badParam p → p.isOfParam = true)
    (hread : sections.foldlM (readSection around) d = .ok d₁) :
    d₁.formProblems = d.formProblems ++ sections.filterMap (Section.complaint? around.config) := by
  induction sections generalizing d with
  | nil =>
    cases hread
    exact (List.append_nil _).symm
  | cons s sections ih =>
    rw [List.foldlM_cons] at hread
    obtain ⟨d₂, hstep, hrest⟩ := exists_of_bind_eq_ok hread
    rw [ih (fun s hmem => hs s (List.mem_cons_of_mem _ hmem)) hrest,
      formProblems_readSection (hs s List.mem_cons_self) hstep, List.append_assoc]
    cases hcomplaint : s.complaint? around.config <;> simp [hcomplaint]

/-! ## Comments -/

/-- The checks at the end of a comment find no problem of form. -/
theorem formProblems_finish (releaseTags : Nat) :
    (d.finish releaseTags).formProblems = d.formProblems := by
  unfold finish
  dsimp only
  rw [formProblems_reportIf _ rfl, formProblems_reportIf _ rfl]
  split
  · change ((((d.reportIf _ _).reportIf _ _).reportIf true _).formProblems = _)
    rw [formProblems_reportIf _ rfl, formProblems_reportIf _ rfl, formProblems_reportIf _ rfl]
  · rw [formProblems_reportIf _ rfl, formProblems_reportIf _ rfl]

/-- The problems of form are one for each pair of braces without a tag, and the complaints of the
sections, in order. -/
theorem formProblems_of_parse {itemName : Option Text} {body : Text}
    (hparse : parse around itemName body = .ok d) :
    d.formProblems = List.replicate (Token.badBraces body) .braceWithoutTag ++
      (Outline.ofTokens (Token.tokenize body)).sections.filterMap
        (Section.complaint? around.config) := by
  unfold parse ofOutline at hparse
  generalize houtline : Outline.ofTokens (Token.tokenize body) = outline at hparse ⊢
  have hparams : ∀ s ∈ outline.sections, ∀ p, s = .badParam p → p.isOfParam = true := by
    rintro s hs p rfl
    rw [← houtline] at hs
    exact Section.isOfParam_of_mem hs
  obtain ⟨r, hsummary, hparse⟩ := exists_of_bind_eq_ok hparse
  obtain ⟨d₁, hsections, hok⟩ := exists_of_bind_eq_ok hparse
  cases hok
  rw [formProblems_finish, formProblems_foldlM hparams hsections]
  refine congrArg (· ++ _) ((formProblems_readRun hsummary).trans ?_)
  exact List.filter_eq_self.2 fun p hp => List.eq_of_mem_replicate hp ▸ rfl

/-- Braces without a tag are reported once each. -/
theorem count_braceWithoutTag_of_parse {itemName : Option Text} {body : Text}
    (hparse : parse around itemName body = .ok d) :
    d.problems.count .braceWithoutTag = Token.badBraces body := by
  have hcomplaints : .braceWithoutTag ∉
      (Outline.ofTokens (Token.tokenize body)).sections.filterMap
        (Section.complaint? around.config) := by
    intro hmem
    obtain ⟨s, hs, hcomplaint⟩ := List.mem_filterMap.1 hmem
    cases s with
    | badParam p =>
      cases hcomplaint
      cases Section.isOfParam_of_mem hs
    | unsupported token =>
      have hproblem := Option.some.inj hcomplaint
      unfold tagProblem at hproblem
      dsimp only at hproblem
      split at hproblem <;> cases hproblem
    | strayText chars =>
      simp only [Section.complaint?, Text.strayProblem?] at hcomplaint
      split at hcomplaint <;> cases hcomplaint
    | _ => cases hcomplaint
  have hcount : d.problems.count .braceWithoutTag = d.formProblems.count .braceWithoutTag :=
    (List.count_filter rfl).symm
  rw [hcount, formProblems_of_parse hparse, List.count_append, List.count_replicate_self,
    List.count_eq_zero.2 hcomplaints]
  rfl

end Documentation

end

end ApiDoc
