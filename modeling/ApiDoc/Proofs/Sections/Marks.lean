import ApiDoc.Proofs.Sections.Openings
import ApiDoc.Proofs.Session.Edits

/-!
# The marks of an item

The stage of support and the flags of an item, and the problems with them, are its marks. They
depend on the block tags of its comment and on nothing else there: every block tag that states a
stage or raises a flag is read, wherever it stands, and nothing but these tags changes a mark
(`Documentation.marks_of_parse`). Nor does any operation on the package later on, since no change to
a documentation touches the marks (`Documentation.Edit.marks`). Main statement:
`Documentation.markedBy_of_parse`.
-/

namespace ApiDoc

/-- The problems with marks. -/
def Problem.ofMarks : List Problem :=
  [.manyReleaseTags, .preapprovedNotInternal, .sealedAndVirtual, .virtualAndOverride]

/-- Problems whose messages quote nothing: those with marks, and that a deprecation is not
restated. -/
def Problem.unquoted : List Problem :=
  .deprecationNotRestated :: ofMarks

/-- The block tags of some tokens, in order. -/
def Token.blockTags (tokens : List Token) : List Text :=
  tokens.filterMap fun token =>
    match token with
    | .block tag => some tag
    | _ => none

/-- The stage of support that a block tag states. -/
def ReleaseTag.ofTag? (tag : Text) : Option ReleaseTag :=
  match BlockTag.ofName? tag with
  | some (.release stage) => some stage
  | _ => none

/-- The message of a problem is there once if a condition holds, and else it is not there. -/
def Documentation.TellsOnceIf (d : Documentation) (p : Problem) (condition : Prop) : Prop :=
  let times := (d.problems.map Problem.message).count p.message
  (condition → times = 1) ∧ (¬ condition → times = 0)

/-- The marks of an item are those that some block tags decide. -/
structure Documentation.MarkedBy (tags : List Text) (d : Documentation) : Prop where
  releaseTag : d.releaseTag = (tags.filterMap ReleaseTag.ofTag?).getLast?.getD .unstated
  preapproved : d.hasFlag .preapproved = true ↔
    Flag.preapproved.tagName.toList ∈ tags ∧ d.releaseTag = .internal
  flags : ∀ f, f ≠ .preapproved → (d.hasFlag f = true ↔ f.tagName.toList ∈ tags)
  manyReleaseTags : d.TellsOnceIf .manyReleaseTags
    (2 ≤ (tags.filterMap ReleaseTag.ofTag?).length)
  preapprovedNotInternal : d.TellsOnceIf .preapprovedNotInternal
    (Flag.preapproved.tagName.toList ∈ tags ∧ d.releaseTag ≠ .internal)
  sealedAndVirtual : d.TellsOnceIf .sealedAndVirtual
    (Flag.sealed.tagName.toList ∈ tags ∧ Flag.virtual.tagName.toList ∈ tags)
  virtualAndOverride : d.TellsOnceIf .virtualAndOverride
    (Flag.virtual.tagName.toList ∈ tags ∧ Flag.override.tagName.toList ∈ tags)

/-- The marks of an item. -/
structure Marks where
  /-- The stage of support. -/
  releaseTag : ReleaseTag := .unstated
  /-- The flags that are raised. -/
  flags : List Flag := []
  /-- The problems with the marks, in order. -/
  problems : List Problem := []

namespace Marks

/-- The marks after one more block tag. -/
def read (m : Marks) (tag : Text) : Marks :=
  match BlockTag.ofName? tag with
  | some (.release stage) => { m with releaseTag := stage }
  | some (.flag f) => { m with flags := m.flags.insert f }
  | _ => m

/-- The marks with one more problem, if a condition holds. -/
def reportIf (condition : Bool) (p : Problem) (m : Marks) : Marks :=
  { m with problems := m.problems ++ if condition then [p] else [] }

/-- Whether an item is preapproved that is not internal. -/
def isMisused (m : Marks) : Bool :=
  m.flags.contains .preapproved && m.releaseTag ≠ .internal

/-- The marks without the flag of an item that is preapproved and not internal. -/
def correct (m : Marks) : Marks :=
  { m.reportIf m.isMisused .preapprovedNotInternal with
    flags := if m.isMisused then m.flags.erase .preapproved else m.flags }

/-- Reports flags that may not be raised together. -/
def reportBoth (f g : Flag) (p : Problem) (m : Marks) : Marks :=
  m.reportIf (m.flags.contains f && m.flags.contains g) p

/-- The marks after the checks at the end of a comment that states so many stages. -/
def finish (releaseTags : Nat) (m : Marks) : Marks :=
  (((m.reportIf (1 < releaseTags) .manyReleaseTags).correct).reportBoth .sealed .virtual
    .sealedAndVirtual).reportBoth .virtual .override .virtualAndOverride

/-- The marks that the block tags of a comment give. -/
def ofTags (tags : List Text) : Marks :=
  (tags.foldl read {}).finish (tags.filterMap ReleaseTag.ofTag?).length

end Marks

/-- The marks of a documentation. -/
def Documentation.marks (d : Documentation) : Marks where
  releaseTag := d.releaseTag
  flags := d.flags
  problems := d.problems.filter (· ∈ Problem.ofMarks)

section
variable {d d₁ : Documentation} {p q : Problem} {tag : Text} {tags : List Text}
  {tokens : List Token} {around : Surroundings} {package : PackageName}

/-! ## The messages -/

/-- A string that begins as another one does not is not that one. -/
theorem ne_of_not_prefix {start rest t : String} (h : ¬ start.toList <+: t.toList) :
    start ++ rest ≠ t := by
  rintro rfl
  rw [String.toList_append] at h
  exact h (List.prefix_append _ _)

namespace Problem

/-- No other problem has the message of one of these. -/
theorem message_ne_of_mem (hp : p ∉ unquoted) (hq : q ∈ unquoted) : p.message ≠ q.message := by
  -- what a problem quotes comes behind words that tell it from these problems
  have hquotes {start rest : String} (h : ∀ q ∈ unquoted, ¬ start.toList <+: q.message.toList) :
      start ++ rest ≠ q.message :=
    ne_of_not_prefix (h q hq)
  have hfixed {p : Problem} (h : ∀ q ∈ unquoted, p.message ≠ q.message) :
      p.message ≠ q.message :=
    h q hq
  cases p with
  | unsupportedTag | strayText | malformedInheritDoc | circularInheritDoc =>
    exact String.append_assoc.trans_ne (hquotes (by decide))
  | blockTagExpected | inlineTagExpected =>
    exact (String.append_assoc.trans String.append_assoc).trans_ne (hquotes (by decide))
  | tagOutOfPlace => exact String.append_assoc.trans_ne (hquotes (by decide))
  | link e =>
    cases e with
    | displayChar c => exact String.append_assoc.trans_ne (hquotes (by decide))
    | reference e => cases e <;> exact hfixed (by decide)
    | empty | manyBars | spaceInAddress => exact hfixed (by decide)
  | inheritDocReference e => cases e <;> exact hfixed (by decide)
  | sectionNotAllowed tag =>
    cases tag with
    | release stage => cases stage <;> exact hfixed (by decide)
    | flag f => cases f <;> exact hfixed (by decide)
    | remarks | returns | param | deprecated | internalRemarks => exact hfixed (by decide)
  | manyReleaseTags | preapprovedNotInternal | sealedAndVirtual | virtualAndOverride
  | deprecationNotRestated =>
    exact absurd (by decide) hp
  | braceWithoutTag | summaryNotAllowed | paramWithoutDescription | paramWithoutHyphen
  | paramWithoutName | deprecatedWithoutMessage | restrictedLink | blankInInheritDoc =>
    exact hfixed (by decide)

theorem message_eq_iff (hq : q ∈ unquoted) : p.message = q.message ↔ p = q := by
  have hunquoted : ∀ p ∈ unquoted, ∀ q ∈ unquoted, p.message = q.message → p = q := by decide
  refine ⟨fun h => ?_, congrArg message⟩
  by_cases hp : p ∈ unquoted
  · exact hunquoted p hp q hq h
  · exact absurd h (message_ne_of_mem hp hq)

/-- The message of such a problem is there as often as the problem is. -/
theorem count_map_message (hp : p ∈ unquoted) (problems : List Problem) :
    (problems.map message).count p.message = problems.count p := by
  rw [List.count, List.countP_map, List.count]
  refine List.countP_congr fun q _ => ?_
  simp [message_eq_iff hp]

theorem not_mem_ofMarks_of_isOfForm (hp : p.isOfForm = true) : p ∉ ofMarks := by
  have hmarks : ∀ p ∈ ofMarks, p.isOfForm = false := by decide
  intro hmem
  rw [hmarks p hmem] at hp
  cases hp

end Problem

namespace Documentation

/-- A message about marks is there as often as its problem is. -/
theorem count_message (hp : p ∈ Problem.ofMarks) (d : Documentation) :
    (d.problems.map Problem.message).count p.message = d.marks.problems.count p := by
  have hcount : d.marks.problems.count p = d.problems.count p :=
    List.count_filter (decide_eq_true hp)
  rw [hcount, Problem.count_map_message (List.mem_cons_of_mem _ hp)]

theorem MarkedBy.of_marks_eq (hd : d.MarkedBy tags) (h : d₁.marks = d.marks) :
    d₁.MarkedBy tags := by
  have hreleaseTag : d₁.releaseTag = d.releaseTag := congrArg Marks.releaseTag h
  have hflag (f : Flag) : d₁.hasFlag f = d.hasFlag f :=
    congrArg (fun m : Marks => m.flags.contains f) h
  have htells {p : Problem} (hp : p ∈ Problem.ofMarks) {condition : Prop}
      (htells : d.TellsOnceIf p condition) : d₁.TellsOnceIf p condition := by
    unfold TellsOnceIf at htells ⊢
    rw [count_message hp] at htells ⊢
    rwa [h]
  constructor
  · rw [hreleaseTag, hd.releaseTag]
  · rw [hflag, hreleaseTag, hd.preapproved]
  · exact fun f hf => by rw [hflag, hd.flags f hf]
  · exact htells (by decide) hd.manyReleaseTags
  · rw [hreleaseTag]
    exact htells (by decide) hd.preapprovedNotInternal
  · exact htells (by decide) hd.sealedAndVirtual
  · exact htells (by decide) hd.virtualAndOverride

/-! ## Reading a comment -/

theorem marks_report (hp : p ∉ Problem.ofMarks) (d : Documentation) :
    (d.report p).marks = d.marks := by
  simp [marks, report, List.filter_append, hp]

theorem marks_reportIf (condition : Bool) (hp : p ∉ Problem.ofMarks) (d : Documentation) :
    (d.reportIf condition p).marks = d.marks := by
  unfold reportIf
  split
  · exact marks_report hp d
  · rfl

theorem marks_checkSection (tag : BlockTag) (d : Documentation) :
    (d.checkSection tag).marks = d.marks :=
  marks_reportIf _ (by simp [Problem.ofMarks]) d

theorem marks_readRun {package : Option PackageName} {run : Run} {r : Block × Documentation}
    (hread : readRun package d run = .ok r) : r.2.marks = d.marks := by
  have hmarks {p : Problem} (hp : p.isOfRun = true) : p ∉ Problem.ofMarks := by
    intro hmem
    have hrun : ∀ p ∈ Problem.ofMarks, p.isOfRun = false := by decide
    rw [hrun p hmem] at hp
    cases hp
  exact readRun_keeps (fun hp d => marks_report (hmarks hp) d) (fun _ _ => rfl) (fun _ _ => rfl)
    hread

/-- What is put into a documentation after a run was read is no mark. -/
theorem marks_readRun_bind {run : Run} {d₀ : Documentation}
    {f : Block × Documentation → Documentation} (hf : ∀ r, (f r).marks = r.2.marks)
    (hd₀ : d₀.marks = d.marks)
    (hread : (do return f (← readRun around.package d₀ run)) =
      (.ok d₁ : Except MissingPackage Documentation)) : d₁.marks = d.marks := by
  obtain ⟨r, hrun, hok⟩ := exists_of_bind_eq_ok hread
  cases hok
  exact (hf r).trans ((marks_readRun hrun).trans hd₀)

theorem marks_readSection_outside {s : Section} (hs : s.isOutside = true)
    (hread : readSection around d s = .ok d₁) : d₁.marks = d.marks := by
  cases s with
  | unsupported token =>
    cases hread
    exact marks_report (Problem.not_mem_ofMarks_of_isOfForm (isOfForm_tagProblem token)) d
  | stray run =>
    refine marks_readRun_bind (fun r => ?_) rfl hread
    rfl
  | strayText chars =>
    cases hread
    exact marks_reportIf _ (by simp [Problem.ofMarks]) d
  | _ => cases hs

/-- Of a section with a block tag, the tag changes the marks, and what follows the tag does not. -/
theorem marks_readSection_ofOpening (opening : Text × List Token)
    (hread : readSection around d (.ofOpening opening) = .ok d₁) :
    d₁.marks = d.marks.read opening.1 := by
  obtain ⟨tag, tokens⟩ := opening
  simp only [Section.ofOpening, Section.next] at hread
  simp only [Marks.read]
  cases htag : BlockTag.ofName? tag with
  | none =>
    rw [htag] at hread
    exact marks_readSection_outside rfl hread
  | some t =>
    rw [htag] at hread
    dsimp only [Section.ofBlock] at hread
    cases t with
    | remarks | returns =>
      refine marks_readRun_bind (fun r => ?_) (marks_checkSection _ d) hread
      rfl
    | deprecated =>
      refine marks_readRun_bind (fun r => ?_) rfl hread
      exact marks_reportIf _ (by simp [Problem.ofMarks]) _
    | internalRemarks =>
      refine marks_readRun_bind (fun r => ?_) rfl hread
      rfl
    | param =>
      dsimp only at hread
      rcases Section.ofParam_cases tokens with ⟨p, hp, hofParam⟩ | ⟨name, lead, run, hp⟩ <;>
        rw [hp] at hread
      · cases hread
        have hform := Problem.not_mem_ofMarks_of_isOfForm (Problem.isOfForm_of_isOfParam hofParam)
        exact (marks_report hform _).trans (marks_checkSection _ d)
      · refine marks_readRun_bind (fun r => ?_) (marks_checkSection _ d) hread
        rfl
    | release | flag =>
      cases hread
      rfl

/-- A problem with marks is put behind those found before. -/
theorem marks_reportIf_of_mem (condition : Bool) (hp : p ∈ Problem.ofMarks) (d : Documentation) :
    (d.reportIf condition p).marks = d.marks.reportIf condition p := by
  unfold reportIf
  cases condition <;> simp [marks, Marks.reportIf, report, List.filter_append, hp]

/-- An item that is preapproved and not internal loses its flag. -/
theorem marks_misused (d : Documentation) :
    (if d.hasFlag .preapproved && d.releaseTag ≠ .internal then
      { d.report .preapprovedNotInternal with flags := d.flags.erase .preapproved }
    else d).marks = d.marks.correct := by
  have hreport := marks_reportIf_of_mem (p := .preapprovedNotInternal) true (by decide) d
  change (if d.marks.isMisused then _ else _ : Documentation).marks = _
  unfold Marks.correct
  split
  · next h =>
    rw [h]
    exact congrArg (fun m : Marks => { m with flags := d.flags.erase .preapproved }) hreport
  · next h =>
    rw [Bool.eq_false_of_not_eq_true h, Marks.reportIf, if_neg Bool.false_ne_true, List.append_nil]

/-- The checks at the end look at the marks alone. -/
theorem marks_finish (releaseTags : Nat) (d : Documentation) :
    (d.finish releaseTags).marks = d.marks.finish releaseTags := by
  have hstart : ((d.reportIf d.omitsDeprecation .deprecationNotRestated).reportIf
      (1 < releaseTags) .manyReleaseTags).marks =
        d.marks.reportIf (1 < releaseTags) .manyReleaseTags := by
    rw [marks_reportIf_of_mem _ (by decide), marks_reportIf _ (by decide)]
  have hboth (f g : Flag) {p : Problem} (hp : p ∈ Problem.ofMarks) (d : Documentation) :
      (d.reportIf (d.hasFlag f && d.hasFlag g) p).marks = d.marks.reportBoth f g p :=
    marks_reportIf_of_mem _ hp d
  refine (hboth .virtual .override (p := .virtualAndOverride) (by decide) _).trans ?_
  refine congrArg (Marks.reportBoth .virtual .override .virtualAndOverride) ?_
  refine (hboth .sealed .virtual (p := .sealedAndVirtual) (by decide) _).trans ?_
  refine congrArg (Marks.reportBoth .sealed .virtual .sealedAndVirtual) ?_
  exact (marks_misused _).trans (congrArg Marks.correct hstart)

end Documentation

/-! ## What block tags decide -/

theorem Token.blockTags_eq_map_openings (tokens : List Token) :
    blockTags tokens = (openings tokens).map (·.1) := by
  induction tokens with
  | nil => rfl
  | cons token tokens ih =>
    cases token with
    | block tag => exact congrArg (tag :: ·) ih
    | text | inline => exact ih

/-- A section states a stage if its block tag does. -/
theorem Section.isRelease_ofOpening (opening : Text × List Token) :
    (ofOpening opening).isRelease = (ReleaseTag.ofTag? opening.1).isSome := by
  obtain ⟨tag, tokens⟩ := opening
  simp only [ofOpening, next, ReleaseTag.ofTag?]
  cases BlockTag.ofName? tag with
  | none => rfl
  | some t =>
    cases t with
    | param =>
      dsimp only [ofBlock]
      rcases ofParam_cases tokens with ⟨p, hp, -⟩ | ⟨name, lead, run, hp⟩ <;> rw [hp] <;> rfl
    | _ => rfl

namespace Marks

variable {m : Marks}

theorem releaseTag_read (m : Marks) (tag : Text) :
    (m.read tag).releaseTag = (ReleaseTag.ofTag? tag).getD m.releaseTag := by
  unfold read ReleaseTag.ofTag?
  cases BlockTag.ofName? tag with
  | none => rfl
  | some t => cases t <;> rfl

theorem problems_read (m : Marks) (tag : Text) : (m.read tag).problems = m.problems := by
  unfold read
  split <;> rfl

theorem mem_flags_read (m : Marks) (tag : Text) (f : Flag) :
    f ∈ (m.read tag).flags ↔ f ∈ m.flags ∨ tag = f.tagName.toList := by
  have hmem : BlockTag.flag f ∈ BlockTag.all := by cases f <;> decide
  have hname : BlockTag.ofName? tag = some (.flag f) ↔ tag = f.tagName.toList :=
    BlockTag.ofName?_eq_some_iff hmem
  rw [← hname, read]
  cases BlockTag.ofName? tag with
  | none => simp
  | some t =>
    cases t with
    | flag g => simp [or_comm, eq_comm]
    | _ => simp

theorem nodup_flags_read (h : m.flags.Nodup) (tag : Text) : (m.read tag).flags.Nodup := by
  unfold read
  split
  · exact h
  · exact h.insert
  · exact h

theorem releaseTag_foldl (tags : List Text) (m : Marks) : (tags.foldl read m).releaseTag =
    (tags.filterMap ReleaseTag.ofTag?).getLast?.getD m.releaseTag := by
  rw [← foldl_getD]
  exact (List.foldl_hom Marks.releaseTag fun m tag => (releaseTag_read m tag).symm).symm

theorem problems_foldl (tags : List Text) (m : Marks) :
    (tags.foldl read m).problems = m.problems := by
  induction tags generalizing m with
  | nil => rfl
  | cons tag tags ih => exact (ih _).trans (problems_read m tag)

theorem mem_flags_foldl (tags : List Text) (m : Marks) (f : Flag) :
    f ∈ (tags.foldl read m).flags ↔ f ∈ m.flags ∨ f.tagName.toList ∈ tags := by
  induction tags generalizing m with
  | nil => simp
  | cons tag tags ih =>
    rw [List.foldl_cons, ih, mem_flags_read, List.mem_cons, or_assoc, eq_comm (a := tag)]

theorem nodup_flags_foldl (tags : List Text) (h : m.flags.Nodup) :
    (tags.foldl read m).flags.Nodup := by
  induction tags generalizing m with
  | nil => exact h
  | cons tag tags ih => exact ih (nodup_flags_read h tag)

theorem isMisused_iff : m.isMisused = true ↔ .preapproved ∈ m.flags ∧ m.releaseTag ≠ .internal := by
  simp [isMisused]

/-- Only a flag that may not be raised is taken back. -/
theorem mem_flags_finish (h : m.flags.Nodup) (releaseTags : Nat) (f : Flag) :
    f ∈ (m.finish releaseTags).flags ↔
      f ∈ m.flags ∧ (f = .preapproved → m.releaseTag = .internal) := by
  change f ∈ (if m.isMisused then m.flags.erase .preapproved else m.flags) ↔ _
  split
  · next hmisused =>
    obtain ⟨-, hstage⟩ := isMisused_iff.1 hmisused
    rw [h.mem_erase_iff]
    grind
  · next hmisused =>
    have := mt isMisused_iff.2 hmisused
    grind

/-- How often the checks at the end find each problem. -/
theorem count_finish (h : m.problems = []) (releaseTags : Nat) :
    let times (p : Problem) := (m.finish releaseTags).problems.count p
    let raised (f : Flag) := (m.finish releaseTags).flags.contains f
    times .manyReleaseTags = (decide (1 < releaseTags)).toNat ∧
      times .preapprovedNotInternal = m.isMisused.toNat ∧
      times .sealedAndVirtual = (raised .sealed && raised .virtual).toNat ∧
      times .virtualAndOverride = (raised .virtual && raised .override).toNat := by
  have hcount (condition : Bool) (p q : Problem) (m : Marks) :
      (m.reportIf condition p).problems.count q =
        m.problems.count q + if p = q then condition.toNat else 0 := by
    rw [reportIf, List.count_append]
    cases condition <;> simp [List.count_singleton]
  have hcorrect (p : Problem) (m : Marks) : m.correct.problems.count p =
      m.problems.count p + if .preapprovedNotInternal = p then m.isMisused.toNat else 0 :=
    hcount _ _ _ m
  refine ⟨?_, ?_, ?_, ?_⟩ <;>
    simp only [finish, reportBoth, hcount, hcorrect, h, List.count_nil, reduceCtorEq, if_false,
      if_true, Nat.zero_add, Nat.add_zero] <;>
    rfl

end Marks

namespace Documentation

theorem TellsOnceIf.of_count {condition : Prop} {b : Bool} (hp : p ∈ Problem.ofMarks)
    (hcount : d.marks.problems.count p = b.toNat) (hb : b = true ↔ condition) :
    d.TellsOnceIf p condition := by
  unfold TellsOnceIf
  rw [count_message hp, hcount]
  constructor
  · intro h
    rw [hb.2 h]
    rfl
  · intro h
    rw [Bool.eq_false_of_not_eq_true (mt hb.1 h)]
    rfl

/-- The marks of a comment are those that its block tags give. -/
theorem marks_of_parse {itemName : Option Text} {body : Text}
    (hparse : parse around itemName body = .ok d) :
    d.marks = .ofTags (Token.blockTags (Token.tokenize body)) := by
  obtain ⟨r, d₁, hsummary, hmarks, rfl⟩ := exists_of_parse marks
    (fun m opening => m.read opening.1)
    (fun opening _ _ hread => marks_readSection_ofOpening opening hread)
    (fun s _ _ hs hread => marks_readSection_outside hs hread) hparse
  have hbraces : (List.replicate (Token.badBraces body) Problem.braceWithoutTag).filter
      (· ∈ Problem.ofMarks) = [] :=
    List.filter_eq_nil_iff.2 fun p hp => by
      rw [List.eq_of_mem_replicate hp]
      decide
  have hstart : marks { r.2 with content.summary := Block.normalize r.1 } = {} := by
    refine (marks_readRun hsummary).trans ?_
    exact congrArg (fun problems => ({ problems } : Marks)) hbraces
  rw [marks_finish, hmarks, hstart, Token.blockTags_eq_map_openings, Marks.ofTags, List.foldl_map,
    List.filterMap_map, List.length_filterMap_eq_countP]
  simp only [Section.isRelease_ofOpening]
  rfl

/-- The marks that block tags give are as the tags decide. -/
theorem markedBy_of_marks (h : d.marks = .ofTags tags) : d.MarkedBy tags := by
  let m := tags.foldl Marks.read {}
  have hreleaseTag : d.releaseTag = (tags.filterMap ReleaseTag.ofTag?).getLast?.getD .unstated :=
    (congrArg Marks.releaseTag h).trans (Marks.releaseTag_foldl tags {})
  have hstage : d.releaseTag = m.releaseTag := congrArg Marks.releaseTag h
  have hread (f : Flag) : f ∈ m.flags ↔ f.tagName.toList ∈ tags := by
    simpa using Marks.mem_flags_foldl tags {} f
  have hflag (f : Flag) : d.hasFlag f = true ↔
      f.tagName.toList ∈ tags ∧ (f = .preapproved → d.releaseTag = .internal) := by
    have hmem := Marks.mem_flags_finish (Marks.nodup_flags_foldl (m := {}) tags List.nodup_nil)
      (tags.filterMap ReleaseTag.ofTag?).length f
    rw [← hread, hstage, ← hmem, hasFlag, List.contains_iff_mem]
    exact iff_of_eq (congrArg (f ∈ ·) (congrArg Marks.flags h))
  have hother {f : Flag} (hf : f ≠ .preapproved) : d.hasFlag f = true ↔ f.tagName.toList ∈ tags := by
    simp [hflag, hf]
  have hcounts := Marks.count_finish (Marks.problems_foldl tags {})
    (tags.filterMap ReleaseTag.ofTag?).length
  rw [Marks.ofTags] at h
  rw [← h] at hcounts
  obtain ⟨hmany, hmisused, hsealed, hvirtual⟩ := hcounts
  have hboth {f g : Flag} (hf : f ≠ .preapproved) (hg : g ≠ .preapproved) :
      (d.hasFlag f && d.hasFlag g) = true ↔ f.tagName.toList ∈ tags ∧ g.tagName.toList ∈ tags := by
    rw [Bool.and_eq_true, hother hf, hother hg]
  exact {
    releaseTag := hreleaseTag
    preapproved := by simp [hflag]
    flags := fun f hf => hother hf
    manyReleaseTags := .of_count (by decide) hmany decide_eq_true_iff
    preapprovedNotInternal := by
      refine .of_count (by decide) hmisused ?_
      rw [Marks.isMisused_iff, hstage, hread]
    sealedAndVirtual := .of_count (by decide) hsealed (hboth (by decide) (by decide))
    virtualAndOverride := .of_count (by decide) hvirtual (hboth (by decide) (by decide)) }

/-! ## Later on -/

/-- No change to a documentation touches its marks. -/
theorem Edit.marks (h : Edit d d₁) : d₁.marks = d.marks := by
  cases h with
  | report hp =>
    refine marks_report (fun hmem => ?_) d
    have hmarks : ∀ p ∈ Problem.ofMarks, p.isOfCompletion = false := by decide
    rw [hmarks _ hmem] at hp
    cases hp
  | dropLink | dropInheritDoc | settle | pointTo | inherit | withState => rfl

/-- In a known package every comment is read, and the stage of support, the flags and the messages
about them are as its block tags decide, then and whatever is done with the package later on, each
operation ended or interrupted. -/
theorem markedBy_of_parse (package : PackageName) (config : Config) (itemName : Option Text)
    (body : Text) : ∃ d, parse { package := some package, config } itemName body = .ok d ∧
      d.MarkedBy (Token.blockTags (Token.tokenize body)) ∧
      ∀ (w : Workspace) (id : DocId), w.document id = d → ∀ operations : List Operation,
        ((w.after operations).document id).MarkedBy (Token.blockTags (Token.tokenize body)) := by
  have hknown : ({ package := some package, config } : Surroundings).package = some package := rfl
  obtain ⟨d, hparse, -⟩ := exists_parse hknown itemName body
  have hmarked := markedBy_of_marks (marks_of_parse hparse)
  refine ⟨d, hparse, hmarked, fun w id hd operations => ?_⟩
  have hid : id < w.documents.size := Workspace.lt_size_of_state_ne (by
    rw [hd, (wellRead_of_parse hparse).unvisited]
    decide)
  have hedits := (w.edits_after operations).documents id hid
  rw [hd] at hedits
  exact hmarked.of_marks_eq (hedits.keeps Edit.marks)

end Documentation

end

end ApiDoc
