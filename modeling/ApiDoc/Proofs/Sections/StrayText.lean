import Mathlib.Data.List.Infix
import ApiDoc.Proofs.Sections.Complaints
import ApiDoc.Proofs.Workspace.Reading

/-!
# Text outside every section

Whether a text is reported depends on where it is read, and that on every token before it. A block
tag that opens a section leads into its run, and a tag that opens none leads outside, where text is
reported. But a link or a request to inherit that is met outside is read as the start of a run, and
so is all that follows up to the next tag of another kind: text in such a run is neither shown nor
reported. `Place.after` says where a token is read, without the sections; the sections agree
(`Place.outsideTexts_run`). Main statement: `Documentation.strayTexts_of_parse`, which says exactly
which texts are reported, and which of those behind a stage of support or a flag are not.

So text can get lost, as that behind a link behind a flag does
(`Documentation.textBehindLink_unreported`).
-/

namespace ApiDoc

namespace Token

/-- The text that a token is, if it is one. -/
def text? : Token → Option Text
  | text chars => some chars
  | _ => none

/-- Whether a token is a block tag. -/
def isBlock : Token → Bool
  | block _ => true
  | _ => false

/-- Whether a token is a link or a request to inherit, which start a run wherever they stand. -/
def opensRun : Token → Bool
  | inline tag _ => (InlineTag.ofName? tag).isSome
  | _ => false

/-- Whether some tokens end within a run that one of them starts: a link or a request to inherit is
among them, and no tag of another kind follows it. -/
def endInRun (tokens : List Token) : Bool :=
  (tokens.reverse.takeWhile fun t => (Piece.ofToken? t).isSome).any opensRun

end Token

/-- Whether a block tag is a mark of its item, that is, a stage of support or a flag; a mark opens no
section. -/
def BlockTag.isMark : BlockTag → Bool
  | release _ | flag _ => true
  | _ => false

/-- Whether a text behind a parameter tag gives the name and the start of the description. -/
def Text.describesParam (chars : Text) : Bool :=
  match Text.splitFirst? '-' chars with
  | none => false
  | some (before, lead) => !Text.allBlank before && !Text.allBlank lead

/-- Where a token is read. -/
inductive Place where
  /-- Within a run. -/
  | run
  /-- Outside every section. -/
  | outside
  /-- Right behind a parameter tag. -/
  | param
  deriving DecidableEq, Repr

namespace Place

/-- The place behind a block tag. -/
def ofBlock : BlockTag → Place
  | .remarks | .returns | .deprecated | .internalRemarks => run
  | .param => param
  | .release _ | .flag _ => outside

/-- The place behind a token, from the place where it is read. -/
def next (place : Place) : Token → Place
  | .text chars =>
    match place with
    | run => run
    | outside => outside
    | param => if chars.describesParam then run else outside
  | .block tag =>
    match BlockTag.ofName? tag with
    | some tag => ofBlock tag
    | none => outside
  | .inline tag _ => if (InlineTag.ofName? tag).isSome then run else outside

/-- The place behind some tokens of a comment, which starts with a run. -/
def after (tokens : List Token) : Place :=
  tokens.foldl next run

/-- The texts that are read outside every section, from a place on. -/
def outsideTexts (place : Place) (tokens : List Token) : List Text :=
  (tokens.inits.zip tokens).filterMap fun (before, token) =>
    if before.foldl next place = outside then token.text? else none

end Place

/-- What is reported of the texts that are read outside every section, from a place on. -/
def Place.reports (config : Config) (place : Place) (tokens : List Token) : List Problem :=
  (place.outsideTexts tokens).filterMap (Text.strayProblem? config)

/-- The text that a section reports. -/
def Section.strayText? : Section → Option Text
  | strayText chars => some chars
  | _ => none

/-- Whether a problem is text outside every section. -/
def Problem.isStrayText : Problem → Bool
  | strayText _ => true
  | _ => false

section
variable {place : Place} {token : Token} {tokens between : List Token} {package : PackageName}
  {around : Surroundings}

/-! ## Places and sections -/

theorem Piece.isSome_ofToken?_inline (tag content : Text) :
    (Piece.ofToken? (.inline tag content)).isSome = (InlineTag.ofName? tag).isSome := by
  simp only [Piece.ofToken?]
  split <;> simp [*]

namespace Place

theorem outsideTexts_cons : outsideTexts place (token :: tokens) =
    (if place = outside then token.text?.toList else []) ++
      outsideTexts (place.next token) tokens := by
  unfold outsideTexts
  rw [List.inits_cons, List.zip_cons_cons, List.zip_map_left, List.filterMap_cons,
    List.filterMap_map]
  cases place <;> cases token <;> rfl

theorem outsideTexts_append (tokens rest : List Token) : outsideTexts place (tokens ++ rest) =
    outsideTexts place tokens ++ outsideTexts (tokens.foldl next place) rest := by
  induction tokens generalizing place with
  | nil => rfl
  | cons token tokens ih =>
    rw [List.cons_append, outsideTexts_cons, outsideTexts_cons, ih, List.append_assoc]
    rfl

/-- From a token on that no text is, the place before does not matter. -/
theorem outsideTexts_eq_of_text? (htext : token.text? = none) :
    outsideTexts place (token :: tokens) = outsideTexts outside (token :: tokens) := by
  rw [outsideTexts_cons, outsideTexts_cons, htext]
  cases token with
  | text chars => cases htext
  | block tag => simp [next]
  | inline tag content => simp [next]

/-- In a run no text is read outside. -/
theorem outsideTexts_take (tokens : List Token) :
    outsideTexts run tokens = outsideTexts outside (Run.take tokens).2 := by
  induction tokens with
  | nil => rfl
  | cons token tokens ih =>
    rw [Run.take]
    cases hpiece : Piece.ofToken? token with
    | some piece =>
      rw [outsideTexts_cons]
      have hnext : run.next token = run := by
        cases token with
        | text chars => rfl
        | block tag => cases hpiece
        | inline tag content =>
          have htag := Piece.isSome_ofToken?_inline tag content
          rw [hpiece] at htag
          exact if_pos htag.symm
      rw [hnext]
      exact ih
    | none =>
      refine outsideTexts_eq_of_text? ?_
      cases token with
      | text chars => cases hpiece
      | block | inline => rfl

theorem outsideTexts_ofParam (tokens : List Token) :
    outsideTexts param tokens = outsideTexts outside (Section.ofParam tokens).2 := by
  cases tokens with
  | nil => rfl
  | cons token tokens =>
    cases token with
    | text chars =>
      rw [outsideTexts_cons, Section.ofParam]
      simp only [reduceCtorEq, if_false, List.nil_append, next, Text.describesParam]
      rcases Option.eq_none_or_eq_some (Text.splitFirst? '-' chars) with
        hnone | ⟨⟨before, lead⟩, hsome⟩
      · simp only [hnone]
        rfl
      · simp only [hsome, Text.isEmpty_strip]
        cases Text.allBlank before <;> cases Text.allBlank lead <;>
          first | exact outsideTexts_take tokens | rfl
    | block | inline => exact outsideTexts_eq_of_text? rfl

theorem strayText?_ofParam (tokens : List Token) :
    (Section.ofParam tokens).1.strayText? = none := by
  rcases Section.ofParam_cases tokens with ⟨p, hp, -⟩ | ⟨name, lead, run, hrun⟩
  · rw [hp]
    rfl
  · rw [hrun]
    rfl

/-- The texts that are read outside are those of the sections of such texts. -/
theorem outsideTexts_outside (tokens : List Token) :
    outsideTexts outside tokens = (Section.ofTokens tokens).filterMap Section.strayText? := by
  induction tokens using Section.ofTokens.induct with
  | case1 =>
    rw [Section.ofTokens]
    rfl
  | case2 token tokens ih =>
    rw [Section.ofTokens, outsideTexts_cons, if_pos rfl, List.filterMap_cons, ← ih]
    cases token with
    | text chars => rfl
    | block tag =>
      simp only [Section.next, next]
      cases BlockTag.ofName? tag with
      | none => rfl
      | some tag =>
        cases tag with
        | remarks | returns | deprecated | internalRemarks => exact outsideTexts_take tokens
        | param =>
          have hparam : Section.ofBlock .param tokens = Section.ofParam tokens := rfl
          simp only [hparam, strayText?_ofParam]
          exact outsideTexts_ofParam tokens
        | release | flag => rfl
    | inline tag content =>
      simp only [Section.next, Piece.ofToken?, next]
      cases InlineTag.ofName? tag with
      | none => rfl
      | some tag => cases tag <;> exact outsideTexts_take tokens

/-- The texts of a comment that are read outside are those of its outline. -/
theorem outsideTexts_run (tokens : List Token) : outsideTexts run tokens =
    (Outline.ofTokens tokens).sections.filterMap Section.strayText? := by
  rw [outsideTexts_take, outsideTexts_outside]
  rfl

/-! ## Behind a mark -/

theorem after_append (before tokens : List Token) :
    after (before ++ tokens) = tokens.foldl next (after before) :=
  List.foldl_append

end Place

namespace Token

/-- The last token continues the run in which the tokens before it end, or starts one. -/
theorem endInRun_concat : endInRun (tokens ++ [token]) =
    ((Piece.ofToken? token).isSome && (token.opensRun || endInRun tokens)) := by
  rw [endInRun, List.reverse_append]
  change ((token :: tokens.reverse).takeWhile _).any _ = _
  cases hpiece : (Piece.ofToken? token).isSome with
  | false =>
    rw [List.takeWhile_cons_of_neg (by rw [hpiece]; decide)]
    rfl
  | true =>
    rw [List.takeWhile_cons_of_pos (by exact hpiece)]
    rfl

end Token

namespace Place

/-- From outside every section on, text is read outside unless a link or a request to inherit
starts a run. -/
theorem foldl_next_outside (hblocks : ∀ t ∈ between, t.isBlock = false) :
    between.foldl next outside = if Token.endInRun between then run else outside := by
  induction between using List.reverseRecOn with
  | nil => rfl
  | append_singleton between token ih =>
    rw [List.foldl_append, Token.endInRun_concat,
      ih fun t ht => hblocks t (List.mem_append_left _ ht)]
    have hblock := hblocks token (by simp)
    cases token with
    | text chars => cases Token.endInRun between <;> rfl
    | block tag => cases hblock
    | inline tag content =>
      rw [Piece.isSome_ofToken?_inline]
      simp only [List.foldl_cons, List.foldl_nil, next, Token.opensRun]
      by_cases htag : (InlineTag.ofName? tag).isSome = true <;> simp [htag]

theorem after_mark (before : List Token) {tag : Text} {mark : BlockTag}
    (htag : BlockTag.ofName? tag = some mark) (hmark : mark.isMark = true)
    (hblocks : ∀ t ∈ between, t.isBlock = false) :
    after (before ++ .block tag :: between) = if Token.endInRun between then run else outside := by
  have hplace : (after before).next (.block tag) = outside := by
    simp only [next, htag]
    cases mark <;> first | rfl | cases hmark
  rw [after_append, List.foldl_cons, hplace]
  exact foldl_next_outside hblocks

/-! ## What is reported -/

theorem reports_append (config : Config) (tokens rest : List Token) :
    reports config place (tokens ++ rest) =
      reports config place tokens ++ reports config (tokens.foldl next place) rest := by
  rw [reports, outsideTexts_append, List.filterMap_append]
  rfl

theorem reports_outside_text (config : Config) (chars : Text) (rest : List Token) :
    reports config outside (.text chars :: rest) =
      (Text.strayProblem? config chars).toList ++ reports config outside rest := by
  rw [reports, outsideTexts_cons, if_pos rfl, List.filterMap_append]
  cases hproblem : Text.strayProblem? config chars <;>
    simp [Token.text?, hproblem, next, reports]

theorem reports_run_text (config : Config) (chars : Text) (rest : List Token) :
    reports config run (.text chars :: rest) = reports config run rest := by
  rw [reports, outsideTexts_cons]
  rfl

end Place

namespace Documentation

theorem filter_isStrayText_formProblems (d : Documentation) :
    d.formProblems.filter Problem.isStrayText = d.problems.filter Problem.isStrayText := by
  rw [formProblems, List.filter_filter]
  refine List.filter_congr fun p _ => ?_
  cases p <;> rfl

/-- The complaint of a section is about stray text if the section is one. -/
theorem filter_isStrayText_complaint {s : Section} (config : Config)
    (hs : ∀ p, s = .badParam p → p.isOfParam = true) :
    (s.complaint? config).filter Problem.isStrayText =
      s.strayText?.bind (Text.strayProblem? config) := by
  cases s with
  | badParam p =>
    have hp := hs p rfl
    cases p <;> first | rfl | cases hp
  | unsupported token =>
    simp only [Section.complaint?, tagProblem]
    split <;> rfl
  | strayText chars =>
    simp only [Section.complaint?, Section.strayText?, Text.strayProblem?, Option.bind_some]
    cases Text.allBlank chars <;> rfl
  | _ => rfl

/-- What is reported of stray text is reported of the texts outside every section, in order. -/
theorem filter_isStrayText_of_parse {d : Documentation} {itemName : Option Text} {body : Text}
    (hparse : parse around itemName body = .ok d) : d.problems.filter Problem.isStrayText =
      Place.reports around.config .run (Token.tokenize body) := by
  have hbraces (n : Nat) :
      (List.replicate n Problem.braceWithoutTag).filter Problem.isStrayText = [] :=
    List.filter_eq_nil_iff.2 fun p hp => List.eq_of_mem_replicate hp ▸ Bool.false_ne_true
  rw [← filter_isStrayText_formProblems, formProblems_of_parse hparse, List.filter_append, hbraces,
    List.nil_append, List.filter_filterMap, Place.reports, Place.outsideTexts_run,
    List.filterMap_filterMap]
  refine List.filterMap_congr fun s hs => filter_isStrayText_complaint _ ?_
  rintro p rfl
  exact Section.isOfParam_of_mem hs

/-- In a known package every comment is read, and exactly the texts outside every section that are
not blank are reported, in order. A text behind a mark is among them unless a link or a request to
inherit stands between that no tag of another kind follows; then it is in the run which that link or
request starts. -/
theorem strayTexts_of_parse (hpackage : around.package = some package) (itemName : Option Text)
    (body : Text) : ∃ d, parse around itemName body = .ok d ∧
      d.problems.filter Problem.isStrayText =
        Place.reports around.config .run (Token.tokenize body) ∧
      ∀ before tag mark between chars rest,
        Token.tokenize body = before ++ .block tag :: between ++ .text chars :: rest →
        BlockTag.ofName? tag = some mark → mark.isMark = true →
        (∀ t ∈ between, t.isBlock = false) →
        d.problems.filter Problem.isStrayText =
          Place.reports around.config .run (before ++ .block tag :: between) ++
            if Token.endInRun between then Place.reports around.config .run rest
            else (Text.strayProblem? around.config chars).toList ++
              Place.reports around.config .outside rest := by
  obtain ⟨d, hparse, -⟩ := exists_parse hpackage itemName body
  have hreported := filter_isStrayText_of_parse hparse
  refine ⟨d, hparse, hreported, fun before tag mark between chars rest hsplit htag hmark hblocks =>
    ?_⟩
  have hplace := Place.after_mark before htag hmark hblocks
  rw [hreported, hsplit, Place.reports_append]
  change _ ++ Place.reports around.config (Place.after _) _ = _
  rw [hplace]
  cases Token.endInRun between with
  | false => exact congrArg (_ ++ ·) (Place.reports_outside_text _ _ _)
  | true => exact congrArg (_ ++ ·) (Place.reports_run_text _ _ _)

/-- Text behind a tag that may not be used so, behind a mark, is reported. -/
theorem textBehindMark_reported :
    ∃ d, parse { package := some { scope := [], name := "pkg".toList }, config := {} } none
        "@public \x7b@foo\x7d stray".toList = .ok d ∧
      d.problems.filter Problem.isStrayText = [.strayText "stray".toList] := by
  have hpackage : Surroundings.package
      { package := some { scope := [], name := "pkg".toList }, config := {} } =
        some { scope := [], name := "pkg".toList } := rfl
  obtain ⟨d, hparse, -, hmark⟩ :=
    strayTexts_of_parse hpackage none "@public \x7b@foo\x7d stray".toList
  have hproblems := hmark [] "@public".toList (.release .released)
    [.text [' '], .inline "@foo".toList []] " stray".toList [] (by cbv) (by decide) rfl (by decide)
  exact ⟨d, hparse, hproblems.trans (by decide)⟩

/-- Text behind a link, behind a mark, is lost: it is neither shown nor reported. -/
theorem textBehindLink_unreported :
    Token.tokenize "@public \x7b@link http://x.com\x7d stray text".toList =
        [.block "@public".toList, .text [' '], .inline "@link".toList "http://x.com".toList,
          .text " stray text".toList] ∧
      parse { package := some { scope := [], name := "pkg".toList }, config := {} } none
        "@public \x7b@link http://x.com\x7d stray text".toList =
          .ok { releaseTag := .released } :=
  ⟨by cbv, by cbv⟩

end Documentation

end

end ApiDoc
