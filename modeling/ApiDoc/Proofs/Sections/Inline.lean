import ApiDoc.Proofs.Inheritance.Exclusive
import ApiDoc.Proofs.Sections.Openings

/-!
# Inline tags and the runs they stand in

Wherever an inline tag stands in a comment, it stands in the run of exactly one section: sections
take in, or leave out, text only, and a malformed one leaves the tags behind it to the next. So the
runs of a comment, put together, have the links and the requests to inherit of its tokens, each
once and in order (`Outline.contents_ofTokens`).

What is done with a run does not depend on the section. Apart from problems that are reported
before it, a section reads its run and puts what comes of it in some place, and the queues are those
of the run (`Documentation.exists_readSection_eq`). So what holds of comments with one long run
holds of all comments.
-/

namespace ApiDoc

/-- The content of a piece that is an inline tag of a kind. -/
def Piece.content? (tag : InlineTag) : Piece → Option Text
  | text _ => none
  | link content => if tag = .link then some content else none
  | inheritDoc content => if tag = .inheritDoc then some content else none

/-- The contents of the inline tags of a kind in a run, in order. -/
def Run.contents (tag : InlineTag) (run : Run) : List Text :=
  run.filterMap (Piece.content? tag)

namespace Token

/-- The content of a token that is an inline tag of a kind. -/
def content? (tag : InlineTag) : Token → Option Text
  | inline name content => if name = tag.name.toList then some content else none
  | text _ | block _ => none

/-- The contents of the inline tags of a kind, in the order of the comment. -/
def contents (tag : InlineTag) (tokens : List Token) : List Text :=
  tokens.filterMap (content? tag)

end Token

/-- The runs of a comment, put together. -/
def Outline.run (outline : Outline) : Run :=
  outline.summary ++ outline.sections.flatMap Section.run

section
variable {tag : InlineTag} {tokens : List Token} {token : Token}

/-! ## Tags in tokens and in runs -/

/-- A piece has the content of the token that it is. -/
theorem Token.content?_eq (tag : InlineTag) (token : Token) :
    content? tag token = (Piece.ofToken? token).bind (Piece.content? tag) := by
  cases token with
  | text chars | block name => rfl
  | inline name content =>
    simp only [content?, Piece.ofToken?, ← InlineTag.ofName?_eq_some_iff]
    cases InlineTag.ofName? name with
    | none => rfl
    | some kind => cases kind <;> cases tag <;> rfl

theorem Token.contents_cons (tag : InlineTag) (token : Token) (tokens : List Token) :
    contents tag (token :: tokens) = (content? tag token).toList ++ contents tag tokens := by
  rw [contents, List.filterMap_cons]
  cases content? tag token <;> rfl

namespace Run

theorem contents_cons (tag : InlineTag) (piece : Piece) (run : Run) :
    contents tag (piece :: run) = (piece.content? tag).toList ++ contents tag run := by
  rw [contents, List.filterMap_cons]
  cases piece.content? tag <;> rfl

theorem contents_append (run run₁ : Run) :
    contents tag (run ++ run₁) = contents tag run ++ contents tag run₁ :=
  List.filterMap_append

/-- The tags at the start of some tokens are those of the run that starts there. -/
theorem contents_take (tag : InlineTag) (tokens : List Token) :
    contents tag (take tokens).1 ++ Token.contents tag (take tokens).2 =
      Token.contents tag tokens := by
  induction tokens with
  | nil => rfl
  | cons token tokens ih =>
    rw [take]
    split
    · next piece hpiece =>
      change contents tag (piece :: (take tokens).1) ++ Token.contents tag (take tokens).2 = _
      rw [contents_cons, List.append_assoc, ih, Token.contents_cons, Token.content?_eq, hpiece]
      rfl
    · rfl

end Run

namespace Section

theorem contents_ofParam (tag : InlineTag) (tokens : List Token) :
    Run.contents tag (ofParam tokens).1.run ++ Token.contents tag (ofParam tokens).2 =
      Token.contents tag tokens := by
  unfold ofParam
  split
  · rfl
  · split
    · rfl
    · dsimp only
      split
      · rfl
      · split
        · rfl
        · exact Run.contents_take tag _
  · rfl

/-- The tags that a section takes in are those of its run. -/
theorem contents_next (tag : InlineTag) (token : Token) (tokens : List Token) :
    Run.contents tag (next token tokens).1.run ++ Token.contents tag (next token tokens).2 =
      Token.contents tag (token :: tokens) := by
  have htake := Run.contents_take tag tokens
  unfold next
  split
  · rfl
  · split
    · next kind _ =>
      cases kind with
      | remarks | returns | deprecated | internalRemarks => exact htake
      | param => exact contents_ofParam tag tokens
      | release | flag => rfl
    · rfl
  · rw [Token.contents_cons, Token.content?_eq]
    split
    · next piece hpiece =>
      change Run.contents tag (piece :: (Run.take tokens).1) ++
        Token.contents tag (Run.take tokens).2 = _
      rw [Run.contents_cons, List.append_assoc, htake, hpiece]
      rfl
    · next hnone =>
      rw [hnone]
      rfl

theorem contents_ofTokens (tag : InlineTag) (tokens : List Token) :
    Run.contents tag ((ofTokens tokens).flatMap run) = Token.contents tag tokens := by
  induction tokens using ofTokens.induct with
  | case1 =>
    rw [ofTokens]
    rfl
  | case2 token tokens ih =>
    rw [ofTokens, List.flatMap_cons, Run.contents_append, ih, contents_next]

end Section

/-- The runs of a comment have the inline tags of its tokens, each once and in order. -/
theorem Outline.contents_ofTokens (tag : InlineTag) (tokens : List Token) :
    (ofTokens tokens).run.contents tag = Token.contents tag tokens := by
  rw [run, Run.contents_append]
  exact (congrArg (_ ++ ·) (Section.contents_ofTokens tag _)).trans (Run.contents_take tag tokens)

/-! ## Sections and their runs -/

namespace Documentation

/-- A way to put what comes of a run into the documentation that leaves the queues as they are, and
shows no links but those that were shown and those of the run. -/
structure Places (put : Block × Documentation → Documentation) : Prop where
  pendingLinks : ∀ r, (put r).pendingLinks = r.2.pendingLinks
  pendingInheritDocs : ∀ r, (put r).pendingInheritDocs = r.2.pendingInheritDocs
  isInherited : ∀ r, (put r).isInherited = r.2.isInherited
  shown : ∀ P r, r.2.content.AllLinks P → r.1.AllLinks P → (put r).content.AllLinks P

/-- A report changes the problems, and whether there are any. -/
theorem exists_reportIf_eq (condition : Bool) (p : Problem) (d : Documentation) :
    ∃ problems hasFailed, d.reportIf condition p = { d with problems, hasFailed } := by
  unfold reportIf
  split
  · exact ⟨_, _, rfl⟩
  · exact ⟨_, _, rfl⟩

/-- A report after something was put in its place. -/
theorem Places.reportIf {put : Block × Documentation → Documentation} (h : Places put)
    (condition : Documentation → Bool) (p : Problem) :
    Places fun r => (put r).reportIf (condition (put r)) p := by
  have hreport (r : Block × Documentation) := exists_reportIf_eq (condition (put r)) p (put r)
  refine ⟨fun r => ?_, fun r => ?_, fun r => ?_, fun P r => ?_⟩ <;>
    obtain ⟨problems, hasFailed, heq⟩ := hreport r <;> rw [heq]
  · exact h.pendingLinks r
  · exact h.pendingInheritDocs r
  · exact h.isInherited r
  · exact h.shown P r

theorem Places.content (put : Content → Block → Content)
    (hput : ∀ P c b, Content.AllLinks P c → Block.AllLinks P b → (put c b).AllLinks P) :
    Places fun r => { r.2 with content := put r.2.content r.1 } :=
  ⟨fun _ => rfl, fun _ => rfl, fun _ => rfl, fun P r => hput P r.2.content r.1⟩

/-- A section reads its run, after problems that were reported, and puts in some place what comes
of it. -/
theorem exists_readSection_eq (around : Surroundings) (d : Documentation) (s : Section) :
    ∃ problems hasFailed put, Places put ∧ readSection around d s =
      (readRun around.package { d with problems, hasFailed } s.run).map put := by
  have hrun {d₀ : Documentation} {put : Block × Documentation → Documentation} (run : Run)
      (hd : ∃ problems hasFailed, d₀ = { d with problems, hasFailed }) (hput : Places put) :
      ∃ problems hasFailed put₁, Places put₁ ∧
        (do return put (← readRun around.package d₀ run)) =
          (readRun around.package { d with problems, hasFailed } run).map put₁ := by
    obtain ⟨problems, hasFailed, rfl⟩ := hd
    refine ⟨problems, hasFailed, put, hput, ?_⟩
    cases readRun around.package { d with problems, hasFailed } run <;> rfl
  have hself : ∃ problems hasFailed, d = { d with problems, hasFailed } :=
    ⟨d.problems, d.hasFailed, rfl⟩
  have hcheck (tag : BlockTag) :
      ∃ problems hasFailed, d.checkSection tag = { d with problems, hasFailed } :=
    exists_reportIf_eq d.isInherited (.sectionNotAllowed tag) d
  have hplain : Places Prod.snd :=
    ⟨fun _ => rfl, fun _ => rfl, fun _ => rfl, fun _ _ hc _ => hc⟩
  cases s with
  | remarks run =>
    exact hrun run (hcheck .remarks) (.content (fun c b => { c with remarks := Block.normalize b })
      fun _ _ _ hc hb => { hc with remarks := hb.normalize })
  | returns run =>
    exact hrun run (hcheck .returns)
      (.content (fun c b => { c with returnsMessage := Block.normalize b })
        fun _ _ _ hc hb => { hc with returnsMessage := hb.normalize })
  | param name lead run =>
    refine hrun run (hcheck .param) (.content (fun c b => { c with
      parameters := OrderedMap.put name (Block.normalize (Prose.parse lead ++ b)) c.parameters })
      fun _ _ _ hc hb => { hc with parameters := fun b hmem => ?_ })
    rcases OrderedMap.mem_values_put hmem with rfl | hmem
    · exact ((Block.AllLinks.of_links_nil (Prose.links_parse lead)).append hb).normalize
    · exact hc.parameters b hmem
  | badParam problem =>
    exact hrun [] (hcheck .param) (hplain.reportIf (fun _ => true) problem)
  | deprecated run =>
    exact hrun run hself (Places.reportIf
      (.content (fun c b => { c with deprecatedMessage := Block.normalize b })
        fun _ _ _ hc hb => { hc with deprecatedMessage := hb.normalize })
      (fun d => d.content.deprecatedMessage.isEmpty) .deprecatedWithoutMessage)
  | internalRemarks run | stray run => exact hrun run hself hplain
  | release stage =>
    have hput : Places fun r => { r.2 with releaseTag := stage } :=
      ⟨fun _ => rfl, fun _ => rfl, fun _ => rfl, fun _ _ hc _ => hc⟩
    exact hrun [] hself hput
  | flag f =>
    have hput : Places fun r => { r.2 with flags := r.2.flags.insert f } :=
      ⟨fun _ => rfl, fun _ => rfl, fun _ => rfl, fun _ _ hc _ => hc⟩
    exact hrun [] hself hput
  | unsupported token =>
    exact hrun [] hself (hplain.reportIf (fun _ => true) (tagProblem token))
  | strayText chars =>
    exact hrun [] hself (hplain.reportIf (fun _ => !(Text.strip chars).isEmpty) _)

end Documentation

end

end ApiDoc
