import ApiDoc.Proofs.Links.Shown
import ApiDoc.Proofs.Markup.Normalize
import ApiDoc.Proofs.OrderedMap
import ApiDoc.Proofs.Sections.Openings

/-!
# What a comment says

The content of a comment from its tokens. Its summary is the run at its start; its remarks, the
description of the returned value and the deprecation message are each the run behind the last tag
of that name; and a parameter is described behind the last of its tags, by what follows the hyphen
there and by the run after it. Reading a section replaces what an earlier one of its name has said,
or puts its parameter into the map (`Content.fill`), so this is a fold over the block tags, which
`Documentation.part_of_foldlM` brings about. Main statement: `Documentation.content_of_parse`.

A link that is shown also knows its place in the queue of its comment. The statements are about
detached blocks, which do not, and which are written as their blocks are.
-/

namespace ApiDoc

/-- What a link shows in a package: nothing if it is ill-formed. -/
def Link.elements (package : PackageName) (content : Text) : Block :=
  match Link.parse (some package) content with
  | .link e => [e]
  | _ => []

/-- The elements of a piece of a run. -/
def Piece.elements (package : PackageName) : Piece → Block
  | text chars => Prose.parse chars
  | link content => Link.elements package content
  | inheritDoc _ => []

namespace Token

/-- Whether a token can stand in a run: text, links and requests to inherit can. -/
def staysInRun (token : Token) : Bool :=
  token.text?.isSome || token.opensRun

/-- The elements of a token in a run. -/
def elements (package : PackageName) : Token → Block
  | text chars => Prose.parse chars
  | block _ => []
  | inline tag content =>
    if tag = InlineTag.link.name.toList then Link.elements package content else []

/-- The elements of the run at the start of some tokens. -/
def runElements (package : PackageName) (tokens : List Token) : Block :=
  (tokens.takeWhile staysInRun).flatMap (elements package)

/-- A block is what the last section with a tag says, and empty if there is none. -/
inductive LastSection (package : PackageName) (tag : BlockTag) (tokens : List Token) : Block → Prop
  | none (h : block tag.name.toList ∉ tokens) : LastSection package tag tokens []
  | last (before after : List Token) (htokens : tokens = before ++ block tag.name.toList :: after)
      (hafter : block tag.name.toList ∉ after) :
      LastSection package tag tokens (Block.normalize (runElements package after))

/-- The name and the description of the parameter that some tokens behind a parameter tag give. -/
def param? (package : PackageName) : List Token → Option (Text × Block)
  | text chars :: tokens =>
    match Text.splitFirst? '-' chars with
    | some (name, lead) =>
      if Text.allBlank name || Text.allBlank lead then none
      else some (Text.strip name,
        Block.normalize (Prose.parse lead ++ runElements package tokens))
    | none => none
  | _ => none

/-- The names and descriptions that parameter tags give, in order. -/
def params (package : PackageName) (tokens : List Token) : List (Text × Block) :=
  (behind .param tokens).filterMap (param? package)

end Token

/-- A content is what the sections of a comment say. -/
structure Content.Says (package : PackageName) (tokens : List Token) (c : Content) : Prop where
  summary : c.summary = Block.normalize (Token.runElements package tokens)
  remarks : Token.LastSection package .remarks tokens c.remarks
  returnsMessage : Token.LastSection package .returns tokens c.returnsMessage
  deprecatedMessage : Token.LastSection package .deprecated tokens c.deprecatedMessage
  /-- Every name that is described comes once, where it was described first. -/
  names : OrderedMap.names c.parameters =
    ((Token.params package tokens).map (·.1)).eraseDups
  /-- A name has the description that was given last. -/
  descriptions : ∀ name, OrderedMap.find? name c.parameters =
    ((Token.params package tokens).reverse.find? fun param => param.1 = name).map (·.2)

/-- The content with what a section says, from its tag and the tokens behind it. -/
def Content.fill (package : PackageName) (c : Content) (opening : Text × List Token) : Content :=
  let block := Block.normalize (Token.runElements package opening.2)
  match BlockTag.ofName? opening.1 with
  | some .remarks => { c with remarks := block }
  | some .returns => { c with returnsMessage := block }
  | some .deprecated => { c with deprecatedMessage := block }
  | some .param =>
    match Token.param? package opening.2 with
    | some (name, description) =>
      { c with parameters := OrderedMap.put name description c.parameters }
    | none => c
  | _ => c

section
variable {package : PackageName} {tokens : List Token} {d d₁ : Documentation}

/-! ## Elements that no comment follows -/

/-- A block without links to items is its own copy. -/
theorem Block.detach_eq_self {b : Block} (h : links b = []) : b.detach = b := by
  induction b with
  | nil => rfl
  | cons e b ih =>
    rw [links_cons] at h
    obtain ⟨he, hb⟩ := List.append_eq_nil_iff.1 h
    rw [detach_cons, ih hb]
    cases e with
    | itemLink link => cases he
    | text | paragraph | htmlTag | webLink => rfl

/-- A link as it is written has no place yet. -/
theorem Link.detach_of_parse {package : Option PackageName} {content : Text} {e : Element}
    (h : Link.parse package content = .link e) : e.detach = e := by
  have haddress {address : Text} {display : List Text}
      (h : ofAddress package address display = .link e) : e.detach = e := by
    unfold ofAddress at h
    split at h
    · split at h <;> cases h
      rfl
    · split at h
      · cases h
      · dsimp only at h
        split at h
        · cases h
          rfl
        · split at h <;> cases h
          rfl
  unfold parse at h
  split at h
  · cases h
  · split at h
    · exact haddress h
    · split at h
      · exact haddress h
      · split at h
        · cases h
        · exact haddress h
    · cases h

/-! ## Runs -/

/-- The run at the start of some tokens has the elements of its tokens. -/
theorem Run.elements_take (package : PackageName) (tokens : List Token) :
    (Run.take tokens).1.flatMap (Piece.elements package) = Token.runElements package tokens := by
  induction tokens with
  | nil => rfl
  | cons token tokens ih =>
    rw [Run.take, Token.runElements]
    cases token with
    | text chars => exact congrArg (_ ++ ·) ih
    | block tag => rfl
    | inline tag content =>
      cases htag : InlineTag.ofName? tag with
      | none => simp [Piece.ofToken?, htag, Token.staysInRun, Token.text?, Token.opensRun]
      | some t =>
        rw [List.takeWhile_cons_of_pos (by simp [Token.staysInRun, Token.opensRun, htag])]
        cases InlineTag.ofName?_eq_some_iff.1 htag
        simp only [Piece.ofToken?, htag]
        cases t <;> exact congrArg (_ ++ ·) ih

/-- The tokens behind a parameter tag are a problem, or give a parameter and a run. -/
theorem Section.ofParam_cases_param? (package : PackageName) (tokens : List Token) :
    (∃ p, (ofParam tokens).1 = badParam p ∧ Token.param? package tokens = none) ∨
      ∃ name lead rest, (ofParam tokens).1 = param name lead (Run.take rest).1 ∧
        Token.param? package tokens =
          some (name, Block.normalize (Prose.parse lead ++ Token.runElements package rest)) := by
  cases tokens with
  | nil => exact .inl ⟨_, rfl, rfl⟩
  | cons token tokens =>
    cases token with
    | block | inline => exact .inl ⟨_, rfl, rfl⟩
    | text chars =>
      simp only [ofParam, Token.param?]
      cases Text.splitFirst? '-' chars with
      | none => exact .inl ⟨_, rfl, rfl⟩
      | some parts =>
        obtain ⟨name, lead⟩ := parts
        simp only [Text.isEmpty_strip]
        cases Text.allBlank name <;> cases Text.allBlank lead
        · exact .inr ⟨_, _, _, rfl, rfl⟩
        all_goals exact .inl ⟨_, rfl, rfl⟩

/-! ## Filling a content section by section -/

namespace Content

/-- Each tag fills a part of its own. -/
theorem fill_eq (package : PackageName) (c : Content) (opening : Text × List Token) :
    fill package c opening =
      let block := Block.normalize (Token.runElements package opening.2)
      let ifTag (tag : BlockTag) (old : Block) := if opening.1 = tag.name.toList then block else old
      { summary := c.summary
        remarks := ifTag .remarks c.remarks
        returnsMessage := ifTag .returns c.returnsMessage
        deprecatedMessage := ifTag .deprecated c.deprecatedMessage
        parameters :=
          match (if opening.1 = BlockTag.param.name.toList then some opening.2 else none).bind
              (Token.param? package) with
          | some (name, description) => OrderedMap.put name description c.parameters
          | none => c.parameters } := by
  have hname (t : BlockTag) (ht : t ∈ BlockTag.all) :
      opening.1 = t.name.toList ↔ BlockTag.ofName? opening.1 = some t :=
    (BlockTag.ofName?_eq_some_iff ht).symm
  simp only [hname .remarks (by decide), hname .returns (by decide), hname .deprecated (by decide),
    hname .param (by decide), fill]
  cases BlockTag.ofName? opening.1 with
  | none => rfl
  | some t =>
    cases t with
    | param =>
      simp only [if_true, Option.bind_some]
      cases Token.param? package opening.2 <;> rfl
    | _ => rfl

/-- What the sections with a tag set is as the last of them has set it. -/
theorem block_foldl_fill {block : Content → Block} {tag : BlockTag}
    (hset : ∀ c opening, block (fill package c opening) =
      if opening.1 = tag.name.toList then Block.normalize (Token.runElements package opening.2)
      else block c)
    {c : Content} (hc : block c = []) :
    Token.LastSection package tag tokens
      (block ((Token.openings tokens).foldl (fill package) c)) := by
  let set? (opening : Text × List Token) : Option Block :=
    (if opening.1 = tag.name.toList then some opening.2 else none).map fun rest =>
      Block.normalize (Token.runElements package rest)
  have hlast : block ((Token.openings tokens).foldl (fill package) c) =
      ((Token.behind tag tokens).getLast?.map fun rest =>
        Block.normalize (Token.runElements package rest)).getD [] := by
    let setBy (b : Block) (opening : Text × List Token) : Block := (set? opening).getD b
    have hstep (c : Content) (opening : Text × List Token) :
        setBy (block c) opening = block (fill package c opening) := by
      rw [hset]
      dsimp only [setBy, set?]
      split <;> rfl
    rw [← List.foldl_hom block hstep, foldl_getD, hc, ← List.map_filterMap, List.getLast?_map]
    rfl
  rw [hlast]
  by_cases htag : .block tag.name.toList ∈ tokens
  · obtain ⟨before, after, htokens, hafter⟩ := exists_last_of_mem htag
    rw [htokens, Token.getLast?_behind hafter]
    exact .last before after rfl hafter
  · rw [Token.behind_eq_nil htag]
    exact .none htag

/-- The parameters that are described are put one after the other. -/
theorem parameters_foldl_fill {c : Content} (hc : c.parameters = []) :
    ((Token.openings tokens).foldl (fill package) c).parameters =
      OrderedMap.ofEntries (Token.params package tokens) := by
  rw [Token.params, Token.behind, List.filterMap_filterMap, OrderedMap.ofEntries,
    List.foldl_filterMap, ← hc]
  refine (List.foldl_hom Content.parameters fun c opening => ?_).symm
  rw [fill_eq]
  dsimp only
  split <;> simp only [*]

/-- A content that every section fills is what the sections say. -/
theorem says_foldl_fill (package : PackageName) (tokens : List Token) :
    Says package tokens ((Token.openings tokens).foldl (fill package)
      { summary := Block.normalize (Token.runElements package tokens) }) where
  summary := by
    let keep (b : Block) (_ : Text × List Token) : Block := b
    have hstep (c : Content) (opening : Text × List Token) :
        keep c.summary opening = (fill package c opening).summary := by rw [fill_eq]
    rw [← List.foldl_hom Content.summary hstep]
    exact List.foldl_fixed _
  remarks := block_foldl_fill (fun c opening => by rw [fill_eq]) rfl
  returnsMessage := block_foldl_fill (fun c opening => by rw [fill_eq]) rfl
  deprecatedMessage := block_foldl_fill (fun c opening => by rw [fill_eq]) rfl
  names := by
    rw [parameters_foldl_fill rfl, OrderedMap.names_ofEntries]
  descriptions name := by
    rw [parameters_foldl_fill rfl, OrderedMap.find?_ofEntries]

end Content

namespace Documentation

theorem content_reportIf (condition : Bool) (p : Problem) (d : Documentation) :
    (d.reportIf condition p).content = d.content := by
  unfold reportIf
  split <;> rfl

/-- A run shows nothing before it is put into its place. -/
theorem content_readRun {package : Option PackageName} {run : Run} {r : Block × Documentation}
    (hread : readRun package d run = .ok r) : r.2.content = d.content :=
  readRun_keeps (fun _ _ => rfl) (fun _ _ => rfl) (fun _ _ => rfl) hread

/-- A piece of a run adds its elements. -/
theorem elements_readPiece {r r₁ : Block × Documentation} {piece : Piece}
    (hread : readPiece (some package) r piece = .ok r₁) :
    r₁.1.detach = r.1.detach ++ piece.elements package := by
  obtain ⟨elements, d⟩ := r
  cases piece with
  | text chars =>
    cases hread
    rw [Block.detach_append, Block.detach_eq_self (Prose.links_parse chars)]
    rfl
  | inheritDoc content =>
    cases hread
    exact (List.append_nil _).symm
  | link content =>
    simp only [readPiece] at hread
    simp only [Piece.elements, Link.elements]
    split at hread
    · next e hlink =>
      cases hread
      rw [Block.detach_append, hlink]
      have hdetach := Link.detach_of_parse hlink
      cases e with
      | itemLink link => exact congrArg (_ ++ [·]) hdetach
      | text | paragraph | htmlTag | webLink => rfl
    · next hlink =>
      cases hread
      rw [hlink]
      exact (List.append_nil _).symm
    · cases hread

theorem elements_foldlM {run : Run} {r r₁ : Block × Documentation}
    (hread : run.foldlM (readPiece (some package)) r = .ok r₁) :
    r₁.1.detach = r.1.detach ++ run.flatMap (Piece.elements package) := by
  induction run generalizing r with
  | nil =>
    cases hread
    exact (List.append_nil _).symm
  | cons piece run ih =>
    rw [List.foldlM_cons] at hread
    obtain ⟨r₂, hpiece, hrest⟩ := exists_of_bind_eq_ok hread
    rw [ih hrest, elements_readPiece hpiece, List.append_assoc]
    rfl

/-- Reading the run at the start of some tokens gives the elements of the run. -/
theorem elements_readRun {r : Block × Documentation}
    (hread : readRun (some package) d (Run.take tokens).1 = .ok r) :
    r.1.detach = Token.runElements package tokens := by
  rw [← Run.elements_take]
  exact elements_foldlM hread

/-! ## Sections -/

variable {around : Surroundings}

/-- A section without a block shows nothing. -/
theorem content_readSection_outside {s : Section} (hs : s.isOutside = true)
    (hread : readSection around d s = .ok d₁) : d₁.content = d.content := by
  cases s with
  | unsupported token =>
    cases hread
    rfl
  | stray run =>
    obtain ⟨r, hrun, hok⟩ := exists_of_bind_eq_ok hread
    cases hok
    exact content_readRun hrun
  | strayText chars =>
    cases hread
    exact content_reportIf _ _ d
  | _ => cases hs

/-- What is put into a documentation after its run was read. -/
theorem content_readRun_bind (fill : Block → Content → Content) {d₀ : Documentation}
    {f : Block × Documentation → Documentation}
    (hf : ∀ r, (f r).content.detach = fill r.1.detach r.2.content.detach)
    (hd₀ : d₀.content = d.content)
    (hread : (do return f (← readRun (some package) d₀ (Run.take tokens).1)) =
      (.ok d₁ : Except MissingPackage Documentation)) :
    d₁.content.detach = fill (Token.runElements package tokens) d.content.detach := by
  obtain ⟨r, hrun, hok⟩ := exists_of_bind_eq_ok hread
  cases hok
  rw [hf, elements_readRun hrun, content_readRun hrun, hd₀]

/-- A section with a block tag fills the content. -/
theorem content_readSection_ofOpening (hpackage : around.package = some package)
    (opening : Text × List Token)
    (hread : readSection around d (.ofOpening opening) = .ok d₁) :
    d₁.content.detach = d.content.detach.fill package opening := by
  obtain ⟨tag, tokens⟩ := opening
  have hcheck (t : BlockTag) : (d.checkSection t).content = d.content := content_reportIf _ _ d
  simp only [Section.ofOpening, Section.next] at hread
  simp only [Content.fill]
  cases htag : BlockTag.ofName? tag with
  | none =>
    rw [htag] at hread
    cases hread
    rfl
  | some t =>
    rw [htag] at hread
    dsimp only [Section.ofBlock] at hread ⊢
    cases t with
    | remarks =>
      simp only [readSection, hpackage] at hread
      refine content_readRun_bind (fun b c => { c with remarks := b.normalize })
        (fun r => ?_) (hcheck .remarks) hread
      rw [Block.normalize_detach]
      rfl
    | returns =>
      simp only [readSection, hpackage] at hread
      refine content_readRun_bind (fun b c => { c with returnsMessage := b.normalize })
        (fun r => ?_) (hcheck .returns) hread
      rw [Block.normalize_detach]
      rfl
    | deprecated =>
      simp only [readSection, hpackage] at hread
      refine content_readRun_bind (fun b c => { c with deprecatedMessage := b.normalize })
        (fun r => ?_) rfl hread
      rw [content_reportIf, Block.normalize_detach]
      rfl
    | internalRemarks =>
      simp only [readSection, hpackage] at hread
      exact content_readRun_bind (fun _ c => c) (fun r => rfl) rfl hread
    | param =>
      rcases Section.ofParam_cases_param? package tokens with
        ⟨p, hsection, hparam⟩ | ⟨name, lead, rest, hsection, hparam⟩
      · rw [hsection] at hread
        cases hread
        simp only [hparam]
        exact congrArg Content.detach (hcheck .param)
      · simp only [hsection, readSection, hpackage] at hread
        simp only [hparam]
        refine content_readRun_bind (fun b c => { c with
          parameters := OrderedMap.put name (Block.normalize (Prose.parse lead ++ b)) c.parameters })
          (fun r => ?_) (hcheck .param) hread
        have hlead := Block.detach_append (Prose.parse lead) r.1
        rw [Block.detach_eq_self (Prose.links_parse lead)] at hlead
        rw [← hlead, Block.normalize_detach, Content.detach, Content.mapBlocks,
          OrderedMap.mapValues_put]
        rfl
    | release | flag =>
      cases hread
      rfl

/-! ## Comments -/

theorem content_finish (releaseTags : Nat) (d : Documentation) :
    (d.finish releaseTags).content = d.content := by
  unfold finish
  dsimp only
  rw [content_reportIf, content_reportIf]
  split
  · exact (content_reportIf _ _ _).trans (content_reportIf _ _ d)
  · exact (content_reportIf _ _ _).trans (content_reportIf _ _ d)

/-- In a known package every comment is read, and shows what its sections say: the summary is the
run at the start, every section with a block is the last one with its tag, and every parameter is as
it was described last. -/
theorem content_of_parse (package : PackageName) (config : Config) (itemName : Option Text)
    (body : Text) : ∃ d, parse { package := some package, config } itemName body = .ok d ∧
      d.content.detach.Says package (Token.tokenize body) := by
  have hknown : ({ package := some package, config } : Surroundings).package = some package := rfl
  obtain ⟨d, hparse, -⟩ := exists_parse hknown itemName body
  obtain ⟨r, d₁, hsummary, hcontent, rfl⟩ := exists_of_parse
    (fun d => d.content.detach) (Content.fill package)
    (fun opening _ _ hread => content_readSection_ofOpening rfl opening hread)
    (fun s _ _ hs hread => congrArg Content.detach (content_readSection_outside hs hread))
    hparse
  have hstart : ({ r.2.content with summary := Block.normalize r.1 } : Content).detach =
      { summary := Block.normalize (Token.runElements package (Token.tokenize body)) } := by
    rw [content_readRun hsummary, ← elements_readRun hsummary, Block.normalize_detach]
    rfl
  refine ⟨_, hparse, ?_⟩
  rw [content_finish, hcontent, hstart]
  exact Content.says_foldl_fill package _

end Documentation

end

end ApiDoc
