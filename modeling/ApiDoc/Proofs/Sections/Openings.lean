import ApiDoc.Proofs.Sections.StrayText

/-!
# Sections and block tags

Whatever the sections of a comment take in, they take in no block tag but the one that opens them
(`Section.openings_next`). So there is a section for every block tag, which depends on nothing but
the tokens behind the tag, and the other sections are text and inline tags outside. What the
outside leaves as it is thus follows from the block tags alone: from one to the next by the reading
of a section (`Documentation.part_of_foldlM`), or by counting (`Section.countP_ofTokens`).
-/

namespace ApiDoc

/-- The block tags of some tokens, each with the tokens behind it. -/
def Token.openings : List Token → List (Text × List Token)
  | [] => []
  | .block tag :: tokens => (tag, tokens) :: openings tokens
  | _ :: tokens => openings tokens

/-- What stands behind each of the block tags of one name. -/
def Token.behind (tag : BlockTag) (tokens : List Token) : List (List Token) :=
  (openings tokens).filterMap fun opening =>
    if opening.1 = tag.name.toList then some opening.2 else none

namespace Section

/-- The section that a block tag opens, from the tokens behind it. -/
def ofOpening (opening : Text × List Token) : Section :=
  (next (.block opening.1) opening.2).1

/-- Whether a section is one of text or tags outside. -/
def isOutside : Section → Bool
  | unsupported _ | stray _ | strayText _ => true
  | _ => false

end Section

section
variable {token : Token} {tokens before after : List Token} {tag : Text}

/-! ## Block tags -/

/-- The words for block tags. -/
theorem BlockTag.ofName?_eq_some_iff {t : BlockTag} (ht : t ∈ all) :
    ofName? tag = some t ↔ tag = t.name.toList := by
  have hname : ∀ t ∈ all, ofName? t.name.toList = some t := by decide
  constructor
  · intro h
    have hfound := List.find?_some h
    exact (of_decide_eq_true hfound).symm
  · rintro rfl
    exact hname t ht

/-- The words for inline tags. -/
theorem InlineTag.ofName?_eq_some_iff {t : InlineTag} :
    ofName? tag = some t ↔ tag = t.name.toList := by
  constructor
  · intro h
    have hfound := List.find?_some h
    exact (of_decide_eq_true hfound).symm
  · rintro rfl
    cases t <;> decide

/-- An entry of a list has a last place there. -/
theorem exists_last_of_mem {α : Type} {a : α} {as : List α} (h : a ∈ as) :
    ∃ before after, as = before ++ a :: after ∧ a ∉ after := by
  obtain ⟨after, before, hreverse, hafter⟩ :=
    List.eq_append_cons_of_mem (List.mem_reverse.2 h)
  refine ⟨before.reverse, after.reverse, ?_, mt List.mem_reverse.1 hafter⟩
  rw [← List.reverse_reverse as, hreverse]
  simp

/-- What every entry of a list may set is as the last one has set it that does. -/
theorem foldl_getD {α β : Type} (set? : α → Option β) (as : List α) (b : β) :
    as.foldl (fun b a => (set? a).getD b) b = (as.filterMap set?).getLast?.getD b := by
  induction as using List.reverseRecOn with
  | nil => rfl
  | append_singleton as a ih =>
    rw [List.foldl_append, List.foldl_cons, List.foldl_nil, ih, List.filterMap_append]
    cases hset : set? a <;> simp [hset]

theorem Token.openings_append (before after : List Token) :
    openings (before ++ after) =
      (openings before).map (fun opening => (opening.1, opening.2 ++ after)) ++
        openings after := by
  induction before with
  | nil => rfl
  | cons token before ih =>
    cases token with
    | block tag => exact congrArg (_ :: ·) ih
    | text | inline => exact ih

theorem Token.behind_append (tag : BlockTag) (before after : List Token) :
    behind tag (before ++ after) = (behind tag before).map (· ++ after) ++ behind tag after := by
  rw [behind, openings_append, List.filterMap_append, List.filterMap_map, behind,
    List.map_filterMap]
  refine congrArg (· ++ _) (List.filterMap_congr fun opening _ => ?_)
  dsimp only [Function.comp_apply]
  split <;> rfl

/-- Nothing stands behind a tag that is not there. -/
theorem Token.behind_eq_nil {tag : BlockTag} (h : .block tag.name.toList ∉ tokens) :
    behind tag tokens = [] := by
  induction tokens with
  | nil => rfl
  | cons token tokens ih =>
    obtain ⟨htoken, htokens⟩ := not_or.1 (mt List.mem_cons.2 h)
    cases token with
    | block name =>
      have hname : name ≠ tag.name.toList := fun heq => htoken (heq ▸ rfl)
      refine (List.filterMap_cons_none ?_).trans (ih htokens)
      exact if_neg hname
    | text | inline => exact ih htokens

/-- The last entry is what stands behind the last block tag of the name. -/
theorem Token.getLast?_behind {tag : BlockTag} (h : .block tag.name.toList ∉ after) :
    (behind tag (before ++ .block tag.name.toList :: after)).getLast? = some after := by
  have hlast : behind tag (.block tag.name.toList :: after) = after :: behind tag after := by
    simp [behind, openings]
  rw [behind_append, hlast, behind_eq_nil h]
  exact List.getLast?_concat

namespace Section

/-! ## What sections take in -/

theorem openings_take (tokens : List Token) :
    Token.openings (Run.take tokens).2 = Token.openings tokens := by
  induction tokens with
  | nil => rfl
  | cons token tokens ih =>
    rw [Run.take]
    split
    · next hpiece =>
      cases token with
      | block tag => cases hpiece
      | text | inline => exact ih
    · rfl

theorem openings_ofParam (tokens : List Token) :
    Token.openings (ofParam tokens).2 = Token.openings tokens := by
  unfold ofParam
  split
  · rfl
  · split
    · rfl
    · dsimp only
      split
      · rfl
      · split
        · rfl
        · exact openings_take _
  · rfl

/-- A section takes in no block tag beside its own. -/
theorem openings_next (token : Token) (tokens : List Token) :
    Token.openings (next token tokens).2 = Token.openings tokens := by
  unfold next
  split
  · rfl
  · split
    · next tag _ =>
      cases tag with
      | remarks | returns | deprecated | internalRemarks => exact openings_take tokens
      | param => exact openings_ofParam tokens
      | release | flag => rfl
    · rfl
  · split
    · exact openings_take tokens
    · rfl

/-- Only a block tag starts a section that is not outside. -/
theorem isOutside_next (h : token.isBlock = false) : (next token tokens).1.isOutside = true := by
  cases token with
  | text chars => rfl
  | block tag => cases h
  | inline tag content =>
    unfold next
    dsimp only
    split <;> rfl

/-- Sections that are not outside are counted by the block tags. -/
theorem countP_ofTokens {p : Section → Bool} (hp : ∀ s, s.isOutside = true → p s = false)
    (tokens : List Token) :
    (ofTokens tokens).countP p = (Token.openings tokens).countP fun o => p (ofOpening o) := by
  induction tokens using ofTokens.induct with
  | case1 =>
    rw [ofTokens]
    rfl
  | case2 token tokens ih =>
    rw [ofTokens, List.countP_cons, ih, openings_next]
    cases token with
    | block tag =>
      rw [Token.openings, List.countP_cons]
      rfl
    | text | inline =>
      rw [hp _ (isOutside_next rfl)]
      rfl

end Section

namespace Documentation

variable {γ : Type} {around : Surroundings} {part : Documentation → γ}
  {step : γ → Text × List Token → γ} {d d₁ : Documentation}

/-- A part of the documentation that sections outside leave as it is changes block tag by block
tag. -/
theorem part_of_foldlM
    (hopening : ∀ opening {d d₁}, readSection around d (.ofOpening opening) = .ok d₁ →
      part d₁ = step (part d) opening)
    (houtside : ∀ s {d d₁}, s.isOutside = true → readSection around d s = .ok d₁ →
      part d₁ = part d)
    (hread : (Section.ofTokens tokens).foldlM (readSection around) d = .ok d₁) :
    part d₁ = (Token.openings tokens).foldl step (part d) := by
  induction tokens using Section.ofTokens.induct generalizing d with
  | case1 =>
    rw [Section.ofTokens] at hread
    cases hread
    rfl
  | case2 token tokens ih =>
    rw [Section.ofTokens, List.foldlM_cons] at hread
    obtain ⟨d₂, hsection, hrest⟩ := exists_of_bind_eq_ok hread
    rw [ih hrest, Section.openings_next]
    cases token with
    | block tag =>
      rw [Token.openings, List.foldl_cons, ← hopening (tag, tokens) hsection]
    | text | inline =>
      rw [houtside _ (Section.isOutside_next rfl) hsection]
      rfl

/-- The reading of a comment in its three steps: its summary, its block tags, and the checks at the
end. -/
theorem exists_of_parse (part : Documentation → γ) (step : γ → Text × List Token → γ)
    (hopening : ∀ opening {d d₁}, readSection around d (.ofOpening opening) = .ok d₁ →
      part d₁ = step (part d) opening)
    (houtside : ∀ s {d d₁}, s.isOutside = true → readSection around d s = .ok d₁ →
      part d₁ = part d)
    {itemName : Option Text} {body : Text} (hparse : parse around itemName body = .ok d) :
    ∃ r d₁, readRun around.package (opened itemName (Token.badBraces body))
        (Run.take (Token.tokenize body)).1 = .ok r ∧
      part d₁ = (Token.openings (Token.tokenize body)).foldl step
        (part { r.2 with content.summary := Block.normalize r.1 }) ∧
      d = d₁.finish ((Token.openings (Token.tokenize body)).countP fun opening =>
        (Section.ofOpening opening).isRelease) := by
  obtain ⟨r, hsummary, hparse⟩ := exists_of_bind_eq_ok hparse
  obtain ⟨d₁, hsections, hok⟩ := exists_of_bind_eq_ok hparse
  refine ⟨r, d₁, hsummary, ?_, ?_⟩
  · rw [← Section.openings_take]
    exact part_of_foldlM hopening houtside hsections
  · cases hok
    have hcount := Section.countP_ofTokens (p := Section.isRelease)
      (fun s hs => by cases s <;> first | rfl | cases hs) (Run.take (Token.tokenize body)).2
    rw [Section.openings_take] at hcount
    exact congrArg d₁.finish hcount

end Documentation

end

end ApiDoc
