import Mathlib
import ApiDoc.Proofs.Markup.BlankLine
import ApiDoc.Proofs.Markup.Paragraphs

/-!
# The paragraphs of running text

Running text is read paragraph by paragraph, with a break between neighbours. A paragraph has no
break in it, and nothing is left of it after normalization exactly if it is blank
(`Prose.normalize_ofParagraph_eq_nil_iff`). So normalization drops the blank pieces and their
breaks, and otherwise what is read of a text is what is read of its pieces
(`Prose.normalize_parse_eq_pieces`).

Before normalization a break stands at the end if the text ends with a blank line, for then the last
piece is empty and the break in front of it is there all the same. Everywhere else breaks stand
between two paragraphs only (`Prose.breaks_of_parse`).
-/

namespace ApiDoc

/-- The pieces of a text between its blank lines, less those that are blank. -/
def Text.filledPieces (t : Text) : List Text :=
  (cutAtBlankLines t).filter fun p => !allBlank p

section
variable {t p rest : Text} {c : Char} {b : Block} {bs : List Block}

/-! ## Blocks that are put together -/

namespace Block

/-- A block of which nothing is seen is nothing in normal form. -/
theorem IsNormal.eq_nil_of_ink (h : b.IsNormal) (hink : b.ink = []) : b = [] := by
  cases b with
  | nil => rfl
  | cons e b =>
    obtain ⟨hbreak, htrimmed⟩ := h.first e rfl
    rw [ink_cons, List.append_eq_nil_iff] at hink
    cases e with
    | paragraph => exact absurd rfl hbreak
    | htmlTag | webLink | itemLink => cases hink.1
    | text chars =>
      cases chars with
      | nil => exact absurd List.mem_cons_self h.noEmptyText
      | cons c chars =>
        have hc : Text.isBlank c = false := htrimmed c rfl
        have hseen := hink.1
        rw [Element.ink, List.map_eq_nil_iff, Text.ink, List.filter_cons_of_pos (by simp [hc])]
          at hseen
        cases hseen

/-- Normalization leaves nothing of a block of which nothing is seen, and something of any other. -/
theorem normalize_eq_nil_iff : normalize b = [] ↔ b.ink = [] := by
  rw [← ink_normalize b]
  constructor
  · intro h
    rw [h]
    rfl
  · exact (isNormal_normalize b).eq_nil_of_ink

/-- Normalization works on each paragraph apart, and drops those of which it leaves nothing. -/
theorem normalize_intercalate (hbs : ∀ b ∈ bs, .paragraph ∉ b) :
    normalize ([Element.paragraph].intercalate bs) =
      [Element.paragraph].intercalate ((bs.map normalize).filter (· ≠ [])) := by
  have hfirst : ∀ b ∈ (bs.map pass).filter (· ≠ []), .paragraph ∉ b := by
    intro b hb
    obtain ⟨b₁, hb₁, rfl⟩ := List.mem_map.1 (List.mem_of_mem_filter hb)
    exact (isJoined_pass (hbs b₁ hb₁)).break_not_mem
  have hnormalize : bs.map normalize = (bs.map pass).map pass := by
    rw [List.map_map]
    exact List.map_congr_left fun b _ => normalize_eq_pass_pass b
  rw [normalize_eq_pass_pass, pass_intercalate hbs, pass_intercalate hfirst,
    filter_map_filter rfl, hnormalize]

theorem break_not_mem_normalize (hb : .paragraph ∉ b) : .paragraph ∉ normalize b := by
  rw [normalize_eq_pass_pass]
  exact (isJoined_pass (isJoined_pass hb).break_not_mem).break_not_mem

/-- Blocks without breaks, put together, have one break fewer than there are blocks. -/
theorem count_intercalate (hbs : ∀ b ∈ bs, .paragraph ∉ b) :
    ([Element.paragraph].intercalate bs).count .paragraph = bs.length - 1 := by
  induction bs with
  | nil => rfl
  | cons b bs ih =>
    rw [List.forall_mem_cons] at hbs
    cases bs with
    | nil =>
      rw [List.intercalate_singleton]
      exact List.count_eq_zero.2 hbs.1
    | cons b₁ bs =>
      rw [List.intercalate_cons_cons, List.count_append, List.count_append, ih hbs.2,
        List.count_eq_zero.2 hbs.1, List.count_singleton_self]
      simp only [List.length_cons]
      omega

/-- Blocks without breaks, put together, start with no break if only the last of them is empty. -/
theorem head?_intercalate_ne (hbs : ∀ b ∈ bs, .paragraph ∉ b) (hfilled : [] ∉ bs.dropLast) :
    ([Element.paragraph].intercalate bs).head? ≠ some .paragraph := by
  cases bs with
  | nil => exact nofun
  | cons b bs =>
    have hb : b.head? ≠ some .paragraph := by
      intro h
      exact hbs b List.mem_cons_self (List.mem_of_mem_head? h)
    cases bs with
    | nil => rwa [List.intercalate_singleton]
    | cons b₁ bs =>
      have hne : b ≠ [] := by
        rintro rfl
        exact hfilled List.mem_cons_self
      rwa [List.intercalate_cons_cons, List.append_assoc, List.head?_append_of_ne_nil _ hne]

/-- Blocks without breaks, put together, have no two breaks side by side if only the last of them is
empty. -/
theorem isChain_intercalate (hbs : ∀ b ∈ bs, .paragraph ∉ b) (hfilled : [] ∉ bs.dropLast) :
    ([Element.paragraph].intercalate bs).IsChain
      fun e f => ¬ (e = .paragraph ∧ f = .paragraph) := by
  induction bs with
  | nil => exact .nil
  | cons b bs ih =>
    obtain ⟨hb, hrest⟩ := List.forall_mem_cons.1 hbs
    have hchain : b.IsChain fun e f => ¬ (e = .paragraph ∧ f = .paragraph) := by
      refine (List.pairwise_of_forall_mem_list fun e he f _ => ?_).isChain
      rintro ⟨rfl, -⟩
      exact hb he
    cases bs with
    | nil => rwa [List.intercalate_singleton]
    | cons b₁ bs =>
      rw [List.dropLast_cons_cons, List.mem_cons, not_or] at hfilled
      rw [List.intercalate_cons_cons, List.append_assoc]
      refine hchain.append (List.isChain_cons.2 ⟨?_, ih hrest hfilled.2⟩) ?_
      · rintro e he ⟨-, rfl⟩
        exact head?_intercalate_ne hrest hfilled.2 he
      · rintro e he f - ⟨rfl, -⟩
        exact hb (List.mem_of_getLast? he)

/-- The last of several blocks is put behind a break and the others. -/
theorem intercalate_concat (hbs : bs ≠ []) (b : Block) :
    [Element.paragraph].intercalate (bs ++ [b]) =
      [Element.paragraph].intercalate bs ++ .paragraph :: b := by
  induction bs with
  | nil => exact absurd rfl hbs
  | cons b₀ bs ih =>
    cases bs with
    | nil =>
      rw [List.singleton_append, List.intercalate_cons_cons, List.intercalate_singleton,
        List.intercalate_singleton, List.append_assoc, List.singleton_append]
    | cons b₁ bs =>
      rw [List.cons_append, List.cons_append, List.intercalate_cons_cons, ← List.cons_append,
        ih (List.cons_ne_nil b₁ bs), List.intercalate_cons_cons, List.append_assoc _ _ (_ :: b)]

/-- Blocks without breaks, put together, end with a break if the last of several is empty. -/
theorem getLast?_intercalate_iff (hbs : ∀ b ∈ bs, .paragraph ∉ b) :
    ([Element.paragraph].intercalate bs).getLast? = some .paragraph ↔
      2 ≤ bs.length ∧ bs.getLast? = some [] := by
  obtain rfl | ⟨bs, b, rfl⟩ := List.eq_nil_or_concat' bs
  · simp
  · have hlast : b.getLast? ≠ some .paragraph := by
      intro h
      exact hbs b (by simp) (List.mem_of_getLast? h)
    by_cases hne : bs = []
    · rw [hne, List.nil_append, List.intercalate_singleton]
      simp [hlast]
    · have hlength : 2 ≤ (bs ++ [b]).length := by
        have := List.length_pos_of_ne_nil hne
        rw [List.length_append, List.length_singleton]
        omega
      rw [intercalate_concat hne, List.getLast?_append_cons, List.getLast?_concat,
        and_iff_right hlength, Option.some.injEq]
      cases b with
      | nil => exact iff_of_true rfl rfl
      | cons e b =>
        rw [List.getLast?_cons_cons]
        exact iff_of_false hlast (List.cons_ne_nil e b)

end Block

/-! ## One paragraph -/

namespace Prose

theorem fragments_of_escape? (h : escape? t = some (c, rest)) :
    fragments t = pushChar c (fragments rest) := by
  rw [fragments]
  split
  · next hsome =>
    rw [h] at hsome
    cases hsome
    rfl
  · next hnone =>
    rw [h] at hnone
    cases hnone

theorem fragments_cons (hescape : escape? (c :: t) = none) (htag : HtmlTag.after? (c :: t) = none) :
    fragments (c :: t) = pushChar c (fragments t) := by
  rw [fragments]
  split
  · next hsome =>
    rw [hescape] at hsome
    cases hsome
  · split
    · next hsome =>
      rw [htag] at hsome
      cases hsome
    · rfl

/-- An escape starts with a backslash, and a tag with `<`. -/
theorem fragments_cons_of_plain (hescape : c ≠ '\\') (htag : c ≠ '<') (t : Text) :
    fragments (c :: t) = pushChar c (fragments t) := by
  refine fragments_cons ?_ ?_
  · unfold escape?
    split
    · next heq =>
      cases heq
      exact absurd rfl hescape
    · rfl
  · unfold HtmlTag.after?
    split
    · next heq =>
      cases heq
      exact absurd rfl htag
    · next heq =>
      cases heq
      exact absurd rfl htag
    · rfl

theorem break_not_mem_ofParagraph (p : Text) : .paragraph ∉ ofParagraph p := by
  intro h
  obtain ⟨f, -, hf⟩ := List.mem_flatMap.1 h
  cases f with
  | tag token => simp [Fragment.elements] at hf
  | text chars => simp [Fragment.elements, Element.ofText] at hf

theorem ofParagraph_eq_nil_iff : ofParagraph p = [] ↔ p = [] := by
  have hpush (c : Char) (fs : List Fragment) : (pushChar c fs).flatMap Fragment.elements ≠ [] := by
    cases fs with
    | nil => exact List.cons_ne_nil _ _
    | cons f fs => cases f <;> exact List.cons_ne_nil _ _
  unfold ofParagraph
  fun_induction fragments p with
  | case1 t c rest hescape _ =>
    refine iff_of_false (hpush c _) ?_
    rintro rfl
    cases hescape
  | case2 t _ rest htag _ =>
    refine iff_of_false (List.cons_ne_nil _ _) ?_
    rintro rfl
    cases htag
  | case3 => exact iff_of_true rfl rfl
  | case4 c r _ _ _ => exact iff_of_false (hpush c _) (List.cons_ne_nil c r)

/-- A blank paragraph has neither escapes nor tags. -/
theorem ink_ofParagraph_eq_nil (h : Text.allBlank p = true) : (ofParagraph p).ink = [] := by
  unfold ofParagraph
  fun_induction fragments p with
  | case1 t c rest hescape _ =>
    unfold escape? at hescape
    split at hescape
    · exact absurd h (by simp [Text.allBlank, show Text.isBlank '\\' = false by decide])
    · cases hescape
  | case2 t _ rest htag _ =>
    unfold HtmlTag.after? at htag
    split at htag
    · exact absurd h (by simp [Text.allBlank, show Text.isBlank '<' = false by decide])
    · exact absurd h (by simp [Text.allBlank, show Text.isBlank '<' = false by decide])
    · cases htag
  | case3 => rfl
  | case4 c r _ _ ih =>
    rw [Text.allBlank, List.all_cons, Bool.and_eq_true] at h
    rw [ink_pushChar, ih h.2, List.append_nil, Text.ink, List.filter_cons_of_neg (by simp [h.1])]
    rfl

/-- Normalization leaves nothing of a paragraph if and only if it is blank. -/
theorem normalize_ofParagraph_eq_nil_iff :
    Block.normalize (ofParagraph p) = [] ↔ Text.allBlank p = true := by
  rw [Block.normalize_eq_nil_iff]
  constructor
  · intro hink
    rw [← Text.ink_eq_nil_iff]
    exact by_contra fun hne => ink_ofParagraph_ne_nil hne hink
  · exact ink_ofParagraph_eq_nil

theorem joinParagraphs_singleton (b : Block) : joinParagraphs [b] = b := by
  rw [joinParagraphs]
  cases b with
  | nil => rfl
  | cons e b => exact List.intercalate_singleton

/-- Text without a blank line is one paragraph. -/
theorem parse_eq_ofParagraph (h : ¬ Text.HasBlankLine t) : parse t = ofParagraph t := by
  rw [parse, paragraphs_eq_singleton_iff.2 h, List.map_singleton, joinParagraphs_singleton]

/-- The blocks that are put together have no breaks of their own. -/
theorem break_not_mem_of_mem_dropWhile
    (hb : b ∈ ((paragraphs t).map ofParagraph).dropWhile List.isEmpty) : .paragraph ∉ b := by
  obtain ⟨p, -, rfl⟩ := List.mem_map.1 ((List.dropWhile_sublist _).subset hb)
  exact break_not_mem_ofParagraph p

/-! ## All paragraphs in normal form -/

/-- The blocks of which normalization leaves nothing need not be put in at the start. -/
theorem filter_map_dropWhile (bs : List Block) :
    ((bs.dropWhile List.isEmpty).map Block.normalize).filter (· ≠ []) =
      (bs.map Block.normalize).filter (· ≠ []) := by
  induction bs with
  | nil => rfl
  | cons b bs ih =>
    rw [List.dropWhile_cons]
    split
    · next hb =>
      have hnil : Block.normalize b = [] := by
        rw [List.isEmpty_iff.1 hb, Block.normalize_eq_nil_iff]
        rfl
      rw [ih, List.map_cons, hnil, List.filter_cons_of_neg (by simp)]
    · rfl

/-- A piece between blank lines is read as a paragraph. -/
theorem parse_of_mem_filledPieces (hp : p ∈ t.filledPieces) : parse p = ofParagraph p := by
  have hmem : p ∈ paragraphs t := by
    rw [paragraphs_eq_cutAtBlankLines]
    exact List.mem_of_mem_filter hp
  exact parse_eq_ofParagraph (not_hasBlankLine_of_mem hmem)

theorem normalize_parse_ne_nil (hp : p ∈ t.filledPieces) : Block.normalize (parse p) ≠ [] := by
  rw [parse_of_mem_filledPieces hp, Ne, normalize_ofParagraph_eq_nil_iff]
  simpa using (List.mem_filter.1 hp).2

/-- The paragraphs of which normalization leaves something are those that are not blank. -/
theorem filter_map_normalize (t : Text) :
    (((paragraphs t).map ofParagraph).map Block.normalize).filter (· ≠ []) =
      t.filledPieces.map fun p => Block.normalize (parse p) := by
  have hkept (p : Text) : decide (Block.normalize (ofParagraph p) ≠ []) = !Text.allBlank p := by
    rw [Bool.eq_iff_iff, decide_eq_true_eq, Bool.not_eq_true', ← Bool.not_eq_true]
    exact not_congr normalize_ofParagraph_eq_nil_iff
  rw [paragraphs_eq_cutAtBlankLines, List.map_map, List.filter_map]
  refine (congrArg (List.map _) (List.filter_congr fun p _ => hkept p)).trans ?_
  exact List.map_congr_left fun p hp =>
    congrArg Block.normalize (parse_of_mem_filledPieces hp).symm

/-- What is read of a text is, in normal form, what is read of its pieces that are not blank, each
on its own and in normal form, with one break between neighbours. Something is left of each of these
pieces, and there are no other breaks. -/
theorem normalize_parse_eq_pieces (t : Text) :
    Block.normalize (parse t) = [Element.paragraph].intercalate
      (t.filledPieces.map fun p => Block.normalize (parse p)) ∧
    (∀ p ∈ t.filledPieces, Block.normalize (parse p) ≠ []) ∧
    (Block.normalize (parse t)).count .paragraph = t.filledPieces.length - 1 ∧
    (Block.normalize (parse t)).head? ≠ some .paragraph ∧
    (Block.normalize (parse t)).getLast? ≠ some .paragraph := by
  have hnormalize : Block.normalize (parse t) = [Element.paragraph].intercalate
      (t.filledPieces.map fun p => Block.normalize (parse p)) := by
    rw [parse, joinParagraphs,
      Block.normalize_intercalate fun b hb => break_not_mem_of_mem_dropWhile hb,
      filter_map_dropWhile, filter_map_normalize]
  have hcount : (Block.normalize (parse t)).count .paragraph = t.filledPieces.length - 1 := by
    rw [hnormalize, Block.count_intercalate, List.length_map]
    intro b hb
    obtain ⟨p, hp, rfl⟩ := List.mem_map.1 hb
    rw [parse_of_mem_filledPieces hp]
    exact Block.break_not_mem_normalize (break_not_mem_ofParagraph p)
  have hnormal := Block.isNormal_normalize (parse t)
  exact ⟨hnormalize, fun p hp => normalize_parse_ne_nil hp, hcount,
    fun h => (hnormal.first _ h).1 rfl, fun h => (hnormal.last _ h).1 rfl⟩

/-! ## Breaks before normalization -/

/-- Of the blocks that are put together, all but the last have something in them. -/
theorem nil_not_mem_dropLast (t : Text) :
    [] ∉ (((paragraphs t).map ofParagraph).dropWhile List.isEmpty).dropLast := by
  obtain ⟨p, ps, hpieces, -⟩ := exists_paragraphs_eq_cons t
  have hinner : [] ∉ (ps.map ofParagraph).dropLast := by
    rw [← List.map_dropLast]
    intro hmem
    obtain ⟨q, hq, hnil⟩ := List.mem_map.1 hmem
    have hblank : Text.allBlank q = false :=
      allBlank_of_mem_inner (t := t) (by rwa [hpieces, List.tail_cons])
    rw [ofParagraph_eq_nil_iff.1 hnil] at hblank
    cases hblank
  rw [hpieces, List.map_cons, List.dropWhile_cons]
  split
  · -- what is left is an end of the other blocks
    obtain ⟨more, hmore⟩ := List.dropWhile_suffix List.isEmpty (l := ps.map ofParagraph)
    intro hmem
    refine hinner ?_
    rw [← hmore, List.dropLast_append_of_ne_nil]
    · exact List.mem_append_right _ hmem
    · intro hnil
      rw [hnil] at hmem
      cases hmem
  · next hp =>
    cases hps : ps.map ofParagraph with
    | nil => exact List.not_mem_nil
    | cons b bs =>
      rw [hps] at hinner
      rw [List.dropLast_cons_cons, List.mem_cons, not_or]
      refine ⟨?_, hinner⟩
      intro hnil
      rw [← hnil] at hp
      exact hp rfl

/-- The last of the blocks that are put together is empty and has one before it, if the last of all
is empty and not all are. -/
theorem getLast?_dropWhile_iff :
    2 ≤ (bs.dropWhile List.isEmpty).length ∧ (bs.dropWhile List.isEmpty).getLast? = some [] ↔
      bs.getLast? = some [] ∧ ¬ ∀ b ∈ bs, b = [] := by
  induction bs with
  | nil => simp
  | cons b bs ih =>
    rw [List.dropWhile_cons]
    split
    · next hb =>
      rw [ih, List.isEmpty_iff.1 hb]
      cases bs with
      | nil => simp
      | cons b₁ bs => simp
    · next hb =>
      have hne : b ≠ [] := fun hnil => hb (List.isEmpty_iff.2 hnil)
      cases bs with
      | nil => simp [hne]
      | cons b₁ bs => simp [hne]

/-- Breaks stand between paragraphs, apart from one at the end. No break comes first, and no two
stand side by side. One comes last if the text ends with a blank line and is more than a blank
line. -/
theorem breaks_of_parse (t : Text) :
    (parse t).head? ≠ some .paragraph ∧
    (parse t).IsChain (fun e f => ¬ (e = .paragraph ∧ f = .paragraph)) ∧
    ((parse t).getLast? = some .paragraph ↔ Text.EndsInBlankLine t ∧ ¬ Text.IsBlankLine t) := by
  have hbreak (b : Block) (hb : b ∈ ((paragraphs t).map ofParagraph).dropWhile List.isEmpty) :
      .paragraph ∉ b := break_not_mem_of_mem_dropWhile hb
  have hfilled := nil_not_mem_dropLast t
  have hlast : ((paragraphs t).map ofParagraph).getLast? = some [] ↔
      t = [] ∨ Text.EndsInBlankLine t := by
    simp only [← getLast?_paragraphs_eq_nil_iff, List.getLast?_map, Option.map_eq_some_iff,
      ofParagraph_eq_nil_iff, exists_eq_right]
  have hall : (∀ b ∈ (paragraphs t).map ofParagraph, b = []) ↔ t = [] ∨ Text.IsBlankLine t := by
    simp only [List.forall_mem_map, ofParagraph_eq_nil_iff, forall_mem_eq_nil_iff]
  refine ⟨Block.head?_intercalate_ne hbreak hfilled, Block.isChain_intercalate hbreak hfilled, ?_⟩
  rw [parse, joinParagraphs, Block.getLast?_intercalate_iff hbreak, getLast?_dropWhile_iff, hlast,
    hall, not_or]
  constructor
  · rintro ⟨hends, hne, hgap⟩
    exact ⟨hends.resolve_left hne, hgap⟩
  · rintro ⟨hends, hgap⟩
    refine ⟨.inr hends, ?_, hgap⟩
    rintro rfl
    obtain ⟨gap, ⟨blanks, -, rfl⟩, hsuffix⟩ := hends
    cases List.suffix_nil.1 hsuffix

/-- A break is put behind the only paragraph of a text that ends with a blank line. -/
theorem finalBlankLine_leavesBreak : parse "a\n\n".toList = [.text ['a'], .paragraph] ∧
    (parse "a\n\n".toList).getLast? = some .paragraph := by
  have hparse : parse "a\n\n".toList = [.text ['a'], .paragraph] := by cbv
  rw [hparse]
  exact ⟨rfl, rfl⟩

end Prose

end

end ApiDoc
