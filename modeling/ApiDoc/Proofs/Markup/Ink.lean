import ApiDoc.Markup.Normalize
import ApiDoc.Markup.Prose
import ApiDoc.Proofs.Text.Blank

/-!
# What normalization keeps

Blanks and breaks are all that normalization takes out of a block: the characters that are not
blank, the tags and the links are the same afterwards and in the same order (`Block.ink`,
`Block.ink_normalize`). So what is not blank does not become empty. Nor does running text: whatever
its paragraphs, escapes and tags are, something is left of it if it is not blank
(`Prose.ink_parse_ne_nil`). Main statement: `Block.normalize_parse_append_ne_nil`.
-/

namespace ApiDoc

/-- The characters of a text that are not blank. -/
def Text.ink (t : Text) : Text :=
  t.filter fun c => !isBlank c

/-- What is seen of an element: the characters of a text that are not blank, and a tag or a link as
a whole. -/
def Element.ink : Element → List (Char ⊕ Element)
  | text chars => (Text.ink chars).map .inl
  | paragraph => []
  | htmlTag tag => [.inr (htmlTag tag)]
  | webLink display address => [.inr (webLink display address)]
  | itemLink link => [.inr (itemLink link)]

/-- What is seen of a block, in order. -/
def Block.ink (b : Block) : List (Char ⊕ Element) :=
  b.flatMap Element.ink

section
variable {t : Text} {c : Char} {b : Block}

/-! ## Texts -/

namespace Text

@[simp] theorem ink_append (t u : Text) : ink (t ++ u) = ink t ++ ink u :=
  List.filter_append ..

theorem ink_eq_nil_iff : ink t = [] ↔ allBlank t = true := by
  simp [ink, allBlank, List.filter_eq_nil_iff]

@[simp] theorem ink_stripLeft (t : Text) : ink (stripLeft t) = ink t := by
  have hblank : ink (t.takeWhile isBlank) = [] := ink_eq_nil_iff.2 List.all_takeWhile
  conv_rhs => rw [← List.takeWhile_append_dropWhile (p := isBlank) (l := t), ink_append, hblank]
  rfl

@[simp] theorem ink_stripRight (t : Text) : ink (stripRight t) = ink t := by
  have hreverse (u : Text) : ink u.reverse = (ink u).reverse := List.filter_reverse ..
  rw [stripRight_eq_rdropWhile, List.rdropWhile, hreverse]
  exact (congrArg List.reverse ((ink_stripLeft t.reverse).trans (hreverse t))).trans
    (List.reverse_reverse _)

theorem ink_collapseFrom (afterBlank : Bool) (t : Text) :
    ink (collapseFrom afterBlank t) = ink t := by
  induction t generalizing afterBlank with
  | nil => rfl
  | cons c r ih =>
    have hspace : isBlank ' ' = true := by decide
    cases hc : isBlank c <;> cases afterBlank <;> simp_all [collapseFrom, ink]

end Text

/-! ## Blocks -/

namespace Block

theorem ink_cons (e : Element) (b : Block) : ink (e :: b) = e.ink ++ ink b :=
  List.flatMap_cons

theorem ink_append (b₁ b₂ : Block) : ink (b₁ ++ b₂) = ink b₁ ++ ink b₂ :=
  List.flatMap_append

theorem ink_dropEmpty (b : Block) : ink (dropEmpty b) = ink b := by
  induction b with
  | nil => rfl
  | cons e b ih =>
    rw [dropEmpty, List.filter_cons]
    split
    · rw [ink_cons, ink_cons, ← ih]
      rfl
    · next hempty =>
      obtain rfl : e = .text [] := by
        cases e with
        | text chars => simpa [isEmptyText] using hempty
        | paragraph | htmlTag | webLink | itemLink => exact absurd rfl hempty
      exact ih

theorem ink_pushText (chars : Text) (b : Block) :
    ink (pushText chars b) = (Element.text chars).ink ++ ink b := by
  cases b with
  | nil => rfl
  | cons e b =>
    cases e with
    | text more =>
      simp only [pushText, ink_cons, Element.ink, Text.ink_append, List.map_append,
        List.append_assoc]
    | paragraph | htmlTag | webLink | itemLink => rfl

theorem ink_joinTexts (b : Block) : ink (joinTexts b) = ink b := by
  induction b with
  | nil => rfl
  | cons e b ih =>
    cases e with
    | text chars => rw [joinTexts, ink_pushText, ih, ink_cons]
    | paragraph | htmlTag | webLink | itemLink => exact congrArg (_ ++ ·) ih

theorem ink_dropRepeatedBreaks (afterBreak : Bool) (b : Block) :
    ink (dropRepeatedBreaks afterBreak b) = ink b := by
  induction b generalizing afterBreak with
  | nil => cases afterBreak <;> rfl
  | cons e b ih =>
    cases e with
    | paragraph => cases afterBreak <;> exact ih true
    | text | htmlTag | webLink | itemLink =>
      cases afterBreak <;> exact congrArg (_ ++ ·) (ih false)

theorem ink_dropFinalBreaks (b : Block) : ink (dropFinalBreaks b) = ink b := by
  induction b with
  | nil => rfl
  | cons e b ih =>
    rw [dropFinalBreaks, ink_cons, ← ih]
    split
    · next hnil =>
      rw [hnil]
      split
      · next heq =>
        rw [heq]
        rfl
      · rfl
    · rfl

theorem ink_trimTexts (atStart : Bool) (b : Block) : ink (trimTexts atStart b) = ink b := by
  induction b generalizing atStart with
  | nil => cases atStart <;> rfl
  | cons e b ih =>
    cases e with
    | text chars =>
      rw [trimTexts, ink_cons, ink_cons, ih]
      refine congrArg (List.map Sum.inl · ++ _) ?_
      cases atStart <;> cases startsWithBreak b <;> simp
    | paragraph => exact ih true
    | htmlTag | webLink | itemLink => exact congrArg (_ ++ ·) (ih false)

/-- Normalization keeps all that is seen of a block. -/
theorem ink_normalize (b : Block) : ink (normalize b) = ink b := by
  fun_induction normalize b with
  | case1 b _ => rfl
  | case2 b _ _ ih =>
    rw [ih, pass, ink_trimTexts, ink_dropFinalBreaks, ink_dropRepeatedBreaks, ink_joinTexts,
      ink_dropEmpty]

end Block

/-! ## Running text -/

namespace Prose

/-- What follows a blank line is all that is not blank. -/
theorem ink_afterLastNewline? {rest : Text} (h : afterLastNewline? t = some rest) :
    Text.ink t = Text.ink rest := by
  induction t generalizing rest with
  | nil => cases h
  | cons c r ih =>
    rw [afterLastNewline?] at h
    split at h
    · next hc =>
      have hcons : Text.ink (c :: r) = Text.ink r := by simp [Text.ink, hc]
      rw [hcons]
      split at h
      · next hrest =>
        cases h
        exact ih hrest
      · split at h <;> cases h
        rfl
    · cases h

/-- Between the paragraphs of a text there are blanks only. -/
theorem ink_flatten_paragraphs (t : Text) : Text.ink (paragraphs t).flatten = Text.ink t := by
  fun_induction paragraphs t with
  | case1 t rest hrest ih =>
    unfold afterBlankLine? at hrest
    split at hrest
    · rw [List.flatten_cons, List.nil_append, ih]
      exact (ink_afterLastNewline? hrest).symm
    · cases hrest
  | case2 => rfl
  | case3 c r _ ih =>
    have hpush : (pushFirst c (paragraphs r)).flatten = [c] ++ (paragraphs r).flatten := by
      cases paragraphs r <;> rfl
    rw [hpush, Text.ink_append, ih, ← Text.ink_append]
    rfl

theorem ink_ofText (t : Text) : Block.ink (Element.ofText t) = (Text.ink t).map .inl := by
  unfold Element.ofText Element.displayOf
  split
  · next hempty =>
    rw [List.isEmpty_iff.1 hempty]
    rfl
  · simp [Block.ink, Element.ink, Text.collapse, Text.ink_collapseFrom]

theorem ink_pushChar (c : Char) (fs : List Fragment) :
    Block.ink ((pushChar c fs).flatMap Fragment.elements) =
      (Text.ink [c]).map .inl ++ Block.ink (fs.flatMap Fragment.elements) := by
  cases fs with
  | nil => exact (ink_ofText [c]).trans (List.append_nil _).symm
  | cons f fs =>
    cases f with
    | text chars =>
      have hcons : Text.ink (c :: chars) = Text.ink [c] ++ Text.ink chars :=
        Text.ink_append [c] chars
      simp only [pushChar, List.flatMap_cons, Fragment.elements, Block.ink_append, ink_ofText,
        hcons, List.map_append, List.append_assoc]
    | tag token =>
      rw [pushChar, List.flatMap_cons, Block.ink_append, Fragment.elements, ink_ofText]
      nofun

theorem isBlank_of_escape? {rest : Text} (h : escape? t = some (c, rest)) :
    Text.isBlank c = false := by
  unfold escape? at h
  split at h
  · split at h
    · cases h
    · next hplain =>
      cases h
      exact (Bool.or_eq_false_iff.1 (Bool.eq_false_iff.2 hplain)).2
  · cases h

/-- A paragraph that is not blank has something to be seen. -/
theorem ink_ofParagraph_ne_nil (h : Text.ink t ≠ []) : (ofParagraph t).ink ≠ [] := by
  unfold ofParagraph
  fun_induction fragments t with
  | case1 t c rest hescape ih =>
    rw [ink_pushChar]
    simp [Text.ink, isBlank_of_escape? hescape]
  | case2 t _ rest _ _ =>
    rw [List.flatMap_cons, Block.ink_append]
    exact List.append_ne_nil_of_left_ne_nil (List.cons_ne_nil _ _) _
  | case3 => exact absurd rfl h
  | case4 c r _ _ ih =>
    rw [ink_pushChar]
    cases hc : Text.isBlank c with
    | false => simp [Text.ink, hc]
    | true =>
      refine List.append_ne_nil_of_right_ne_nil _ (ih ?_)
      rwa [Text.ink, List.filter_cons_of_neg (by simp [hc])] at h

/-- The breaks between paragraphs are not seen, and neither is what is left out at the start. -/
theorem ink_joinParagraphs (blocks : List Block) :
    (joinParagraphs blocks).ink = blocks.flatMap Block.ink := by
  have hjoin (blocks : List Block) :
      Block.ink ([Element.paragraph].intercalate blocks) = blocks.flatMap Block.ink := by
    induction blocks with
    | nil => rfl
    | cons b blocks ih =>
      cases blocks with
      | nil => simp [List.intercalate, Block.ink]
      | cons b' blocks =>
        rw [List.intercalate_cons_cons, List.flatMap_cons, ← ih]
        rw [Block.ink_append, Block.ink_append]
        exact congrArg (· ++ _) (List.append_nil b.ink)
  rw [joinParagraphs, hjoin]
  induction blocks with
  | nil => rfl
  | cons b blocks ih =>
    rw [List.dropWhile_cons]
    split
    · next hempty =>
      rw [List.flatMap_cons, ih, List.isEmpty_iff.1 hempty]
      rfl
    · rfl

/-- Text that is not blank has something to be seen. -/
theorem ink_parse_ne_nil (h : Text.allBlank t = false) : (parse t).ink ≠ [] := by
  have hink : Text.ink t ≠ [] := fun hnil => by
    rw [Text.ink_eq_nil_iff, h] at hnil
    cases hnil
  rw [← ink_flatten_paragraphs, Text.ink, List.filter_flatten, Ne, List.flatten_eq_nil_iff] at hink
  rw [parse, ink_joinParagraphs, List.flatMap_map, Ne, List.flatMap_eq_nil_iff]
  refine fun hnone => hink fun l hl => ?_
  obtain ⟨piece, hpiece, rfl⟩ := List.mem_map.1 hl
  exact by_contra fun hne => ink_ofParagraph_ne_nil hne (hnone piece hpiece)

end Prose

/-- A block that starts with text that is not blank is not empty in normal form either. -/
theorem Block.normalize_parse_append_ne_nil (h : Text.allBlank t = false) (b : Block) :
    normalize (Prose.parse t ++ b) ≠ [] := by
  intro hnil
  have hink := ink_normalize (Prose.parse t ++ b)
  rw [hnil, ink_append] at hink
  exact Prose.ink_parse_ne_nil h (List.append_eq_nil_iff.1 hink.symm).1

end

end ApiDoc
