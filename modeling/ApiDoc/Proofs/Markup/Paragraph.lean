import Mathlib.Data.List.ModifyLast
import ApiDoc.Proofs.Markup.NormalForm

/-!
# A paragraph in one go

In a paragraph the texts are joined for good in the first pass: no two of them ever stand side by
side again (`Block.IsJoined`). The first pass also trims the first text and the last one, and the
second pass has no more to do than to drop those that it trimmed to nothing. So two passes put a
paragraph in order (`Block.tidyParagraph_eq_pass_pass`), and a third one changes nothing.
-/

namespace ApiDoc

/-- The element with its text changed, if it is a text. -/
def Element.mapText (f : Text → Text) : Element → Element
  | text chars => text (f chars)
  | e => e

namespace Block

/-- Neighbouring texts put together. -/
def concatTexts : Block → Block
  | .text chars :: .text more :: b => concatTexts (.text (chars ++ more) :: b)
  | e :: b => e :: concatTexts b
  | [] => []
termination_by b => b.length

/-- A paragraph in order: its texts are put together, the first one loses the blanks at the start
and the last one those at the end, and a text of which nothing is left is dropped. -/
def tidyParagraph (p : Block) : Block :=
  ((concatTexts p).modifyHead (Element.mapText Text.stripLeft)
    |>.modifyLast (Element.mapText Text.stripRight)).filter (· ≠ .text [])

section
variable {p : Block}

/-! ## Breaks behind a paragraph -/

theorem dropRepeatedBreaks_append (afterBreak : Bool) (hp : .paragraph ∉ p) (hne : p ≠ [])
    (b : Block) :
    dropRepeatedBreaks afterBreak (p ++ b) = p ++ dropRepeatedBreaks false b := by
  induction p generalizing afterBreak with
  | nil => exact absurd rfl hne
  | cons e p ih =>
    rw [List.mem_cons, not_or] at hp
    have hrest : dropRepeatedBreaks false (p ++ b) = p ++ dropRepeatedBreaks false b := by
      cases p with
      | nil => rfl
      | cons f p => exact ih false hp.2 (List.cons_ne_nil f p)
    cases e with
    | paragraph => exact absurd rfl hp.1
    | text | htmlTag | webLink | itemLink =>
      cases afterBreak <;> exact congrArg (_ :: ·) hrest

theorem dropFinalBreaks_append (hp : .paragraph ∉ p) (b : Block) :
    dropFinalBreaks (p ++ b) = p ++ dropFinalBreaks b := by
  induction p with
  | nil => rfl
  | cons e p ih =>
    rw [List.mem_cons, not_or] at hp
    rw [List.cons_append, dropFinalBreaks, ih hp.2]
    cases hrest : p ++ dropFinalBreaks b with
    | nil =>
      rw [List.cons_append, hrest]
      exact if_neg (Ne.symm hp.1)
    | cons f rest => rw [List.cons_append, hrest]

/-- A paragraph has no breaks to drop. -/
theorem dropBreaks_of_not_mem (hp : .paragraph ∉ p) :
    dropFinalBreaks (dropRepeatedBreaks true p) = p := by
  by_cases hne : p = []
  · rw [hne]
    rfl
  · have hrepeated := dropRepeatedBreaks_append true hp hne []
    have hfinal := dropFinalBreaks_append hp []
    simp only [List.append_nil, dropRepeatedBreaks, dropFinalBreaks] at hrepeated hfinal
    rw [hrepeated, hfinal]

/-! ## Texts that are joined -/

/-- A piece of a paragraph in which no two texts stand side by side. -/
inductive IsJoined : Block → Prop
  | nil : IsJoined []
  | solid {e : Element} {p : Block} : e.IsSolid → IsJoined p → IsJoined (e :: p)
  | text (chars : Text) : IsJoined [.text chars]
  | textSolid (chars : Text) {e : Element} {p : Block} :
    e.IsSolid → IsJoined p → IsJoined (.text chars :: e :: p)

/-- A text less the blanks before it, if a paragraph starts with it. -/
def trimOpening (atStart : Bool) (chars : Text) : Text :=
  if atStart then Text.stripLeft chars else chars

theorem trimOpening_trimOpening (atStart : Bool) (chars : Text) :
    trimOpening atStart (trimOpening atStart chars) = trimOpening atStart chars := by
  cases atStart with
  | false => rfl
  | true => exact List.dropWhile_idempotent ..

theorem stripRight_trimOpening (atStart : Bool) (chars : Text) :
    Text.stripRight (trimOpening atStart (Text.stripRight (trimOpening atStart chars))) =
      Text.stripRight (trimOpening atStart chars) := by
  cases atStart with
  | false => exact Text.stripRight_stripRight chars
  | true => exact Text.strip_strip chars

theorem trimTexts_text (atStart : Bool) (chars : Text) :
    trimTexts atStart [.text chars] = [.text (Text.stripRight (trimOpening atStart chars))] := rfl

section
variable {e : Element}

theorem joinTexts_cons_of_isSolid (he : e.IsSolid) : joinTexts (e :: p) = e :: joinTexts p := by
  cases e with
  | text | paragraph => exact he.elim
  | htmlTag | webLink | itemLink => rfl

theorem dropEmpty_cons_of_isSolid (he : e.IsSolid) : dropEmpty (e :: p) = e :: dropEmpty p := by
  cases e with
  | text | paragraph => exact he.elim
  | htmlTag | webLink | itemLink => rfl

theorem trimTexts_cons_of_isSolid (he : e.IsSolid) (atStart : Bool) :
    trimTexts atStart (e :: p) = e :: trimTexts false p := by
  cases e with
  | text | paragraph => exact he.elim
  | htmlTag | webLink | itemLink => cases atStart <;> rfl

theorem pushText_cons_of_isSolid (he : e.IsSolid) (chars : Text) :
    pushText chars (e :: p) = .text chars :: e :: p := by
  cases e with
  | text | paragraph => exact he.elim
  | htmlTag | webLink | itemLink => rfl

theorem trimTexts_text_cons_of_isSolid (he : e.IsSolid) (atStart : Bool) (chars : Text) :
    trimTexts atStart (.text chars :: e :: p) =
      .text (trimOpening atStart chars) :: e :: trimTexts false p := by
  cases e with
  | text | paragraph => exact he.elim
  | htmlTag | webLink | itemLink => rfl

end

theorem dropEmpty_cons_text (chars : Text) (p : Block) : dropEmpty (.text chars :: p) =
    if chars = [] then dropEmpty p else .text chars :: dropEmpty p := by
  cases chars <;> rfl

/-- A text in front of joined texts joins the first of them, if that comes next. -/
theorem IsJoined.pushText (h : IsJoined p) (chars : Text) : IsJoined (pushText chars p) := by
  cases h with
  | nil => exact .text chars
  | solid he hp =>
    rw [pushText_cons_of_isSolid he]
    exact .textSolid chars he hp
  | text more => exact .text (chars ++ more)
  | textSolid more he hp => exact .textSolid (chars ++ more) he hp

theorem isJoined_joinTexts (hp : .paragraph ∉ p) : IsJoined (joinTexts p) := by
  induction p with
  | nil => exact .nil
  | cons e p ih =>
    rw [List.mem_cons, not_or] at hp
    cases e with
    | text chars => exact (ih hp.2).pushText chars
    | paragraph => exact absurd rfl hp.1
    | htmlTag | webLink | itemLink => exact .solid trivial (ih hp.2)

theorem dropEmpty_pushText_nil (p : Block) : dropEmpty (pushText [] p) = dropEmpty p := by
  cases p with
  | nil => rfl
  | cons e p => cases e <;> rfl

namespace IsJoined

theorem break_not_mem (h : IsJoined p) : .paragraph ∉ p := by
  induction h with
  | nil => exact List.not_mem_nil
  | @solid e p he _ ih =>
    have hne : e ≠ .paragraph := by
      rintro rfl
      exact he.elim
    simp [hne.symm, ih]
  | text chars => simp
  | @textSolid chars e p he _ ih =>
    have hne : e ≠ .paragraph := by
      rintro rfl
      exact he.elim
    simp [hne.symm, ih]

theorem joinTexts_eq_self (h : IsJoined p) : joinTexts p = p := by
  induction h with
  | nil => rfl
  | solid he _ ih => rw [joinTexts_cons_of_isSolid he, ih]
  | text chars => rfl
  | textSolid chars he _ ih =>
    rw [joinTexts, joinTexts_cons_of_isSolid he, ih, pushText_cons_of_isSolid he]

theorem dropEmpty (h : IsJoined p) : IsJoined (dropEmpty p) := by
  induction h with
  | nil => exact .nil
  | solid he _ ih =>
    rw [dropEmpty_cons_of_isSolid he]
    exact .solid he ih
  | text chars =>
    rw [dropEmpty_cons_text]
    split
    · exact .nil
    · exact .text chars
  | textSolid chars he _ ih =>
    rw [dropEmpty_cons_text, dropEmpty_cons_of_isSolid he]
    split
    · exact .solid he ih
    · exact .textSolid chars he ih

theorem trimTexts (h : IsJoined p) (atStart : Bool) : IsJoined (trimTexts atStart p) := by
  induction h generalizing atStart with
  | nil => cases atStart <;> exact .nil
  | solid he _ ih =>
    rw [trimTexts_cons_of_isSolid he]
    exact .solid he (ih false)
  | text chars => exact .text _
  | textSolid chars he _ ih =>
    rw [Block.trimTexts, trimTexts_cons_of_isSolid he]
    exact .textSolid _ he (ih false)

/-- Whether the empty texts go before or after the texts are joined does not matter. -/
theorem dropEmpty_pushText (h : IsJoined p) {chars : Text} (hne : chars ≠ []) :
    Block.dropEmpty (Block.pushText chars p) = Block.pushText chars (Block.dropEmpty p) := by
  cases h with
  | nil => exact (dropEmpty_cons_text chars []).trans (if_neg hne)
  | solid he hp =>
    rw [pushText_cons_of_isSolid he, dropEmpty_cons_text, if_neg hne,
      dropEmpty_cons_of_isSolid he, pushText_cons_of_isSolid he]
  | text more =>
    rw [Block.pushText, dropEmpty_cons_text, dropEmpty_cons_text, if_neg (by simp [hne])]
    split
    · next hmore =>
      rw [hmore, List.append_nil]
      rfl
    · rfl
  | textSolid more he hp =>
    rw [Block.pushText, dropEmpty_cons_text, dropEmpty_cons_text, if_neg (by simp [hne]),
      dropEmpty_cons_of_isSolid he]
    split
    · next hmore => rw [hmore, pushText_cons_of_isSolid he, List.append_nil]
    · rfl

/-- A text that is trimmed to nothing may be dropped before or after it is. -/
theorem dropEmpty_trimTexts_dropEmpty (h : IsJoined p) (atStart : Bool) :
    Block.dropEmpty (Block.trimTexts atStart (Block.dropEmpty p)) =
      Block.dropEmpty (Block.trimTexts atStart p) := by
  induction h generalizing atStart with
  | nil => rfl
  | solid he _ ih =>
    rw [dropEmpty_cons_of_isSolid he, trimTexts_cons_of_isSolid he, trimTexts_cons_of_isSolid he,
      dropEmpty_cons_of_isSolid he, dropEmpty_cons_of_isSolid he, ih]
  | text chars =>
    rw [dropEmpty_cons_text]
    split
    · next hchars =>
      subst hchars
      cases atStart <;> rfl
    · rfl
  | textSolid chars he _ ih =>
    rw [dropEmpty_cons_text, dropEmpty_cons_of_isSolid he, trimTexts_text_cons_of_isSolid he,
      dropEmpty_cons_text, dropEmpty_cons_of_isSolid he]
    split
    · next hchars =>
      have hnothing : trimOpening atStart chars = [] := by
        subst hchars
        cases atStart <;> rfl
      rw [if_pos hnothing, trimTexts_cons_of_isSolid he, dropEmpty_cons_of_isSolid he, ih]
    · rw [trimTexts_text_cons_of_isSolid he, dropEmpty_cons_text, dropEmpty_cons_of_isSolid he, ih]

/-- What was trimmed and has lost its empty texts has nothing left to trim. -/
theorem trimTexts_dropEmpty_trimTexts (h : IsJoined p) (atStart : Bool) :
    Block.trimTexts atStart (Block.dropEmpty (Block.trimTexts atStart p)) =
      Block.dropEmpty (Block.trimTexts atStart p) := by
  induction h generalizing atStart with
  | nil => cases atStart <;> rfl
  | solid he _ ih =>
    rw [trimTexts_cons_of_isSolid he, dropEmpty_cons_of_isSolid he, trimTexts_cons_of_isSolid he,
      ih]
  | text chars =>
    rw [trimTexts_text, dropEmpty_cons_text]
    split
    · cases atStart <;> rfl
    · exact (trimTexts_text ..).trans
        (congrArg (fun left => [Element.text left]) (stripRight_trimOpening atStart chars))
  | textSolid chars he _ ih =>
    rw [trimTexts_text_cons_of_isSolid he, dropEmpty_cons_text, dropEmpty_cons_of_isSolid he]
    split
    · rw [trimTexts_cons_of_isSolid he, ih]
    · rw [trimTexts_text_cons_of_isSolid he, trimOpening_trimOpening, ih]

end IsJoined

/-- Whether empty texts go before or after the texts of a paragraph are joined does not matter. -/
theorem joinTexts_dropEmpty (hp : .paragraph ∉ p) :
    joinTexts (dropEmpty p) = dropEmpty (joinTexts p) := by
  induction p with
  | nil => rfl
  | cons e p ih =>
    rw [List.mem_cons, not_or] at hp
    cases e with
    | text chars =>
      rw [dropEmpty_cons_text, joinTexts]
      split
      · next hchars =>
        rw [ih hp.2, hchars, dropEmpty_pushText_nil]
      · next hchars =>
        rw [joinTexts, ih hp.2, (isJoined_joinTexts hp.2).dropEmpty_pushText hchars]
    | paragraph => exact absurd rfl hp.1
    | htmlTag | webLink | itemLink => exact congrArg (_ :: ·) (ih hp.2)

/-! ## The passes over a paragraph -/

/-- A pass over one paragraph works on its texts only. -/
theorem pass_of_not_mem (hp : .paragraph ∉ p) :
    pass p = trimTexts true (dropEmpty (joinTexts p)) := by
  have hbreak := (isJoined_joinTexts hp).dropEmpty.break_not_mem
  rw [pass, joinTexts_dropEmpty hp, dropBreaks_of_not_mem hbreak]

theorem isJoined_pass (hp : .paragraph ∉ p) : IsJoined (pass p) := by
  rw [pass_of_not_mem hp]
  exact (isJoined_joinTexts hp).dropEmpty.trimTexts true

/-- A second pass over a paragraph drops the texts that the first one left empty. -/
theorem pass_pass_of_not_mem (hp : .paragraph ∉ p) :
    pass (pass p) = dropEmpty (trimTexts true (joinTexts p)) := by
  have hjoined := isJoined_joinTexts hp
  have hfirst := isJoined_pass hp
  rw [pass_of_not_mem hfirst.break_not_mem, hfirst.joinTexts_eq_self, pass_of_not_mem hp,
    hjoined.dropEmpty_trimTexts_dropEmpty, hjoined.trimTexts_dropEmpty_trimTexts]

/-- A third pass over a paragraph changes nothing. -/
theorem pass_pass_pass_of_not_mem (hp : .paragraph ∉ p) :
    pass (pass (pass p)) = pass (pass p) := by
  have hjoined := isJoined_joinTexts hp
  have hsecond := (hjoined.trimTexts true).dropEmpty
  have htwice : dropEmpty (dropEmpty (trimTexts true (joinTexts p))) =
      dropEmpty (trimTexts true (joinTexts p)) := by
    simp only [dropEmpty, List.filter_filter, Bool.and_self]
  rw [pass_pass_of_not_mem hp, pass_of_not_mem hsecond.break_not_mem, hsecond.joinTexts_eq_self,
    htwice, hjoined.trimTexts_dropEmpty_trimTexts]

/-! ## One paragraph in order -/

theorem concatTexts_eq_joinTexts (b : Block) : concatTexts b = joinTexts b := by
  fun_induction concatTexts b with
  | case1 chars more b ih =>
    rw [ih, joinTexts, joinTexts, joinTexts]
    cases joinTexts b with
    | nil => rfl
    | cons e b => cases e <;> simp [pushText]
  | case2 e b hnext ih =>
    rw [ih]
    cases e with
    | text chars =>
      cases b with
      | nil => rfl
      | cons f b =>
        cases f with
        | text more => exact (hnext chars more b rfl rfl).elim
        | paragraph | htmlTag | webLink | itemLink => rfl
    | paragraph | htmlTag | webLink | itemLink => rfl
  | case3 => rfl

theorem trimTexts_false_eq_modifyLast (hp : .paragraph ∉ p) :
    trimTexts false p = p.modifyLast (Element.mapText Text.stripRight) := by
  induction p with
  | nil => rfl
  | cons e p ih =>
    rw [List.mem_cons, not_or] at hp
    cases p with
    | nil =>
      cases e with
      | paragraph => exact absurd rfl hp.1
      | text | htmlTag | webLink | itemLink => rfl
    | cons f p =>
      have hlast := List.modifyLast_append_of_right_ne_nil (Element.mapText Text.stripRight) [e]
        (f :: p) (List.cons_ne_nil f p)
      rw [List.singleton_append, ← ih hp.2] at hlast
      rw [hlast]
      cases e with
      | paragraph => exact absurd rfl hp.1
      | text chars =>
        cases f with
        | paragraph => exact absurd List.mem_cons_self hp.2
        | text | htmlTag | webLink | itemLink => rfl
      | htmlTag | webLink | itemLink => rfl

theorem trimTexts_true_eq_modify (hp : .paragraph ∉ p) : trimTexts true p =
    (p.modifyHead (Element.mapText Text.stripLeft)).modifyLast
      (Element.mapText Text.stripRight) := by
  cases p with
  | nil => rfl
  | cons e p =>
    rw [List.mem_cons, not_or] at hp
    have hhead : .paragraph ∉ Element.mapText Text.stripLeft e :: p := by
      cases e with
      | paragraph => exact absurd rfl hp.1
      | text | htmlTag | webLink | itemLink => simp [Element.mapText, hp.2]
    rw [List.modifyHead_cons, ← trimTexts_false_eq_modifyLast hhead]
    cases e with
    | paragraph => exact absurd rfl hp.1
    | text | htmlTag | webLink | itemLink => rfl

theorem dropEmpty_eq_filter (b : Block) : dropEmpty b = b.filter (· ≠ .text []) := by
  refine List.filter_congr fun e _ => ?_
  cases e with
  | text chars => cases chars <;> simp [isEmptyText]
  | paragraph | htmlTag | webLink | itemLink => rfl

/-- Two passes put a paragraph in order. -/
theorem tidyParagraph_eq_pass_pass (hp : .paragraph ∉ p) : tidyParagraph p = pass (pass p) := by
  rw [pass_pass_of_not_mem hp, dropEmpty_eq_filter,
    trimTexts_true_eq_modify (isJoined_joinTexts hp).break_not_mem, tidyParagraph,
    concatTexts_eq_joinTexts]

end

end Block

end ApiDoc
