import ApiDoc.Comment
import ApiDoc.Proofs.Outcome
import ApiDoc.Proofs.Text.Blank
import ApiDoc.Proofs.Text.Split

/-!
# Gutters

How lines are laid out as a comment: each behind a gutter of its own, between the two delimiters
(`Comment.LaysOut`). The body of what has delimiters is what stands between them, line by line less
the gutters (`Comment.body_of_delimited`), and of a line that was written behind a gutter exactly
the gutter is taken off, however the line itself starts (`Comment.WritesLine.dropGutter_eq`). Main
statement: `Comment.body_of_laysOut`, the body of a comment is the lines it was laid out from.
-/

namespace ApiDoc.Comment

/-- What a comment starts with. -/
def opening : Text :=
  ['/', '*', '*']

/-- What a comment ends with. -/
def closing : Text :=
  ['*', '/']

/-- A text of spaces and tabs. -/
def IsIndent (t : Text) : Prop :=
  ∀ c ∈ t, c = ' ' ∨ c = '\t'

/-- How a line is written: behind any indent, a star and a space. The space may be left out where
the line is empty. -/
inductive WritesLine : Text → Text → Prop
  | spaced {indent line : Text} : IsIndent indent → WritesLine line (indent ++ '*' :: ' ' :: line)
  | bare {indent : Text} : IsIndent indent → WritesLine [] (indent ++ ['*'])

/-- Lines are laid out as a comment: what it starts with, every line as it is written, and what it
ends with behind an indent, each on a line of its own. Any blanks may stand around it all. -/
inductive LaysOut : List Text → Text → Prop
  | between {lines written : List Text} {before indent after : Text} :
    List.Forall₂ WritesLine lines written → IsIndent indent →
    (∀ c ∈ before, Text.isBlank c = true) → (∀ c ∈ after, Text.isBlank c = true) →
    LaysOut lines
      (before ++ Text.joinWith ['\n'] (opening :: (written ++ [indent ++ closing])) ++ after)

/-- A text less the gutters of its lines. -/
def dropGutters (t : Text) : Text :=
  Text.joinWith ['\n'] ((Text.splitOn '\n' t).map dropGutter)

section
variable {t inner comment indent line writing : Text} {lines written : List Text}

/-! ## Between the delimiters -/

/-- The delimiters stand around a text, or share their star. -/
theorem isDelimited_iff : isDelimited t = true ↔
    t = ['/', '*', '*', '/'] ∨ ∃ inner, t = opening ++ inner ++ closing := by
  rw [isDelimited, Bool.and_eq_true, List.isPrefixOf_iff_prefix, List.isSuffixOf_iff_suffix]
  constructor
  · rintro ⟨⟨rest, rfl⟩, before, hclose⟩
    rcases List.append_eq_append_iff.1 hclose with ⟨shared, hopening, hrest⟩ | ⟨inner, rfl, rfl⟩
    · -- what the delimiters share ends one of them and starts the other
      match shared with
      | [] =>
        cases hrest
        exact .inr ⟨[], rfl⟩
      | [c] =>
        cases hrest
        exact .inl rfl
      | c :: d :: shared =>
        cases (List.append_eq_nil_iff.1 (List.cons.inj (List.cons.inj hrest).2).2.symm).1
        cases hrest
        have hlast := congrArg List.getLast? hopening
        rw [List.getLast?_append_of_ne_nil _ (List.cons_ne_nil _ _)] at hlast
        cases hlast
    · exact .inr ⟨inner, (List.append_assoc _ _ _).symm⟩
  · rintro (rfl | ⟨inner, rfl⟩)
    · exact ⟨by decide, by decide⟩
    · exact ⟨⟨inner ++ closing, (List.append_assoc _ _ _).symm⟩, ⟨_, rfl⟩⟩

theorem body_eq_self (h : isDelimited (Text.strip comment) = false) : body comment = comment := by
  rw [body, if_neg (Bool.eq_false_iff.1 h)]

/-- Nothing stands between delimiters that share their star. -/
theorem body_of_shared (h : Text.strip comment = ['/', '*', '*', '/']) : body comment = [] := by
  rw [body, h]
  rfl

theorem body_of_delimited (h : Text.strip comment = opening ++ inner ++ closing) :
    body comment = Text.strip (dropGutters inner) := by
  have hdelimited : isDelimited (Text.strip comment) = true :=
    isDelimited_iff.2 (.inr ⟨inner, h⟩)
  have hinner : ((Text.strip comment).take ((Text.strip comment).length - 2)).drop 3 = inner := by
    rw [h, List.length_append, show closing.length = 2 from rfl, Nat.add_sub_cancel,
      List.take_left' rfl]
    exact List.drop_left' rfl
  rw [body, if_pos hdelimited, hinner]
  rfl

/-! ## Lines behind their gutters -/

theorem IsIndent.isBlank (h : IsIndent indent) : ∀ c ∈ indent, Text.isBlank c = true := by
  intro c hc
  rcases h c hc with rfl | rfl <;> decide

theorem IsIndent.not_mem (h : IsIndent indent) : '\n' ∉ indent := by
  intro hmem
  rcases h _ hmem with heq | heq <;> cases heq

/-- An indent is skipped where the gutter is looked for. -/
theorem IsIndent.dropWhile_append (h : IsIndent indent) (t : Text) :
    (indent ++ t).dropWhile (fun c => c = ' ' || c = '\t') =
      t.dropWhile fun c => c = ' ' || c = '\t' :=
  List.dropWhile_append_of_pos fun c hc => by simpa using h c hc

/-- An indent has no gutter. -/
theorem IsIndent.dropGutter_eq (h : IsIndent indent) : dropGutter indent = indent := by
  have hskip := h.dropWhile_append []
  rw [List.append_nil] at hskip
  rw [dropGutter, hskip]
  rfl

/-- Of a line as it is written, exactly the gutter is taken off. -/
theorem WritesLine.dropGutter_eq (h : WritesLine line writing) : dropGutter writing = line := by
  cases h with
  | spaced hindent | bare hindent =>
    rw [dropGutter, hindent.dropWhile_append]
    rfl

theorem WritesLine.not_mem (h : WritesLine line writing) (hline : '\n' ∉ line) :
    '\n' ∉ writing := by
  cases h with
  | spaced hindent | bare hindent => simp [hindent.not_mem, hline]

theorem map_dropGutter (h : List.Forall₂ WritesLine lines written) :
    written.map dropGutter = lines := by
  induction h with
  | nil => rfl
  | cons hline _ ih => rw [List.map_cons, hline.dropGutter_eq, ih]

/-- Between the delimiters stand the lines as they are written, and the indent of the closing
one. -/
theorem dropGutters_joinWith (h : List.Forall₂ WritesLine lines written)
    (hlines : ∀ line ∈ lines, '\n' ∉ line) (hindent : IsIndent indent) :
    dropGutters (Text.joinWith ['\n'] ([] :: (written ++ [indent]))) =
      Text.joinWith ['\n'] ([] :: (lines ++ [indent])) := by
  have hwritten : ∀ writing ∈ written, '\n' ∉ writing := by
    intro writing hmem
    obtain ⟨line, hline, hwrites⟩ := exists_of_forall₂_right h hmem
    exact hwrites.not_mem (hlines line hline)
  have hpieces : ∀ piece ∈ [] :: (written ++ [indent]), '\n' ∉ piece := by
    rw [List.forall_mem_cons, List.forall_mem_append, List.forall_mem_singleton]
    exact ⟨List.not_mem_nil, hwritten, hindent.not_mem⟩
  rw [dropGutters, Text.splitOn_joinWith (List.cons_ne_nil _ _) hpieces]
  rw [List.map_cons, List.map_append, map_dropGutter h, List.map_singleton,
    hindent.dropGutter_eq]
  rfl

/-- The line breaks at the delimiters are trimmed off, and so is the indent of the closing one. -/
theorem strip_joinWith (hindent : IsIndent indent) (lines : List Text) :
    Text.strip (Text.joinWith ['\n'] ([] :: (lines ++ [indent]))) =
      Text.strip (Text.joinWith ['\n'] lines) := by
  rw [Text.joinWith_cons (by simp), List.nil_append, List.singleton_append,
    Text.strip_cons_of_isBlank (by decide)]
  cases lines with
  | nil => exact Text.strip_append_right hindent.isBlank []
  | cons line lines =>
    rw [Text.joinWith_concat (List.cons_ne_nil _ _), Text.strip_append_right hindent.isBlank,
      Text.strip_concat_of_isBlank (by decide)]

/-- The body of a comment is the lines that it was laid out from, whatever they hold, less the
blanks at the two ends. -/
theorem body_of_laysOut (h : LaysOut lines comment) (hlines : ∀ line ∈ lines, '\n' ∉ line) :
    body comment = Text.strip (Text.joinWith ['\n'] lines) := by
  obtain @⟨written, before, indent, after, hwritten, hindent, hbefore, hafter⟩ := h
  have hframed : Text.joinWith ['\n'] (opening :: (written ++ [indent ++ closing])) =
      opening ++ Text.joinWith ['\n'] ([] :: (written ++ [indent])) ++ closing :=
    calc
      _ = Text.joinWith ['\n'] (opening :: (written ++ [indent])) ++ closing :=
        Text.joinWith_concat_append ['\n'] closing indent (opening :: written)
      _ = _ := congrArg (· ++ closing) (Text.joinWith_append_cons ['\n'] opening [] _)
  have htrimmed : Text.strip (before ++ Text.joinWith ['\n']
      (opening :: (written ++ [indent ++ closing])) ++ after) =
        opening ++ Text.joinWith ['\n'] ([] :: (written ++ [indent])) ++ closing := by
    rw [Text.strip_append_right hafter, Text.strip_append_left hbefore, hframed,
      Text.strip_eq_self_iff]
    refine ⟨fun c hc => ?_, fun c hc => ?_⟩
    · cases hc
      decide
    · rw [List.getLast?_append_of_ne_nil _ (by decide)] at hc
      cases hc
      decide
  rw [body_of_delimited htrimmed, dropGutters_joinWith hwritten hlines hindent,
    strip_joinWith hindent]

/-- Lines that look like gutters and delimiters themselves. -/
def starryLines : List Text :=
  ["  a".toList, "* b".toList, [], "*/ /** c ".toList]

/-- These lines as a comment, under indents of every kind. -/
def starryComment : Text :=
  "\n/**\n *   a\n\t* * b\n*\n  * */ /** c \n\t */ ".toList

theorem starryComment_body : LaysOut starryLines starryComment ∧
    (∀ line ∈ starryLines, '\n' ∉ line) ∧
    body starryComment = "a\n* b\n\n*/ /** c".toList := by
  have hindent (t : Text) (h : t.all (fun c => c = ' ' || c = '\t') = true) : IsIndent t := by
    simpa [IsIndent] using h
  have hlaid : LaysOut starryLines starryComment :=
    @LaysOut.between _ [" *   a".toList, "\t* * b".toList, "*".toList, "  * */ /** c ".toList]
      ['\n'] ['\t', ' '] [' ']
      (.cons (.spaced (hindent [' '] rfl)) (.cons (.spaced (hindent ['\t'] rfl))
        (.cons (.bare (hindent [] rfl)) (.cons (.spaced (hindent [' ', ' '] rfl)) .nil))))
      (hindent ['\t', ' '] rfl) (List.forall_mem_singleton.2 rfl) (List.forall_mem_singleton.2 rfl)
  have hlines : ∀ line ∈ starryLines, '\n' ∉ line := by decide
  exact ⟨hlaid, hlines, body_of_laysOut hlaid hlines⟩

end

end ApiDoc.Comment
