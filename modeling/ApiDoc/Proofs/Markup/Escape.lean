import ApiDoc.Proofs.Markup.Prose

/-!
# Text that is escaped

A backslash before every `<` and every backslash makes any text read as text. The escapes pair up
from the left: at each character of the text the reader meets either an escape for it or the
character itself, which then starts neither an escape nor a tag (`Prose.fragments_escapeMarkup`).
Escaping leaves the blank lines where they are, since what it changes is not blank
(`Prose.paragraphs_escapeMarkup`). So every paragraph is read as one text, as it was before it was
escaped (`Prose.parse_escapeMarkup`). Main statement: `Prose.parse_escapeMarkup_eq_ofText`.
-/

namespace ApiDoc

/-- A text with a backslash before every `<` and before every backslash. -/
def Text.escapeMarkup (t : Text) : Text :=
  t.flatMap fun c => if c = '<' ∨ c = '\\' then ['\\', c] else [c]

section
variable {c : Char}

theorem Text.escapeMarkup_cons_of_special (hc : c = '<' ∨ c = '\\') (t : Text) :
    escapeMarkup (c :: t) = '\\' :: c :: escapeMarkup t := by
  rw [escapeMarkup, List.flatMap_cons, if_pos hc]
  rfl

theorem Text.escapeMarkup_cons_of_plain (hc : ¬ (c = '<' ∨ c = '\\')) (t : Text) :
    escapeMarkup (c :: t) = c :: escapeMarkup t := by
  rw [escapeMarkup, List.flatMap_cons, if_neg hc]
  rfl

namespace Prose

/-! ## Blank lines -/

theorem afterLastNewline?_escapeMarkup (t : Text) :
    afterLastNewline? t.escapeMarkup = (afterLastNewline? t).map Text.escapeMarkup := by
  induction t with
  | nil => rfl
  | cons c r ih =>
    by_cases hc : c = '<' ∨ c = '\\'
    · have hblank : Text.isBlank c = false := by rcases hc with rfl | rfl <;> decide
      rw [Text.escapeMarkup_cons_of_special hc, afterLastNewline?_cons_of_not_isBlank hblank,
        afterLastNewline?_cons_of_not_isBlank (by decide)]
      rfl
    · rw [Text.escapeMarkup_cons_of_plain hc, afterLastNewline?, afterLastNewline?, ih]
      split
      · cases afterLastNewline? r with
        | some rest => rfl
        | none =>
          by_cases hnewline : c = '\n'
          · simp [hnewline]
          · simp [hnewline]
      · rfl

theorem afterBlankLine?_escapeMarkup (t : Text) :
    afterBlankLine? t.escapeMarkup = (afterBlankLine? t).map Text.escapeMarkup := by
  cases t with
  | nil => rfl
  | cons c r =>
    by_cases hnewline : c = '\n'
    · subst hnewline
      rw [Text.escapeMarkup_cons_of_plain (by decide)]
      exact afterLastNewline?_escapeMarkup r
    · rw [afterBlankLine?_cons_of_ne hnewline]
      by_cases hc : c = '<' ∨ c = '\\'
      · rw [Text.escapeMarkup_cons_of_special hc, afterBlankLine?_cons_of_ne (by decide)]
        rfl
      · rw [Text.escapeMarkup_cons_of_plain hc, afterBlankLine?_cons_of_ne hnewline]
        rfl

/-- An escaped text has the pieces of the text, each of them escaped. -/
theorem paragraphs_escapeMarkup (t : Text) :
    paragraphs t.escapeMarkup = (paragraphs t).map Text.escapeMarkup := by
  fun_induction paragraphs t with
  | case1 t rest hrest ih =>
    have hescaped : afterBlankLine? t.escapeMarkup = some rest.escapeMarkup := by
      rw [afterBlankLine?_escapeMarkup, hrest]
      rfl
    rw [paragraphs_of_afterBlankLine? hescaped, ih]
    rfl
  | case2 => rw [Text.escapeMarkup, List.flatMap_nil, paragraphs]; rfl
  | case3 c r hnone ih =>
    obtain ⟨p, ps, hpieces, -⟩ := exists_paragraphs_eq_cons r
    rw [hpieces, List.map_cons] at ih
    rw [hpieces, pushFirst, List.map_cons]
    by_cases hc : c = '<' ∨ c = '\\'
    · have hnewline : c ≠ '\n' := by rcases hc with rfl | rfl <;> decide
      rw [Text.escapeMarkup_cons_of_special hc, Text.escapeMarkup_cons_of_special hc,
        paragraphs_cons_of_ne (by decide), paragraphs_cons_of_ne hnewline, ih]
      rfl
    · have hescaped := afterBlankLine?_escapeMarkup (c :: r)
      rw [hnone, Text.escapeMarkup_cons_of_plain hc] at hescaped
      rw [Text.escapeMarkup_cons_of_plain hc, Text.escapeMarkup_cons_of_plain hc,
        paragraphs_cons hescaped, ih]
      rfl

/-! ## Escapes and tags -/

/-- The characters of an escaped text are read one after the other, each of them as text. -/
theorem fragments_escapeMarkup (t : Text) : fragments t.escapeMarkup = t.foldr pushChar [] := by
  induction t with
  | nil =>
    rw [Text.escapeMarkup, List.flatMap_nil, fragments]
    rfl
  | cons c r ih =>
    rw [List.foldr_cons, ← ih]
    by_cases hc : c = '<' ∨ c = '\\'
    · have hescape (u : Text) : escape? ('\\' :: c :: u) = some (c, u) := by
        rcases hc with rfl | rfl <;> rfl
      rw [Text.escapeMarkup_cons_of_special hc, fragments_of_escape? (hescape _)]
    · obtain ⟨htag, hescape⟩ := not_or.1 hc
      rw [Text.escapeMarkup_cons_of_plain hc, fragments_cons_of_plain hescape htag]

theorem foldr_pushChar_cons (c : Char) (t : Text) :
    (c :: t).foldr pushChar [] = [.text (c :: t)] := by
  induction t generalizing c with
  | nil => rfl
  | cons d t ih =>
    rw [List.foldr_cons, ih]
    rfl

/-- An escaped paragraph is read as one text. -/
theorem ofParagraph_escapeMarkup (p : Text) : ofParagraph p.escapeMarkup = Element.ofText p := by
  rw [ofParagraph, fragments_escapeMarkup]
  cases p with
  | nil => rfl
  | cons c r =>
    rw [foldr_pushChar_cons]
    exact List.append_nil _

/-- Of an escaped text one text is read for each paragraph. -/
theorem parse_escapeMarkup (t : Text) :
    parse t.escapeMarkup = joinParagraphs ((paragraphs t).map Element.ofText) := by
  rw [parse, paragraphs_escapeMarkup, List.map_map]
  exact congrArg joinParagraphs (List.map_congr_left fun p _ => ofParagraph_escapeMarkup p)

/-- Escaping is undone. Of an escaped text without a blank line its text elements are read and no
others: all of the text as it was, with its runs of blanks collapsed. -/
theorem parse_escapeMarkup_eq_ofText {t : Text} (h : ¬ t.HasBlankLine) :
    parse t.escapeMarkup = Element.ofText t ∧
      ∀ e ∈ parse t.escapeMarkup, e = .text (Text.collapse t) := by
  have hparse : parse t.escapeMarkup = Element.ofText t := by
    rw [parse_escapeMarkup, paragraphs_eq_singleton_iff.2 h, List.map_singleton,
      joinParagraphs_singleton]
  refine ⟨hparse, fun e he => ?_⟩
  rw [hparse, Element.ofText, Element.displayOf] at he
  split at he
  · cases he
  · exact List.mem_singleton.1 he

/-- Escapes before an escape and a tag, and a tag over two lines that is not closed. -/
theorem nestedEscape_eq_ofText :
    (¬ Text.HasBlankLine "\\\\<b class=\"x\">\\</b>\n <i".toList) ∧
    parse (Text.escapeMarkup "\\\\<b class=\"x\">\\</b>\n <i".toList) =
      [.text "\\\\<b class=\"x\">\\</b> <i".toList] := by
  have hblank : ¬ Text.HasBlankLine "\\\\<b class=\"x\">\\</b>\n <i".toList :=
    paragraphs_eq_singleton_iff.1 (by cbv)
  exact ⟨hblank, (parse_escapeMarkup_eq_ofText hblank).1.trans (by decide)⟩

end Prose

end

end ApiDoc
