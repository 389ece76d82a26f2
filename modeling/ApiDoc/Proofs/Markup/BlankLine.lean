import Mathlib.Data.List.ReduceOption
import Mathlib.Data.List.SplitBy
import ApiDoc.Markup.Prose
import ApiDoc.Proofs.Text.Blank

/-!
# Blank lines

The paragraphs of a text are what its blank lines leave. A blank line reaches from one newline to
another, with blanks between them, and as far as it can: in a run of blanks it begins at the first
newline and ends at the last one (`Prose.afterLastNewline?_eq_some_iff`). So the pieces are those
that one gets by looking at the runs of blanks alone (`Text.cutAtBlankLines`,
`Prose.paragraphs_eq_cutAtBlankLines`). No piece has a blank line in it, and only the first piece
and the last one can be blank (`Prose.allBlank_of_mem_inner`).
-/

namespace ApiDoc

namespace Text

/-- The longest runs of characters that are all blank or all not. -/
def runs (t : Text) : List Text :=
  t.splitBy fun c d => isBlank c == isBlank d

/-- The characters of a run. In a run of blanks with two newlines or more, a mark stands for
everything from the first newline to the last one. -/
def markRun (run : Text) : List (Option Char) :=
  if allBlank run ∧ 2 ≤ run.count '\n' then
    (run.takeWhile (· ≠ '\n')).map some ++ none :: (run.rtakeWhile (· ≠ '\n')).map some
  else run.map some

/-- The texts between the marks. -/
def cutAtMarks (marked : List (Option Char)) : List Text :=
  (marked.splitOn none).map List.reduceOption

/-- The pieces of a text that is cut at every run of blanks with two newlines or more, from the
first newline of the run to the last one. -/
def cutAtBlankLines (t : Text) : List Text :=
  cutAtMarks ((runs t).flatMap markRun)

/-- Two newlines with blanks between them. -/
def IsBlankLine (t : Text) : Prop :=
  ∃ blanks, allBlank blanks = true ∧ t = '\n' :: (blanks ++ ['\n'])

/-- A part of the text is a blank line. -/
def HasBlankLine (t : Text) : Prop :=
  ∃ gap, IsBlankLine gap ∧ gap <:+: t

/-- The text ends with a blank line. -/
def EndsInBlankLine (t : Text) : Prop :=
  ∃ gap, IsBlankLine gap ∧ gap <:+ t

end Text

namespace Prose

section
variable {c : Char} {t rest u gap p : Text}

/-! ## Where a blank line ends -/

theorem afterLastNewline?_cons_of_not_isBlank (h : Text.isBlank c = false) (t : Text) :
    afterLastNewline? (c :: t) = none := by
  rw [afterLastNewline?, h]
  rfl

theorem afterBlankLine?_cons_of_ne (h : c ≠ '\n') (t : Text) :
    afterBlankLine? (c :: t) = none := by
  unfold afterBlankLine?
  split
  · next heq =>
    cases heq
    exact absurd rfl h
  · rfl

theorem afterLastNewline?_eq_none (h : '\n' ∉ t.takeWhile Text.isBlank) :
    afterLastNewline? t = none := by
  induction t with
  | nil => rfl
  | cons c r ih =>
    rw [afterLastNewline?]
    split
    · next hc =>
      rw [List.takeWhile_cons_of_pos hc, List.mem_cons, not_or] at h
      rw [ih h.2]
      exact if_neg (Ne.symm h.1)
    · rfl

/-- A blank line that has begun ends behind a newline with only blanks before it, and at the last
one of that kind. -/
theorem afterLastNewline?_eq_some_iff : afterLastNewline? t = some rest ↔
    ∃ blanks, Text.allBlank blanks = true ∧ t = blanks ++ '\n' :: rest ∧
      afterLastNewline? rest = none := by
  constructor
  · intro h
    induction t with
    | nil => cases h
    | cons c r ih =>
      rw [afterLastNewline?] at h
      split at h
      · next hc =>
        split at h
        · next hr =>
          cases h
          obtain ⟨blanks, hblanks, rfl, hlast⟩ := ih hr
          refine ⟨c :: blanks, ?_, rfl, hlast⟩
          rw [Text.allBlank, List.all_cons, hc]
          exact hblanks
        · next hlast =>
          split at h
          · next hnewline =>
            cases h
            exact ⟨[], rfl, by rw [hnewline]; rfl, hlast⟩
          · cases h
      · cases h
  · rintro ⟨blanks, hblanks, rfl, hlast⟩
    induction blanks with
    | nil =>
      rw [List.nil_append, afterLastNewline?, if_pos (by decide), hlast]
      exact if_pos rfl
    | cons c blanks ih =>
      rw [Text.allBlank, List.all_cons, Bool.and_eq_true] at hblanks
      rw [List.cons_append, afterLastNewline?, if_pos hblanks.1, ih hblanks.2]

/-- There is an end if there is any newline with only blanks before it. -/
theorem exists_afterLastNewline? {blanks : Text} (h : Text.allBlank blanks = true) (t : Text) :
    ∃ rest, afterLastNewline? (blanks ++ '\n' :: t) = some rest := by
  cases ht : afterLastNewline? t with
  | none => exact ⟨t, afterLastNewline?_eq_some_iff.2 ⟨blanks, h, rfl, ht⟩⟩
  | some rest =>
    obtain ⟨blanks', h', rfl, hlast⟩ := afterLastNewline?_eq_some_iff.1 ht
    refine ⟨rest, afterLastNewline?_eq_some_iff.2 ⟨blanks ++ '\n' :: blanks', ?_, ?_, hlast⟩⟩
    · unfold Text.allBlank at h h' ⊢
      rw [List.all_append, List.all_cons, h, h']
      decide
    · rw [List.append_assoc, List.cons_append]

/-- What is cut off is a blank line, and no other newline can be added to it. -/
theorem exists_gap_of_afterBlankLine? (h : afterBlankLine? t = some rest) :
    ∃ gap, Text.IsBlankLine gap ∧ t = gap ++ rest ∧ afterLastNewline? rest = none := by
  unfold afterBlankLine? at h
  split at h
  · obtain ⟨blanks, hblanks, rfl, hlast⟩ := afterLastNewline?_eq_some_iff.1 h
    exact ⟨_, ⟨blanks, hblanks, rfl⟩, by simp, hlast⟩
  · cases h

/-- Where no blank line is cut off, none begins. -/
theorem not_prefix_of_afterBlankLine? (h : afterBlankLine? t = none) (hgap : Text.IsBlankLine gap) :
    ¬ gap <+: t := by
  rintro ⟨more, rfl⟩
  obtain ⟨blanks, hblanks, rfl⟩ := hgap
  obtain ⟨rest, hrest⟩ := exists_afterLastNewline? hblanks more
  rw [List.cons_append, List.append_assoc, afterBlankLine?] at h
  rw [show ['\n'] ++ more = '\n' :: more from rfl, hrest] at h
  cases h

/-! ## The pieces -/

theorem paragraphs_of_afterBlankLine? (h : afterBlankLine? t = some rest) :
    paragraphs t = [] :: paragraphs rest := by
  rw [paragraphs]
  split
  · next hrest =>
    rw [h] at hrest
    cases hrest
    rfl
  · next hnone =>
    rw [h] at hnone
    cases hnone

theorem paragraphs_cons (h : afterBlankLine? (c :: t) = none) :
    paragraphs (c :: t) = pushFirst c (paragraphs t) := by
  rw [paragraphs]
  split
  · next hsome =>
    rw [h] at hsome
    cases hsome
  · rfl

theorem paragraphs_cons_of_ne (h : c ≠ '\n') (t : Text) :
    paragraphs (c :: t) = pushFirst c (paragraphs t) :=
  paragraphs_cons (afterBlankLine?_cons_of_ne h t)

/-- Text without newlines belongs to the first piece. -/
theorem paragraphs_append_of_not_mem (h : '\n' ∉ u) (t : Text) :
    paragraphs (u ++ t) = u.foldr pushFirst (paragraphs t) := by
  induction u with
  | nil => rfl
  | cons c u ih =>
    rw [List.mem_cons, not_or] at h
    rw [List.cons_append, paragraphs_cons_of_ne (Ne.symm h.1), ih h.2, List.foldr_cons]

/-- There is a first piece, and the text starts with it. -/
theorem exists_paragraphs_eq_cons (t : Text) : ∃ p ps, paragraphs t = p :: ps ∧ p <+: t := by
  fun_induction paragraphs t with
  | case1 t rest _ _ => exact ⟨[], paragraphs rest, rfl, List.nil_prefix⟩
  | case2 => exact ⟨[], [], rfl, List.nil_prefix⟩
  | case3 c r _ ih =>
    obtain ⟨p, ps, hpieces, hp⟩ := ih
    exact ⟨c :: p, ps, by rw [hpieces]; rfl, List.cons_prefix_cons.2 ⟨rfl, hp⟩⟩

theorem paragraphs_ne_nil (t : Text) : paragraphs t ≠ [] := by
  obtain ⟨p, ps, hpieces, -⟩ := exists_paragraphs_eq_cons t
  rw [hpieces]
  exact List.cons_ne_nil p ps

/-- A text without a blank line is not cut. -/
theorem paragraphs_eq_singleton_iff : paragraphs t = [t] ↔ ¬ Text.HasBlankLine t := by
  fun_induction paragraphs t with
  | case1 t rest hrest _ =>
    obtain ⟨gap, hgap, rfl, -⟩ := exists_gap_of_afterBlankLine? hrest
    refine iff_of_false ?_ (not_not.2 ⟨gap, hgap, (List.prefix_append gap rest).isInfix⟩)
    simp [paragraphs_ne_nil rest]
  | case2 =>
    refine iff_of_true rfl ?_
    rintro ⟨gap, ⟨blanks, -, rfl⟩, hinfix⟩
    exact absurd (List.infix_nil.1 hinfix) (List.cons_ne_nil _ _)
  | case3 c r hnone ih =>
    have hrest : Text.HasBlankLine (c :: r) ↔ Text.HasBlankLine r := by
      refine exists_congr fun gap => and_congr_right fun hgap => ?_
      rw [List.infix_cons_iff]
      exact or_iff_right (not_prefix_of_afterBlankLine? hnone hgap)
    rw [hrest, ← ih]
    obtain ⟨p, ps, hpieces, -⟩ := exists_paragraphs_eq_cons r
    simp [hpieces, pushFirst]

/-- No piece has a blank line in it. -/
theorem not_hasBlankLine_of_mem (hp : p ∈ paragraphs t) : ¬ Text.HasBlankLine p := by
  have hnil : ¬ Text.HasBlankLine [] := paragraphs_eq_singleton_iff.1 (by rw [paragraphs]; rfl)
  fun_induction paragraphs t generalizing p with
  | case1 t rest _ ih =>
    rcases List.mem_cons.1 hp with rfl | hp
    · exact hnil
    · exact ih hp
  | case2 => exact List.mem_singleton.1 hp ▸ hnil
  | case3 c r hnone ih =>
    obtain ⟨q, ps, hpieces, hq⟩ := exists_paragraphs_eq_cons r
    rw [hpieces, pushFirst] at hp
    rcases List.mem_cons.1 hp with rfl | hp
    · rintro ⟨gap, hgap, hinfix⟩
      rcases List.infix_cons_iff.1 hinfix with hstart | hinfix
      · refine not_prefix_of_afterBlankLine? hnone hgap (hstart.trans ?_)
        exact List.cons_prefix_cons.2 ⟨rfl, hq⟩
      · exact ih (hpieces ▸ List.mem_cons_self) ⟨gap, hgap, hinfix⟩
    · exact ih (hpieces ▸ List.mem_cons_of_mem q hp)

/-! ## Pieces of which nothing is seen -/

/-- What follows a blank line starts with a piece that is not blank, or it is the last piece. -/
theorem first_of_afterLastNewline? (h : afterLastNewline? t = none) :
    (∃ p, paragraphs t = [p]) ∨ ∃ p ps, paragraphs t = p :: ps ∧ Text.allBlank p = false := by
  induction t with
  | nil =>
    rw [paragraphs]
    exact .inl ⟨[], rfl⟩
  | cons c r ih =>
    obtain ⟨p, ps, hpieces, -⟩ := exists_paragraphs_eq_cons r
    have hc : c ≠ '\n' := by
      rintro rfl
      rw [afterLastNewline?, if_pos (by decide)] at h
      split at h <;> cases h
    rw [paragraphs_cons_of_ne hc]
    cases hblank : Text.isBlank c with
    | false =>
      refine .inr ⟨c :: p, ps, by rw [hpieces]; rfl, ?_⟩
      rw [Text.allBlank, List.all_cons, hblank, Bool.false_and]
    | true =>
      have hr : afterLastNewline? r = none := by
        rw [afterLastNewline?, if_pos hblank] at h
        cases hr : afterLastNewline? r with
        | none => rfl
        | some rest =>
          rw [hr] at h
          cases h
      rcases ih hr with ⟨q, hq⟩ | ⟨q, qs, hq, hink⟩
      · exact .inl ⟨c :: q, by rw [hq]; rfl⟩
      · refine .inr ⟨c :: q, qs, by rw [hq]; rfl, ?_⟩
        rw [Text.allBlank, List.all_cons, Bool.and_eq_false_iff]
        exact .inr hink

/-- Only the first piece and the last one may be blank. -/
theorem allBlank_of_mem_inner (hp : p ∈ (paragraphs t).tail.dropLast) :
    Text.allBlank p = false := by
  fun_induction paragraphs t with
  | case1 t rest hrest ih =>
    obtain ⟨-, -, -, hlast⟩ := exists_gap_of_afterBlankLine? hrest
    rw [List.tail_cons] at hp
    obtain ⟨q, hq⟩ | ⟨q, qs, hq, hink⟩ := first_of_afterLastNewline? hlast
    · rw [hq] at hp
      cases hp
    · rw [hq] at hp ih
      cases qs with
      | nil => cases hp
      | cons q' qs =>
        rw [List.dropLast_cons_cons] at hp
        rcases List.mem_cons.1 hp with rfl | hp
        · exact hink
        · exact ih hp
  | case2 => cases hp
  | case3 c r _ ih =>
    obtain ⟨q, qs, hq, -⟩ := exists_paragraphs_eq_cons r
    rw [hq] at hp ih
    exact ih hp

/-- No part at the end of a blank line follows one, since the blank line would reach farther. -/
theorem eq_nil_of_suffix (hrest : afterLastNewline? rest = none) (hgap : Text.IsBlankLine gap)
    (hsuffix : rest <:+ gap) : rest = [] := by
  obtain ⟨blanks, hblanks, rfl⟩ := hgap
  rw [← List.cons_append, List.suffix_concat_iff] at hsuffix
  obtain hnil | ⟨more, rfl, hmore⟩ := hsuffix
  · exact hnil
  · have hblank : Text.allBlank more = true := by
      refine List.all_eq_true.2 fun c hc => ?_
      rcases List.mem_cons.1 (hmore.subset hc) with rfl | hc
      · decide
      · exact List.all_eq_true.1 hblanks c hc
    obtain ⟨behind, hbehind⟩ := exists_afterLastNewline? hblank []
    rw [hrest] at hbehind
    cases hbehind

/-- The pieces are all empty if there is nothing, or a blank line and nothing else. -/
theorem forall_mem_eq_nil_iff :
    (∀ p ∈ paragraphs t, p = []) ↔ t = [] ∨ Text.IsBlankLine t := by
  fun_induction paragraphs t with
  | case1 t rest hrest ih =>
    obtain ⟨gap, hgap, rfl, hlast⟩ := exists_gap_of_afterBlankLine? hrest
    rw [List.forall_mem_cons, eq_self_iff_true, true_and, ih]
    constructor
    · rintro (rfl | hrest')
      · exact .inr (by rwa [List.append_nil])
      · have hnil := eq_nil_of_suffix hlast hrest' (List.suffix_refl _)
        exact .inr (by rwa [hnil, List.append_nil])
    · rintro (hnil | hgap')
      · exact .inl (List.append_eq_nil_iff.1 hnil).2
      · exact .inl (eq_nil_of_suffix hlast hgap' (List.suffix_append gap rest))
  | case2 => simp
  | case3 c r hnone _ =>
    obtain ⟨q, qs, hq, -⟩ := exists_paragraphs_eq_cons r
    refine iff_of_false (fun h => ?_) ?_
    · have hfirst := h (c :: q) (by rw [hq]; exact List.mem_cons_self)
      cases hfirst
    · rintro (hnil | hgap)
      · cases hnil
      · exact not_prefix_of_afterBlankLine? hnone hgap (List.prefix_refl _)

/-- A text that is not cut is its only piece. -/
theorem eq_of_paragraphs_eq_singleton (h : paragraphs t = [p]) : p = t := by
  fun_induction paragraphs t generalizing p with
  | case1 t rest _ _ => exact absurd (List.cons.inj h).2 (paragraphs_ne_nil rest)
  | case2 => exact (List.cons.inj h).1.symm
  | case3 c r _ ih =>
    obtain ⟨q, qs, hq, -⟩ := exists_paragraphs_eq_cons r
    rw [hq, pushFirst] at h
    obtain ⟨rfl, rfl⟩ := List.cons.inj h
    rw [ih hq]

/-- The last piece is empty if there is nothing, or a blank line comes last. -/
theorem getLast?_paragraphs_eq_nil_iff :
    (paragraphs t).getLast? = some [] ↔ t = [] ∨ Text.EndsInBlankLine t := by
  fun_induction paragraphs t with
  | case1 t rest hrest ih =>
    obtain ⟨gap, hgap, rfl, hlast⟩ := exists_gap_of_afterBlankLine? hrest
    rw [List.getLast?_cons_of_ne_nil (paragraphs_ne_nil rest), ih]
    constructor
    · rintro (rfl | ⟨gap', hgap', hsuffix⟩)
      · rw [List.append_nil]
        exact .inr ⟨gap, hgap, List.suffix_refl gap⟩
      · exact .inr ⟨gap', hgap', hsuffix.trans (List.suffix_append gap rest)⟩
    · rintro (hnil | ⟨gap', hgap', hsuffix⟩)
      · exact .inl (List.append_eq_nil_iff.1 hnil).2
      · rcases List.suffix_or_suffix_of_suffix hsuffix (List.suffix_append gap rest) with h | h
        · exact .inr ⟨gap', hgap', h⟩
        · exact .inl (eq_nil_of_suffix hlast hgap' h)
  | case2 => simp
  | case3 c r hnone ih =>
    have hends : Text.EndsInBlankLine (c :: r) ↔ Text.EndsInBlankLine r := by
      refine exists_congr fun gap => and_congr_right fun hgap => ?_
      rw [List.suffix_cons_iff]
      exact or_iff_right fun heq =>
        not_prefix_of_afterBlankLine? hnone hgap (heq ▸ List.prefix_refl _)
    rw [hends]
    obtain ⟨q, qs, hq, -⟩ := exists_paragraphs_eq_cons r
    cases qs with
    | nil =>
      obtain rfl := eq_of_paragraphs_eq_singleton hq
      refine iff_of_false (by simp [hq, pushFirst]) ?_
      rintro (hnil | ⟨gap, hgap, hsuffix⟩)
      · cases hnil
      · exact paragraphs_eq_singleton_iff.1 hq ⟨gap, hgap, hsuffix.isInfix⟩
    | cons q' qs =>
      have hne : r ≠ [] := by
        rintro rfl
        rw [paragraphs] at hq
        cases hq
      rw [hq, List.getLast?_cons_of_ne_nil (List.cons_ne_nil _ _), or_iff_right hne] at ih
      rw [hq, pushFirst, List.getLast?_cons_of_ne_nil (List.cons_ne_nil _ _), ih]
      exact (or_iff_right (List.cons_ne_nil c r)).symm

/-! ## Runs -/

theorem cutAtMarks_some (c : Char) (marked : List (Option Char)) :
    Text.cutAtMarks (some c :: marked) = pushFirst c (Text.cutAtMarks marked) := by
  unfold Text.cutAtMarks
  rw [List.splitOn_cons_eq_if_modifyHead, if_neg (by simp)]
  cases hmarked : marked.splitOn none with
  | nil => exact absurd hmarked (List.splitOn_ne_nil _ _)
  | cons piece pieces => rfl

theorem cutAtMarks_none (marked : List (Option Char)) :
    Text.cutAtMarks (none :: marked) = [] :: Text.cutAtMarks marked := by
  unfold Text.cutAtMarks
  rw [List.splitOn_cons_eq_if_modifyHead, if_pos (by decide)]
  rfl

theorem cutAtMarks_append (u : Text) (marked : List (Option Char)) :
    Text.cutAtMarks (u.map some ++ marked) = u.foldr pushFirst (Text.cutAtMarks marked) := by
  induction u with
  | nil => rfl
  | cons c u ih => rw [List.map_cons, List.cons_append, cutAtMarks_some, ih, List.foldr_cons]

/-- A run that is as long as it can be is a run of the text. -/
theorem flatMap_markRun_append {blank : Bool} (hu : ∀ c ∈ u, Text.isBlank c = blank)
    (ht : ∀ c ∈ t.head?, Text.isBlank c = !blank) :
    (Text.runs (u ++ t)).flatMap Text.markRun =
      Text.markRun u ++ (Text.runs t).flatMap Text.markRun := by
  have hruns : Text.runs (u ++ t) = Text.runs u ++ Text.runs t := by
    refine List.splitBy_append fun c hc d hd => ?_
    rw [hu c (List.mem_of_getLast? hc), ht d hd]
    cases blank <;> rfl
  rw [hruns, List.flatMap_append]
  refine congrArg (· ++ _) ?_
  by_cases hne : u = []
  · rw [hne]
    rfl
  · have hchain : u.IsChain fun c d => (Text.isBlank c == Text.isBlank d) = true := by
      refine (List.pairwise_of_forall_mem_list fun c hc d hd => ?_).isChain
      rw [hu c hc, hu d hd]
      exact beq_self_eq_true _
    rw [Text.runs, List.splitBy_of_isChain hne hchain, List.flatMap_singleton]

/-- A run with no two newlines is not cut. -/
theorem markRun_of_count_le (h : u.count '\n' ≤ 1) : Text.markRun u = u.map some := by
  rw [Text.markRun, if_neg]
  omega

/-- A run of blanks is cut from its first newline to its last one. -/
theorem markRun_append {before between after : Text}
    (hblank : Text.allBlank (before ++ '\n' :: (between ++ '\n' :: after)) = true)
    (hbefore : '\n' ∉ before) (hafter : '\n' ∉ after) :
    Text.markRun (before ++ '\n' :: (between ++ '\n' :: after)) =
      before.map some ++ none :: after.map some := by
  have hfirst : ∀ c ∈ before, decide (c ≠ '\n') = true := by
    intro c hc
    exact decide_eq_true (ne_of_mem_of_not_mem hc hbefore)
  have hlast : ∀ c ∈ after.reverse, decide (c ≠ '\n') = true := by
    intro c hc
    exact decide_eq_true (ne_of_mem_of_not_mem (List.mem_reverse.1 hc) hafter)
  have hcount : 2 ≤ (before ++ '\n' :: (between ++ '\n' :: after)).count '\n' := by
    simp only [List.count_append, List.count_cons_self]
    omega
  have hreverse : (before ++ '\n' :: (between ++ '\n' :: after)).reverse =
      after.reverse ++ '\n' :: (between.reverse ++ '\n' :: before.reverse) := by simp
  rw [Text.markRun, if_pos ⟨hblank, hcount⟩, List.takeWhile_append_of_pos hfirst, List.rtakeWhile,
    hreverse, List.takeWhile_append_of_pos hlast]
  simp

theorem newline_not_mem_of_afterLastNewline? (hu : Text.allBlank u = true)
    (hnone : afterLastNewline? u = none) : '\n' ∉ u := by
  intro hnewline
  obtain ⟨blanks, more, rfl, -⟩ := List.eq_append_cons_of_mem hnewline
  have hblanks : Text.allBlank blanks = true := by
    rw [Text.allBlank, List.all_append, Bool.and_eq_true] at hu
    exact hu.1
  obtain ⟨rest, hsome⟩ := exists_afterLastNewline? hblanks more
  rw [hnone] at hsome
  cases hsome

/-- Blanks without a newline do not end a blank line, if what follows them is not blank. -/
theorem afterLastNewline?_append_eq_none (hu : Text.allBlank u = true) (hnewline : '\n' ∉ u)
    (ht : ∀ c ∈ t.head?, Text.isBlank c = false) : afterLastNewline? (u ++ t) = none := by
  refine afterLastNewline?_eq_none ?_
  have hnil : t.takeWhile Text.isBlank = [] := by
    cases t with
    | nil => rfl
    | cons c t => exact List.takeWhile_cons_of_neg (by rw [ht c rfl]; decide)
  rw [List.takeWhile_append_of_pos (List.all_eq_true.1 hu), hnil, List.append_nil]
  exact hnewline

/-- A run of blanks in front of a text is cut as the run on its own is. -/
theorem paragraphs_append_blanks {marked : List (Option Char)} (hu : Text.allBlank u = true)
    (ht : ∀ c ∈ t.head?, Text.isBlank c = false) (hrest : paragraphs t = Text.cutAtMarks marked) :
    paragraphs (u ++ t) = Text.cutAtMarks (Text.markRun u ++ marked) := by
  by_cases hnewline : '\n' ∈ u
  · obtain ⟨before, behind, rfl, hbefore⟩ := List.eq_append_cons_of_mem hnewline
    have hbehind : Text.allBlank behind = true := by
      simp only [Text.allBlank, List.all_append, List.all_cons, Bool.and_eq_true] at hu
      exact hu.2.2
    rw [List.append_assoc, List.cons_append, paragraphs_append_of_not_mem hbefore]
    cases hend : afterLastNewline? behind with
    | none =>
      -- the only newline of the run ends nothing
      have hnot := newline_not_mem_of_afterLastNewline? hbehind hend
      have hcount : (before ++ '\n' :: behind).count '\n' ≤ 1 := by
        rw [List.count_append, List.count_cons_self, List.count_eq_zero.2 hbefore,
          List.count_eq_zero.2 hnot]
      have hnone : afterBlankLine? ('\n' :: (behind ++ t)) = none :=
        afterLastNewline?_append_eq_none hbehind hnot ht
      rw [paragraphs_cons hnone, paragraphs_append_of_not_mem hnot, hrest,
        markRun_of_count_le hcount, List.map_append, List.map_cons, List.append_assoc,
        List.cons_append, cutAtMarks_append, cutAtMarks_some, cutAtMarks_append]
    | some after =>
      obtain ⟨between, hbetween, rfl, hlast⟩ := afterLastNewline?_eq_some_iff.1 hend
      have hafter : Text.allBlank after = true := by
        simp only [Text.allBlank, List.all_append, List.all_cons, Bool.and_eq_true] at hbehind
        exact hbehind.2.2
      have hnot := newline_not_mem_of_afterLastNewline? hafter hlast
      have hgap : afterBlankLine? ('\n' :: (between ++ '\n' :: after ++ t)) =
          some (after ++ t) :=
        afterLastNewline?_eq_some_iff.2 ⟨between, hbetween, by simp,
          afterLastNewline?_append_eq_none hafter hnot ht⟩
      rw [paragraphs_of_afterBlankLine? hgap, paragraphs_append_of_not_mem hnot, hrest,
        markRun_append hu hbefore hnot, List.append_assoc, List.cons_append, cutAtMarks_append,
        cutAtMarks_none, cutAtMarks_append]
  · have hcount : u.count '\n' ≤ 1 := by
      rw [List.count_eq_zero.2 hnewline]
      omega
    rw [markRun_of_count_le hcount, paragraphs_append_of_not_mem hnewline, hrest,
      cutAtMarks_append]

/-- A text that is not empty starts with a run that is as long as it can be. -/
theorem exists_run (c : Char) (r : Text) : ∃ u t, c :: r = u ++ t ∧ u ≠ [] ∧
    (∀ d ∈ u, Text.isBlank d = Text.isBlank c) ∧
    ∀ d ∈ t.head?, Text.isBlank d = !Text.isBlank c := by
  let alike (d : Char) : Bool := Text.isBlank d == Text.isBlank c
  have hc : alike c = true := beq_self_eq_true (Text.isBlank c)
  refine ⟨(c :: r).takeWhile alike, (c :: r).dropWhile alike,
    List.takeWhile_append_dropWhile.symm, ?_, fun d hd => ?_, fun d hd => ?_⟩
  · rw [List.takeWhile_cons_of_pos hc]
    exact List.cons_ne_nil _ _
  · have halike : alike d = true := List.mem_takeWhile_imp hd
    exact beq_iff_eq.1 halike
  · have hother := List.head?_dropWhile_not alike (c :: r)
    rw [Option.mem_def.1 hd] at hother
    exact Bool.eq_not_of_ne (by simpa [alike] using hother)

/-- The paragraphs of a text are its pieces between the blank lines. -/
theorem paragraphs_eq_cutAtBlankLines (t : Text) : paragraphs t = Text.cutAtBlankLines t := by
  cases t with
  | nil =>
    rw [paragraphs]
    rfl
  | cons c r =>
    obtain ⟨u, t, hsplit, hne, hu, ht⟩ := exists_run c r
    have hlength : t.length < (c :: r).length := by
      have := List.length_pos_of_ne_nil hne
      rw [hsplit, List.length_append]
      omega
    have hrest := paragraphs_eq_cutAtBlankLines t
    rw [hsplit, Text.cutAtBlankLines, flatMap_markRun_append hu ht]
    cases hc : Text.isBlank c with
    | true =>
      rw [hc] at hu ht
      exact paragraphs_append_blanks (List.all_eq_true.2 hu) ht hrest
    | false =>
      have hnewline : '\n' ∉ u := by
        intro hmem
        rw [hc] at hu
        exact absurd (hu _ hmem) (by decide)
      have hcount : u.count '\n' ≤ 1 := by
        rw [List.count_eq_zero.2 hnewline]
        omega
      rw [markRun_of_count_le hcount, paragraphs_append_of_not_mem hnewline, hrest,
        cutAtMarks_append]
      rfl
termination_by t.length
decreasing_by exact hlength

-- the blanks before the first newline and behind the last one stay
example : Text.cutAtBlankLines "a \n \n\n b\nc".toList = ["a ".toList, " b\nc".toList] := by
  decide

end

end Prose

end ApiDoc
