import ApiDoc.Proofs.Markup.Ink
import ApiDoc.Proofs.Markup.Paragraph

/-!
# Normalization in one go

A pass works on each paragraph apart and drops the paragraphs of which it leaves nothing
(`Block.pass_intercalate`). Two passes put a paragraph in order, and so they make a block what it
would be if each of its paragraphs had been put in order on its own (`Block.tidy`). A third pass
changes nothing (`Block.pass_tidy`), and the passes of `Block.normalize` come to this. Main
statements: `Block.normalize_eq_tidy` and `Block.normalize_reaches_normalForm`.
-/

namespace ApiDoc

instance (e : Element) : Decidable e.IsSolid :=
  match e with
  | .text _ | .paragraph => isFalse id
  | .htmlTag _ | .webLink _ _ | .itemLink _ => isTrue trivial

namespace Block

/-- The paragraphs of a block: what stands between its breaks. -/
def paragraphs (b : Block) : List Block :=
  b.splitOn .paragraph

/-- A block in order: what is left of its paragraphs, with a break between neighbours. -/
def tidy (b : Block) : Block :=
  [Element.paragraph].intercalate ((b.paragraphs.map tidyParagraph).filter (· ≠ []))

section
variable {p : Block} {ps : List Block}

/-! ## A step on each paragraph -/

/-- A step that works on what is before a break and on what is after it works on each of the
paragraphs. -/
theorem apply_intercalate {f : Block → Block} (hnil : f [] = [])
    (hbreak : ∀ p b, f (p ++ .paragraph :: b) = f p ++ .paragraph :: f b) (ps : List Block) :
    f ([Element.paragraph].intercalate ps) = [Element.paragraph].intercalate (ps.map f) := by
  induction ps with
  | nil => exact hnil
  | cons p ps ih =>
    cases ps with
    | nil => simp only [List.map_cons, List.map_nil, List.intercalate_singleton]
    | cons q ps =>
      simp only [List.map_cons, List.intercalate_cons_cons, List.append_assoc,
        List.singleton_append] at ih ⊢
      rw [hbreak, ih]

theorem dropEmpty_append_break (p b : Block) :
    dropEmpty (p ++ .paragraph :: b) = dropEmpty p ++ .paragraph :: dropEmpty b :=
  List.filter_append ..

theorem joinTexts_append_break (p b : Block) :
    joinTexts (p ++ .paragraph :: b) = joinTexts p ++ .paragraph :: joinTexts b := by
  induction p with
  | nil => rfl
  | cons e p ih =>
    cases e with
    | text chars =>
      rw [List.cons_append, joinTexts, ih, joinTexts]
      cases joinTexts p with
      | nil => rfl
      | cons f p => cases f <;> rfl
    | paragraph | htmlTag | webLink | itemLink => exact congrArg (_ :: ·) ih

theorem startsWithBreak_append_break (p b : Block) :
    startsWithBreak (p ++ .paragraph :: b) = startsWithBreak p := by
  cases p with
  | nil => rfl
  | cons e p => cases e <;> rfl

theorem trimTexts_append_break (atStart : Bool) (p b : Block) :
    trimTexts atStart (p ++ .paragraph :: b) =
      trimTexts atStart p ++ .paragraph :: trimTexts true b := by
  induction p generalizing atStart with
  | nil => cases atStart <;> rfl
  | cons e p ih =>
    cases e with
    | text chars =>
      rw [List.cons_append, trimTexts, startsWithBreak_append_break, ih, trimTexts]
      rfl
    | paragraph => exact congrArg (_ :: ·) (ih true)
    | htmlTag | webLink | itemLink => exact congrArg (_ :: ·) (ih false)

/-! ## The breaks that are dropped -/

theorem dropFinalBreaks_cons_break (b : Block) : dropFinalBreaks (.paragraph :: b) =
    if dropFinalBreaks b = [] then [] else .paragraph :: dropFinalBreaks b := by
  rw [dropFinalBreaks]
  cases dropFinalBreaks b <;> rfl

theorem intercalate_eq_nil_iff (hps : [] ∉ ps) :
    [Element.paragraph].intercalate ps = [] ↔ ps = [] := by
  cases ps with
  | nil => exact iff_of_true rfl rfl
  | cons p ps =>
    refine iff_of_false (fun hnil => hps ?_) (List.cons_ne_nil p ps)
    cases ps with
    | nil =>
      rw [List.intercalate_singleton] at hnil
      exact hnil ▸ List.mem_cons_self
    | cons q ps =>
      rw [List.intercalate_cons_cons] at hnil
      simp at hnil

/-- Of the breaks, those between paragraphs that are not empty are kept. -/
theorem dropBreaks_intercalate (hps : ∀ p ∈ ps, .paragraph ∉ p) :
    dropFinalBreaks (dropRepeatedBreaks true ([Element.paragraph].intercalate ps)) =
      [Element.paragraph].intercalate (ps.filter (· ≠ [])) := by
  induction ps with
  | nil => rfl
  | cons p ps ih =>
    rw [List.forall_mem_cons] at hps
    have hkept := ih hps.2
    by_cases hne : p = []
    · subst hne
      rw [List.filter_cons_of_neg (by simp), ← hkept]
      cases ps with
      | nil => rfl
      | cons q ps =>
        rw [List.intercalate_cons_cons]
        rfl
    · rw [List.filter_cons_of_pos (by simpa using hne)]
      cases ps with
      | nil =>
        rw [List.intercalate_singleton, dropBreaks_of_not_mem hps.1, List.filter_nil,
          List.intercalate_singleton]
      | cons q ps =>
        rw [List.intercalate_cons_cons, List.append_assoc,
          dropRepeatedBreaks_append true hps.1 hne, dropFinalBreaks_append hps.1]
        change p ++ dropFinalBreaks (.paragraph ::
          dropRepeatedBreaks true ([Element.paragraph].intercalate (q :: ps))) = _
        rw [dropFinalBreaks_cons_break, hkept]
        by_cases hrest : (q :: ps).filter (· ≠ []) = []
        · rw [hrest, List.intercalate_singleton]
          exact List.append_nil p
        · have hfilled : [] ∉ (q :: ps).filter (· ≠ []) := by simp
          rw [if_neg (mt (intercalate_eq_nil_iff hfilled).1 hrest),
            List.intercalate_cons_of_ne_nil hrest, List.append_assoc, List.singleton_append]

/-! ## All paragraphs -/

theorem intercalate_paragraphs (b : Block) :
    [Element.paragraph].intercalate b.paragraphs = b :=
  List.intercalate_splitOn _

theorem break_not_mem_of_mem_paragraphs {b : Block} (hp : p ∈ b.paragraphs) :
    .paragraph ∉ p := by
  by_cases hbreak : .paragraph ∈ b
  · obtain ⟨q, rest, rfl, hq⟩ := List.eq_append_cons_of_mem hbreak
    rw [paragraphs, List.splitOn_append_cons_self_of_not_mem hq] at hp
    rcases List.mem_cons.1 hp with rfl | hp
    · exact hq
    · exact break_not_mem_of_mem_paragraphs (b := rest) hp
  · rw [paragraphs, List.splitOn_eq_singleton hbreak, List.mem_singleton] at hp
    exact hp ▸ hbreak
termination_by b.length

theorem trimTexts_eq_nil_iff (atStart : Bool) : trimTexts atStart p = [] ↔ p = [] := by
  cases p with
  | nil => cases atStart <;> exact iff_of_true rfl rfl
  | cons e p => cases e <;> simp [trimTexts]

/-- A pass works on each paragraph apart, and drops those of which it leaves nothing. -/
theorem pass_intercalate (hps : ∀ p ∈ ps, .paragraph ∉ p) :
    pass ([Element.paragraph].intercalate ps) =
      [Element.paragraph].intercalate ((ps.map pass).filter (· ≠ [])) := by
  have hjoined : ∀ p ∈ (ps.map dropEmpty).map joinTexts, .paragraph ∉ p := by
    simp only [List.forall_mem_map]
    intro p hp
    rw [joinTexts_dropEmpty (hps p hp)]
    exact (isJoined_joinTexts (hps p hp)).dropEmpty.break_not_mem
  have hpass : ps.map pass = ((ps.map dropEmpty).map joinTexts).map (trimTexts true) := by
    simp only [List.map_map]
    refine List.map_congr_left fun p hp => ?_
    rw [pass_of_not_mem (hps p hp), ← joinTexts_dropEmpty (hps p hp)]
    rfl
  have hkept (ps : List Block) : (ps.map (trimTexts true)).filter (· ≠ []) =
      (ps.filter (· ≠ [])).map (trimTexts true) := by
    rw [List.filter_map]
    exact congrArg (List.map _) (List.filter_congr fun p _ => by simp [trimTexts_eq_nil_iff])
  rw [pass, apply_intercalate rfl dropEmpty_append_break,
    apply_intercalate rfl joinTexts_append_break, dropBreaks_intercalate hjoined,
    apply_intercalate rfl (trimTexts_append_break true), hpass, hkept]

/-- A paragraph of which nothing is left need not be there for the next step. -/
theorem filter_map_filter {f : Block → Block} (hnil : f [] = []) (ps : List Block) :
    ((ps.filter (· ≠ [])).map f).filter (· ≠ []) = (ps.map f).filter (· ≠ []) := by
  rw [List.filter_map, List.filter_map, List.filter_filter]
  refine congrArg (List.map f) (List.filter_congr fun p _ => ?_)
  by_cases hp : p = []
  · simp [hp, hnil]
  · simp [hp]

theorem map_tidyParagraph (b : Block) :
    b.paragraphs.map tidyParagraph = (b.paragraphs.map pass).map pass := by
  rw [List.map_map]
  exact List.map_congr_left fun p hp =>
    tidyParagraph_eq_pass_pass (break_not_mem_of_mem_paragraphs hp)

/-- Two passes put a block in order. -/
theorem tidy_eq_pass_pass (b : Block) : tidy b = pass (pass b) := by
  have hfirst : ∀ p ∈ (b.paragraphs.map pass).filter (· ≠ []), .paragraph ∉ p := by
    intro p hp
    obtain ⟨q, hq, rfl⟩ := List.mem_map.1 (List.mem_of_mem_filter hp)
    exact (isJoined_pass (break_not_mem_of_mem_paragraphs hq)).break_not_mem
  conv_rhs => rw [← intercalate_paragraphs b]
  rw [pass_intercalate fun p hp => break_not_mem_of_mem_paragraphs hp, pass_intercalate hfirst,
    filter_map_filter rfl, ← map_tidyParagraph, tidy]

/-- A pass leaves a block in order as it is. -/
theorem pass_tidy (b : Block) : pass (tidy b) = tidy b := by
  have htidy : ∀ p ∈ (b.paragraphs.map tidyParagraph).filter (· ≠ []), .paragraph ∉ p := by
    intro p hp
    obtain ⟨q, hq, rfl⟩ := List.mem_map.1 (List.mem_of_mem_filter hp)
    have hbreak := break_not_mem_of_mem_paragraphs hq
    rw [tidyParagraph_eq_pass_pass hbreak]
    exact (isJoined_pass (isJoined_pass hbreak).break_not_mem).break_not_mem
  have hthird : (b.paragraphs.map tidyParagraph).map pass = b.paragraphs.map tidyParagraph := by
    rw [List.map_map]
    refine List.map_congr_left fun p hp => ?_
    have hbreak := break_not_mem_of_mem_paragraphs hp
    change pass (tidyParagraph p) = tidyParagraph p
    rw [tidyParagraph_eq_pass_pass hbreak, pass_pass_pass_of_not_mem hbreak]
  rw [tidy, pass_intercalate htidy, filter_map_filter rfl, hthird]

theorem pass_pass_pass (b : Block) : pass (pass (pass b)) = pass (pass b) := by
  rw [← tidy_eq_pass_pass b, pass_tidy]

/-! ## Normalization -/

theorem normalize_pass (b : Block) : normalize (pass b) = normalize b := by
  conv_rhs => rw [normalize]
  split
  · next h => rw [h, normalize, dif_pos h]
  · rfl

theorem normalize_eq_pass_pass (b : Block) : normalize b = pass (pass b) := by
  rw [← normalize_pass b, ← normalize_pass (pass b), normalize, dif_pos (pass_pass_pass b)]

-- the first pass trims the text between the breaks to nothing, the second one drops it
example : normalize [.text ['a'], .paragraph, .text [' '], .paragraph, .text ['b', ' ']] =
    [.text ['a'], .paragraph, .text ['b']] := by
  rw [normalize_eq_pass_pass]
  decide

/-- The tags and links of a block are the elements among what is seen of it. -/
theorem filter_isSolid_eq (b : Block) :
    b.filter Element.IsSolid = b.ink.filterMap Sum.getRight? := by
  induction b with
  | nil => rfl
  | cons e b ih =>
    rw [List.filter_cons, ink_cons, List.filterMap_append, ← ih]
    cases e with
    | text chars =>
      have htext : (Element.text chars).ink.filterMap Sum.getRight? = [] := by
        simp [Element.ink]
      rw [htext]
      rfl
    | paragraph | htmlTag | webLink | itemLink => rfl

/-- The characters of the plain text that are not blank are read off what is seen of a block. -/
theorem ink_plainText (b : Block) : Text.ink b.plainText =
    b.ink.flatMap (Sum.elim (fun c => [c]) fun e => Text.ink e.plainText) := by
  induction b with
  | nil => rfl
  | cons e b ih =>
    rw [ink_cons, List.flatMap_append, ← ih, plainText, List.flatMap_cons, Text.ink_append]
    refine congrArg (· ++ _) ?_
    cases e with
    | text chars => simp [Element.ink, Element.plainText, List.flatMap_map]
    | paragraph => decide
    | htmlTag | webLink | itemLink => simp [Element.ink]

/-- Normalization puts a block in order, keeps its tags and links, and keeps the characters of its
plain text that are not blank. -/
theorem normalize_eq_tidy (b : Block) : normalize b = tidy b ∧
    (normalize b).filter Element.IsSolid = b.filter Element.IsSolid ∧
    Text.ink (normalize b).plainText = Text.ink b.plainText := by
  refine ⟨?_, ?_, ?_⟩
  · rw [normalize_eq_pass_pass, tidy_eq_pass_pass]
  · rw [filter_isSolid_eq, filter_isSolid_eq, ink_normalize]
  · rw [ink_plainText, ink_plainText, ink_normalize]

/-- The passes of a normalization: each of them but the last changes the block. -/
theorem exists_passes (b : Block) : ∃ n, normalize b = pass^[n] b ∧
    (∀ m < n, pass (pass^[m] b) ≠ pass^[m] b) ∧ pass (pass^[n] b) = pass^[n] b := by
  fun_induction normalize b with
  | case1 b h => exact ⟨0, rfl, fun m hm => absurd hm (Nat.not_lt_zero m), h⟩
  | case2 b h _ ih =>
    obtain ⟨n, hn, hchange, hstop⟩ := ih
    refine ⟨n + 1, hn, fun m hm => ?_, hstop⟩
    cases m with
    | zero => exact h
    | succ m => exact hchange m (Nat.lt_of_succ_lt_succ hm)

/-- Normalization ends after two passes that change the block, or fewer. What it ends with is in
normal form, and blocks in normal form are those that it leaves as they are. -/
theorem normalize_reaches_normalForm (b : Block) :
    (∃ n ≤ 2, normalize b = pass^[n] b ∧ (∀ m < n, pass (pass^[m] b) ≠ pass^[m] b) ∧
      pass (pass^[n] b) = pass^[n] b) ∧
    (normalize b).IsNormal ∧ (normalize b = b ↔ b.IsNormal) ∧
    normalize (normalize b) = normalize b := by
  refine ⟨?_, isNormal_normalize b, normalize_eq_self_iff,
    normalize_eq_self_iff.2 (isNormal_normalize b)⟩
  obtain ⟨n, hn, hchange, hstop⟩ := exists_passes b
  exact ⟨n, Nat.le_of_not_lt fun hlt => hchange 2 hlt (pass_pass_pass b), hn, hchange, hstop⟩

end

end Block

end ApiDoc
