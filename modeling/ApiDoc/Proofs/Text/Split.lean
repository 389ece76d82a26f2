import ApiDoc.Text.Basic

/-!
# Cutting texts at a separator

What `Text.splitFirst?` and `Text.splitOn` make of a text without the separator, and of one whose
first part has none; and that nothing is lost where a text is cut: the parts, with the separator
between them, are the text (`Text.eq_of_splitFirst?`, `Text.joinWith_splitOn`), and pieces
that are put together are found again (`Text.splitOn_joinWith`).
-/

namespace ApiDoc.Text

section
variable {c : Char} {t before after : Text}

theorem splitFirst?_eq_none (h : c ∉ t) : splitFirst? c t = none := by
  induction t with
  | nil => rfl
  | cons d r ih =>
    obtain ⟨hd, hr⟩ := not_or.1 (mt List.mem_cons.2 h)
    rw [splitFirst?, if_neg (Ne.symm hd), ih hr]
    rfl

/-- The two parts, with the separator between them, are the text. -/
theorem eq_of_splitFirst? (h : splitFirst? c t = some (before, after)) :
    t = before ++ c :: after := by
  induction t generalizing before with
  | nil => cases h
  | cons d r ih =>
    rw [splitFirst?] at h
    split at h
    · next hd =>
      cases h
      rw [hd]
      rfl
    · obtain ⟨⟨before', after'⟩, hr, heq⟩ := Option.map_eq_some_iff.1 h
      cases heq
      rw [ih hr]
      rfl

/-- There is no separator before the first one. -/
theorem not_mem_of_splitFirst? (h : splitFirst? c t = some (before, after)) : c ∉ before := by
  induction t generalizing before with
  | nil => cases h
  | cons d r ih =>
    rw [splitFirst?] at h
    split at h
    · cases h
      exact List.not_mem_nil
    · next hd =>
      obtain ⟨⟨before', after'⟩, hr, heq⟩ := Option.map_eq_some_iff.1 h
      cases heq
      exact mt List.mem_cons.1 (not_or.2 ⟨Ne.symm hd, ih hr⟩)

/-- A text is cut behind a first part without the separator. -/
theorem splitFirst?_append (h : c ∉ before) (after : Text) :
    splitFirst? c (before ++ c :: after) = some (before, after) := by
  induction before with
  | nil => exact if_pos rfl
  | cons d r ih =>
    obtain ⟨hd, hr⟩ := not_or.1 (mt List.mem_cons.2 h)
    rw [List.cons_append, splitFirst?, if_neg (Ne.symm hd), ih hr]
    rfl

theorem splitOn_eq_singleton (h : c ∉ t) : splitOn c t = [t] := by
  induction t with
  | nil => rfl
  | cons d r ih =>
    obtain ⟨hd, hr⟩ := not_or.1 (mt List.mem_cons.2 h)
    rw [splitOn, if_neg (Ne.symm hd), ih hr]

/-- A text without the separator is the first piece. -/
theorem splitOn_append (h : c ∉ t) (rest : Text) :
    splitOn c (t ++ c :: rest) = t :: splitOn c rest := by
  induction t with
  | nil => exact if_pos rfl
  | cons d r ih =>
    obtain ⟨hd, hr⟩ := not_or.1 (mt List.mem_cons.2 h)
    rw [List.cons_append, splitOn, if_neg (Ne.symm hd), ih hr]

theorem splitOn_ne_nil (c : Char) (t : Text) : splitOn c t ≠ [] := by
  cases t with
  | nil => exact List.cons_ne_nil _ _
  | cons d r =>
    rw [splitOn]
    split
    · exact List.cons_ne_nil _ _
    · split <;> exact List.cons_ne_nil _ _

theorem joinWith_cons {separator : Text} {pieces : List Text} (hne : pieces ≠ []) (p : Text) :
    joinWith separator (p :: pieces) = p ++ separator ++ joinWith separator pieces := by
  cases pieces with
  | nil => exact absurd rfl hne
  | cons q pieces => rfl

theorem joinWith_concat {separator : Text} {pieces : List Text} (hne : pieces ≠ []) (p : Text) :
    joinWith separator (pieces ++ [p]) = joinWith separator pieces ++ separator ++ p := by
  induction pieces with
  | nil => exact absurd rfl hne
  | cons q pieces ih =>
    cases pieces with
    | nil => rfl
    | cons r pieces =>
      have hrest : r :: pieces ≠ [] := List.cons_ne_nil _ _
      have hmore : r :: pieces ++ [p] ≠ [] := List.cons_ne_nil _ _
      rw [joinWith_cons hrest, List.cons_append, joinWith_cons hmore, ih hrest]
      simp only [List.append_assoc]

/-- What the first piece starts with, the text starts with. -/
theorem joinWith_append_cons (separator u p : Text) (pieces : List Text) :
    joinWith separator ((u ++ p) :: pieces) = u ++ joinWith separator (p :: pieces) := by
  cases pieces with
  | nil => rfl
  | cons q pieces => simp only [joinWith, List.append_assoc]

/-- What the last piece ends with, the text ends with. -/
theorem joinWith_concat_append (separator u p : Text) (pieces : List Text) :
    joinWith separator (pieces ++ [p ++ u]) = joinWith separator (pieces ++ [p]) ++ u := by
  cases pieces with
  | nil => rfl
  | cons q pieces =>
    have hne : q :: pieces ≠ [] := List.cons_ne_nil _ _
    rw [joinWith_concat hne, joinWith_concat hne, ← List.append_assoc]

/-- The pieces, with the separator between neighbours, are the text. -/
theorem joinWith_splitOn (c : Char) (t : Text) : joinWith [c] (splitOn c t) = t := by
  induction t with
  | nil => rfl
  | cons d r ih =>
    rw [splitOn]
    split
    · next hd =>
      rw [joinWith_cons (splitOn_ne_nil c r), ih, hd]
      rfl
    · split
      · next hnil => exact absurd hnil (splitOn_ne_nil c r)
      · next piece pieces hpieces =>
        rw [← ih, hpieces]
        cases pieces <;> rfl

/-- Pieces without the separator are found again. -/
theorem splitOn_joinWith {pieces : List Text} (hne : pieces ≠ []) (h : ∀ p ∈ pieces, c ∉ p) :
    splitOn c (joinWith [c] pieces) = pieces := by
  induction pieces with
  | nil => exact absurd rfl hne
  | cons p pieces ih =>
    obtain ⟨hp, hpieces⟩ := List.forall_mem_cons.1 h
    cases pieces with
    | nil => exact splitOn_eq_singleton hp
    | cons q pieces =>
      have hrest : q :: pieces ≠ [] := List.cons_ne_nil _ _
      rw [joinWith_cons hrest, List.append_assoc, List.singleton_append, splitOn_append hp,
        ih hrest hpieces]

/-- No piece has the separator. -/
theorem not_mem_of_mem_splitOn {p : Text} (hp : p ∈ splitOn c t) : c ∉ p := by
  induction t generalizing p with
  | nil =>
    rw [List.mem_singleton.1 hp]
    exact List.not_mem_nil
  | cons d r ih =>
    rw [splitOn] at hp
    split at hp
    · rcases List.mem_cons.1 hp with rfl | hp
      · exact List.not_mem_nil
      · exact ih hp
    · next hd =>
      split at hp
      · rw [List.mem_singleton.1 hp]
        exact fun hmem => hd (List.mem_singleton.1 hmem).symm
      · next piece pieces hpieces =>
        rcases List.mem_cons.1 hp with rfl | hp
        · have hpiece := ih (hpieces ▸ List.mem_cons_self)
          exact mt List.mem_cons.1 (not_or.2 ⟨Ne.symm hd, hpiece⟩)
        · exact ih (hpieces ▸ List.mem_cons_of_mem _ hp)

end

end ApiDoc.Text
