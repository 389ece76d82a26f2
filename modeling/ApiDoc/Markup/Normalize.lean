import ApiDoc.Markup.Basic

/-!
# Normalized blocks

A pass over a block drops empty texts, joins neighbouring texts, drops the breaks that separate
nothing, and trims texts at the ends of paragraphs. Trimming can leave an empty text behind, so
passes are repeated until one changes nothing. Every pass that changes the block makes it lighter,
where an element weighs one and each character of text one more; that is why this ends.
-/

namespace ApiDoc.Block

/-- Whether an element is an empty text. -/
def isEmptyText : Element → Bool
  | .text chars => chars.isEmpty
  | _ => false

/-- The block less its empty texts. -/
def dropEmpty (b : Block) : Block :=
  b.filter fun e => !isEmptyText e

/-- Puts a text before a block: it joins a text at the start. -/
def pushText (chars : Text) : Block → Block
  | .text more :: b => .text (chars ++ more) :: b
  | b => .text chars :: b

/-- Joins neighbouring texts. -/
def joinTexts : Block → Block
  | [] => []
  | .text chars :: b => pushText chars (joinTexts b)
  | e :: b => e :: joinTexts b

/-- Drops the breaks after a break; the flag says whether one came just before. -/
def dropRepeatedBreaks : Bool → Block → Block
  | _, [] => []
  | true, .paragraph :: b => dropRepeatedBreaks true b
  | false, .paragraph :: b => .paragraph :: dropRepeatedBreaks true b
  | _, e :: b => e :: dropRepeatedBreaks false b

/-- Drops the breaks at the end. -/
def dropFinalBreaks : Block → Block
  | [] => []
  | e :: b =>
    match dropFinalBreaks b with
    | [] => if e = .paragraph then [] else [e]
    | kept => e :: kept

/-- Whether a paragraph ends where the block starts. -/
def startsWithBreak : Block → Bool
  | [] => true
  | .paragraph :: _ => true
  | _ => false

/-- Trims texts at the ends of paragraphs; the flag says whether a paragraph starts here. -/
def trimTexts : Bool → Block → Block
  | _, [] => []
  | atStart, .text chars :: b =>
    let left := if atStart then Text.stripLeft chars else chars
    let both := if startsWithBreak b then Text.stripRight left else left
    .text both :: trimTexts false b
  | _, .paragraph :: b => .paragraph :: trimTexts true b
  | _, e :: b => e :: trimTexts false b

/-- One pass of normalization. -/
def pass (b : Block) : Block :=
  trimTexts true (dropFinalBreaks (dropRepeatedBreaks true (joinTexts (dropEmpty b))))

/-- The weight of an element. -/
def elementWeight : Element → Nat
  | .text chars => chars.length + 1
  | _ => 1

/-- The weight of a block: one for each element and one for each character of text. -/
def weight (b : Block) : Nat :=
  b.foldr (fun e total => elementWeight e + total) 0

/-- A step that leaves a block as it is or makes it lighter. -/
def Lightens (f : Block → Block) : Prop :=
  ∀ b, f b = b ∨ weight (f b) < weight b

theorem weight_cons (e : Element) (b : Block) : weight (e :: b) = elementWeight e + weight b := rfl

theorem elementWeight_pos (e : Element) : 0 < elementWeight e := by
  cases e <;> simp [elementWeight]

theorem Lightens.comp {f g : Block → Block} (hf : Lightens f) (hg : Lightens g) :
    Lightens fun b => f (g b) := by
  intro b
  have hfg := hf (g b)
  rcases hg b with h | h
  · simp only [h] at hfg ⊢
    exact hfg
  · right
    change weight (f (g b)) < weight b
    rcases hfg with h' | h'
    · rw [h']
      exact h
    · exact Nat.lt_trans h' h

theorem lightens_dropEmpty : Lightens dropEmpty := by
  intro b
  induction b with
  | nil => exact .inl rfl
  | cons e b ih =>
    simp only [dropEmpty, List.filter_cons, weight_cons] at ih ⊢
    have := elementWeight_pos e
    split
    · rcases ih with h | h
      · exact .inl (by rw [h])
      · exact .inr (by rw [weight_cons]; omega)
    · rcases ih with h | h
      · exact .inr (by rw [h]; omega)
      · exact .inr (by omega)

theorem lightens_joinTexts : Lightens joinTexts := by
  intro b
  induction b with
  | nil => exact .inl rfl
  | cons e b ih =>
    cases e with
    | text chars =>
      simp only [joinTexts, weight_cons]
      match hj : joinTexts b with
      | .text more :: rest =>
        right
        rw [hj] at ih
        simp only [pushText, weight_cons, elementWeight, List.length_append] at ih ⊢
        rcases ih with h | h
        · simp only [← h, weight_cons, elementWeight]
          omega
        · omega
      | [] | .paragraph :: _ | .htmlTag _ :: _ | .webLink _ _ :: _ | .itemLink _ :: _ =>
        rw [hj] at ih
        simp only [pushText]
        rcases ih with h | h
        · exact .inl (by rw [h])
        · exact .inr (by simp only [weight_cons] at h ⊢; omega)
    | paragraph | htmlTag _ | webLink _ _ | itemLink _ =>
      simp only [joinTexts, weight_cons]
      rcases ih with h | h
      · exact .inl (by rw [h])
      · exact .inr (by omega)

theorem lightens_dropRepeatedBreaks (afterBreak : Bool) :
    Lightens (dropRepeatedBreaks afterBreak) := by
  intro b
  induction b generalizing afterBreak with
  | nil => exact .inl (by simp [dropRepeatedBreaks])
  | cons e b ih =>
    cases e with
    | paragraph =>
      cases afterBreak with
      | false =>
        simp only [dropRepeatedBreaks, weight_cons]
        rcases ih true with h | h
        · exact .inl (by rw [h])
        · exact .inr (by omega)
      | true =>
        right
        simp only [dropRepeatedBreaks, weight_cons, elementWeight]
        rcases ih true with h | h
        · rw [h]
          omega
        · omega
    | text _ | htmlTag _ | webLink _ _ | itemLink _ =>
      simp only [dropRepeatedBreaks, weight_cons]
      rcases ih false with h | h
      · exact .inl (by rw [h])
      · exact .inr (by omega)

theorem lightens_dropFinalBreaks : Lightens dropFinalBreaks := by
  intro b
  induction b with
  | nil => exact .inl rfl
  | cons e b ih =>
    simp only [dropFinalBreaks, weight_cons]
    have := elementWeight_pos e
    split
    · next hd =>
      rw [hd] at ih
      split
      · right
        change 0 < _
        omega
      · rcases ih with h | h
        · exact .inl (by rw [h])
        · right
          rw [weight_cons]
          omega
    · rcases ih with h | h
      · exact .inl (by rw [h])
      · exact .inr (by rw [weight_cons]; omega)

theorem stripRight_eq_or_length_lt (t : Text) :
    Text.stripRight t = t ∨ (Text.stripRight t).length < t.length := by
  induction t with
  | nil => exact .inl rfl
  | cons c r ih =>
    unfold Text.stripRight
    split
    · next h =>
      rw [h] at ih
      split
      · exact .inr (by simp)
      · rcases ih with h | h
        · exact .inl (by rw [h])
        · exact .inr (by simpa using h)
    · next d s h =>
      rw [h] at ih
      rcases ih with h | h
      · exact .inl (by rw [h])
      · exact .inr (by simp only [List.length_cons] at h ⊢; omega)

theorem stripLeft_eq_or_length_lt (t : Text) :
    Text.stripLeft t = t ∨ (Text.stripLeft t).length < t.length := by
  cases t with
  | nil => exact .inl rfl
  | cons c r =>
    unfold Text.stripLeft
    rw [List.dropWhile_cons]
    split
    · right
      have := (List.dropWhile_sublist Text.isBlank (l := r)).length_le
      simp only [List.length_cons]
      omega
    · exact .inl rfl

theorem lightens_trimTexts (atStart : Bool) : Lightens (trimTexts atStart) := by
  intro b
  induction b generalizing atStart with
  | nil => exact .inl (by simp [trimTexts])
  | cons e b ih =>
    cases e with
    | text chars =>
      simp only [trimTexts, weight_cons, elementWeight]
      have hl := stripLeft_eq_or_length_lt chars
      have hr := stripRight_eq_or_length_lt chars
      have hlr := stripRight_eq_or_length_lt (Text.stripLeft chars)
      have hb := ih false
      cases atStart <;> cases startsWithBreak b <;>
        simp only [Bool.false_eq_true, if_true, if_false] <;> grind
    | paragraph =>
      simp only [trimTexts, weight_cons]
      rcases ih true with h | h
      · exact .inl (by rw [h])
      · exact .inr (by omega)
    | htmlTag _ | webLink _ _ | itemLink _ =>
      simp only [trimTexts, weight_cons]
      rcases ih false with h | h
      · exact .inl (by rw [h])
      · exact .inr (by omega)

theorem lightens_pass : Lightens pass :=
  (lightens_trimTexts true).comp <| lightens_dropFinalBreaks.comp <|
    (lightens_dropRepeatedBreaks true).comp <| lightens_joinTexts.comp lightens_dropEmpty

/-- A block after passes that were repeated until one changed nothing. -/
def normalize (b : Block) : Block :=
  if h : pass b = b then b
  else
    have : weight (pass b) < weight b := (lightens_pass b).resolve_left h
    normalize (pass b)
termination_by weight b

end ApiDoc.Block
