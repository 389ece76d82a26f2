import ApiDoc.Markup.Normalize

/-!
# Normalization of copies

Normalization looks at texts and at breaks. It never looks into a link, so a copy of a block that no
longer follows its comment is normalized just as the block is. Main statement:
`Block.normalize_detach`.
-/

namespace ApiDoc

/-- A copy of an element is a break if the element is. -/
theorem Element.detach_eq_paragraph_iff (e : Element) :
    e.detach = .paragraph ↔ e = .paragraph := by
  cases e <;> simp [detach]

namespace Block

section
variable (b : Block)

theorem detach_cons (e : Element) : detach (e :: b) = e.detach :: detach b := rfl

theorem detach_append (b₁ b₂ : Block) : detach (b₁ ++ b₂) = detach b₁ ++ detach b₂ :=
  List.map_append

/-! ## The steps of a pass -/

theorem dropEmpty_detach : dropEmpty b.detach = (dropEmpty b).detach := by
  rw [dropEmpty, detach, List.filter_map]
  refine congrArg (List.map _) (List.filter_congr fun e _ => ?_)
  cases e <;> rfl

theorem pushText_detach (chars : Text) : pushText chars b.detach = (pushText chars b).detach := by
  cases b with
  | nil => rfl
  | cons e b => cases e <;> rfl

theorem joinTexts_detach : joinTexts b.detach = (joinTexts b).detach := by
  induction b with
  | nil => rfl
  | cons e b ih =>
    cases e with
    | text chars =>
      refine Eq.trans ?_ (pushText_detach (joinTexts b) chars)
      exact congrArg (pushText chars) ih
    | paragraph | htmlTag | webLink | itemLink => exact congrArg (_ :: ·) ih

theorem dropRepeatedBreaks_detach (afterBreak : Bool) :
    dropRepeatedBreaks afterBreak b.detach = (dropRepeatedBreaks afterBreak b).detach := by
  induction b generalizing afterBreak with
  | nil => cases afterBreak <;> rfl
  | cons e b ih =>
    cases e with
    | paragraph =>
      cases afterBreak with
      | false => exact congrArg (_ :: ·) (ih true)
      | true => exact ih true
    | text | htmlTag | webLink | itemLink =>
      cases afterBreak <;> exact congrArg (_ :: ·) (ih false)

theorem dropFinalBreaks_detach : dropFinalBreaks b.detach = (dropFinalBreaks b).detach := by
  induction b with
  | nil => rfl
  | cons e b ih =>
    rw [detach_cons, dropFinalBreaks, dropFinalBreaks, ih]
    cases dropFinalBreaks b with
    | nil =>
      change (if e.detach = .paragraph then [] else [e.detach]) =
        detach (if e = .paragraph then [] else [e])
      simp only [Element.detach_eq_paragraph_iff]
      split <;> rfl
    | cons kept rest => rfl

theorem startsWithBreak_detach : startsWithBreak b.detach = startsWithBreak b := by
  cases b with
  | nil => rfl
  | cons e b => cases e <;> rfl

theorem trimTexts_detach (atStart : Bool) :
    trimTexts atStart b.detach = (trimTexts atStart b).detach := by
  induction b generalizing atStart with
  | nil => cases atStart <;> rfl
  | cons e b ih =>
    cases e with
    | text chars =>
      rw [detach_cons]
      simp only [Element.detach, trimTexts, startsWithBreak_detach, ih, detach_cons]
    | paragraph => exact congrArg (_ :: ·) (ih true)
    | htmlTag | webLink | itemLink => exact congrArg (_ :: ·) (ih false)

/-! ## Passes -/

theorem pass_detach : pass b.detach = (pass b).detach := by
  rw [pass, dropEmpty_detach, joinTexts_detach, dropRepeatedBreaks_detach, dropFinalBreaks_detach,
    trimTexts_detach, pass]

theorem weight_detach : weight b.detach = weight b := by
  induction b with
  | nil => rfl
  | cons e b ih =>
    rw [detach_cons, weight_cons, weight_cons, ih]
    cases e <;> rfl

/-- A copy is left as it is by a pass if its block is, since a pass that changes a block makes it
lighter. -/
theorem pass_detach_eq_self_iff : pass b.detach = b.detach ↔ pass b = b := by
  rw [pass_detach]
  refine ⟨fun h => (lightens_pass b).resolve_right fun hlt => ?_, congrArg detach⟩
  rw [← weight_detach, h, weight_detach] at hlt
  exact Nat.lt_irrefl _ hlt

/-- A copy is normalized as its block is. -/
theorem normalize_detach : normalize b.detach = (normalize b).detach := by
  fun_induction normalize b with
  | case1 b h => rw [normalize, dif_pos ((pass_detach_eq_self_iff b).2 h)]
  | case2 b h _ ih =>
    rw [normalize, dif_neg (mt (pass_detach_eq_self_iff b).1 h)]
    exact (congrArg normalize (pass_detach b)).trans ih

end

end Block

end ApiDoc
