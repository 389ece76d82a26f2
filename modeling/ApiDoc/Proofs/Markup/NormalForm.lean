import Mathlib.Data.List.Chain
import ApiDoc.Proofs.Markup.Normalize
import ApiDoc.Proofs.Text.Blank

/-!
# The normal form of blocks

A block is in normal form if it has no empty text, no two texts side by side, no break at an end or
beside another one, and no text with a blank where a paragraph starts or ends (`Block.IsNormal`).
These are the blocks that a pass leaves as they are (`Block.pass_eq_self_iff`): none of the steps of
a pass makes a block heavier, so a pass that comes out even has changed nothing in any of them
(`Block.Lightens.comp_eq_self_iff`), and what a step leaves as it is, is said in a lemma for each.
Main statement: `Block.isNormal_normalize`. A change to links keeps a block normal
(`Block.IsNormal.map`).
-/

namespace ApiDoc

namespace Element

/-- An element is not a text with a blank at its start. -/
def StartsTrimmed : Element → Prop
  | text chars => ∀ c ∈ chars.head?, Text.isBlank c = false
  | paragraph | htmlTag _ | webLink _ _ | itemLink _ => True

/-- An element is not a text with a blank at its end. -/
def EndsTrimmed : Element → Prop
  | text chars => ∀ c ∈ chars.getLast?, Text.isBlank c = false
  | paragraph | htmlTag _ | webLink _ _ | itemLink _ => True

/-- An element is neither a text nor a break. -/
def IsSolid : Element → Prop
  | text _ | paragraph => False
  | htmlTag _ | webLink _ _ | itemLink _ => True

/-- One element may stand before another: they are not two texts and not two breaks, and a text
beside a break is trimmed on that side. -/
structure Beside (e f : Element) : Prop where
  texts : ∀ chars more, ¬ (e = .text chars ∧ f = .text more)
  breaks : ¬ (e = .paragraph ∧ f = .paragraph)
  opening : e = .paragraph → f.StartsTrimmed
  closing : f = .paragraph → e.EndsTrimmed

theorem IsSolid.startsTrimmed {e : Element} (h : e.IsSolid) : e.StartsTrimmed := by
  cases e with
  | text | paragraph => exact h.elim
  | htmlTag | webLink | itemLink => trivial

theorem IsSolid.endsTrimmed {e : Element} (h : e.IsSolid) : e.EndsTrimmed := by
  cases e with
  | text | paragraph => exact h.elim
  | htmlTag | webLink | itemLink => trivial

end Element

/-- A block is in normal form. -/
structure Block.IsNormal (b : Block) : Prop where
  noEmptyText : .text [] ∉ b
  beside : b.IsChain Element.Beside
  first : ∀ e ∈ b.head?, e ≠ .paragraph ∧ e.StartsTrimmed
  last : ∀ e ∈ b.getLast?, e ≠ .paragraph ∧ e.EndsTrimmed

namespace Block

section
variable {b : Block} {f g : Block → Block}

/-! ## What the steps of a pass leave as it is -/

theorem Lightens.weight_le (hf : Lightens f) (b : Block) : weight (f b) ≤ weight b := by
  rcases hf b with h | h
  · rw [h]
  · exact Nat.le_of_lt h

/-- Two steps that never make a block heavier leave one as it is if each of them does. -/
theorem Lightens.comp_eq_self_iff (hf : Lightens f) (hg : Lightens g) :
    f (g b) = b ↔ g b = b ∧ f b = b := by
  constructor
  · intro h
    have hgb : g b = b := (hg b).resolve_right fun hlt => by
      have hle := hf.weight_le (g b)
      rw [h] at hle
      exact absurd hlt (Nat.not_lt_of_le hle)
    rw [hgb] at h
    exact ⟨hgb, h⟩
  · rintro ⟨hgb, hfb⟩
    rw [hgb, hfb]

theorem dropEmpty_eq_self_iff : dropEmpty b = b ↔ .text [] ∉ b := by
  rw [dropEmpty, List.filter_eq_self]
  constructor
  · intro h hmem
    exact absurd (h _ hmem) (by decide)
  · intro h e he
    cases e with
    | text chars =>
      cases chars with
      | nil => exact absurd he h
      | cons c chars => rfl
    | paragraph | htmlTag | webLink | itemLink => rfl

/-- A text in front of joined texts stands alone if no text comes next. -/
theorem pushText_joinTexts_eq_iff (chars : Text) : pushText chars (joinTexts b) = .text chars :: b ↔
    joinTexts b = b ∧ ∀ more, b.head? ≠ some (.text more) := by
  constructor
  · intro h
    cases hjoined : joinTexts b with
    | nil =>
      rw [hjoined] at h
      cases h
      exact ⟨rfl, by simp⟩
    | cons f rest =>
      cases f with
      | text more =>
        -- the two texts would be one, and the block lighter
        have hle := lightens_joinTexts.weight_le b
        have hweight := congrArg weight h
        rw [hjoined] at hle hweight
        simp only [pushText, weight_cons, elementWeight, List.length_append] at hle hweight
        omega
      | paragraph | htmlTag | webLink | itemLink =>
        rw [hjoined] at h
        cases h
        exact ⟨rfl, by simp⟩
  · rintro ⟨hself, hnext⟩
    rw [hself]
    cases b with
    | nil => rfl
    | cons f b =>
      cases f with
      | text more => exact absurd rfl (hnext more)
      | paragraph | htmlTag | webLink | itemLink => rfl

theorem joinTexts_eq_self_iff : joinTexts b = b ↔
    b.IsChain fun e f => ∀ chars more, ¬ (e = .text chars ∧ f = .text more) := by
  induction b with
  | nil => exact iff_of_true rfl .nil
  | cons e b ih =>
    rw [List.isChain_cons, ← ih]
    cases e with
    | text chars =>
      rw [joinTexts, pushText_joinTexts_eq_iff, and_comm]
      refine and_congr_left fun _ => ?_
      constructor
      · rintro h f hf chars' more ⟨-, rfl⟩
        exact h more hf
      · rintro h more hmore
        exact h _ hmore chars more ⟨rfl, rfl⟩
    | paragraph | htmlTag | webLink | itemLink =>
      simp [joinTexts]

theorem dropRepeatedBreaks_eq_self_iff (afterBreak : Bool) :
    dropRepeatedBreaks afterBreak b = b ↔ (afterBreak = true → b.head? ≠ some .paragraph) ∧
      b.IsChain fun e f => ¬ (e = .paragraph ∧ f = .paragraph) := by
  induction b generalizing afterBreak with
  | nil => cases afterBreak <;> simp [dropRepeatedBreaks]
  | cons e b ih =>
    rw [List.isChain_cons]
    cases e with
    | paragraph =>
      cases afterBreak with
      | false => simp [dropRepeatedBreaks, ih true, Option.mem_def, imp.swap]
      | true =>
        refine iff_of_false (fun h => ?_) fun h => h.1 rfl rfl
        have hle := (lightens_dropRepeatedBreaks true).weight_le b
        rw [dropRepeatedBreaks] at h
        rw [h, weight_cons] at hle
        have := elementWeight_pos .paragraph
        omega
    | text | htmlTag | webLink | itemLink =>
      cases afterBreak <;> simp [dropRepeatedBreaks, ih false]

theorem dropFinalBreaks_eq_self_iff : dropFinalBreaks b = b ↔ b.getLast? ≠ some .paragraph := by
  induction b with
  | nil => simp [dropFinalBreaks]
  | cons e b ih =>
    cases b with
    | nil =>
      simp [dropFinalBreaks]
    | cons f b =>
      rw [List.getLast?_cons_cons, ← ih, dropFinalBreaks]
      split
      · next hnil =>
        refine iff_of_false (fun h => ?_) fun h => ?_
        · split at h <;> cases h
        · rw [hnil] at h
          cases h
      · exact List.cons_inj_right e

theorem startsWithBreak_iff : startsWithBreak b = true ↔ b = [] ∨ b.head? = some .paragraph := by
  cases b with
  | nil => simp [startsWithBreak]
  | cons e b => cases e <;> simp [startsWithBreak]

/-- What holds of the last element of a block holds of its first if that is the only one. -/
theorem forall_getLast?_cons {P : Element → Prop} (e : Element) (b : Block) :
    (∀ f ∈ (e :: b).getLast?, P f) ↔ (b = [] → P e) ∧ ∀ f ∈ b.getLast?, P f := by
  cases b <;> simp

theorem trimTexts_text_eq_iff (atStart : Bool) (chars : Text) :
    trimTexts atStart (.text chars :: b) = .text chars :: b ↔
      (atStart = true → (Element.text chars).StartsTrimmed) ∧
      (startsWithBreak b = true → (Element.text chars).EndsTrimmed) ∧ trimTexts false b = b := by
  simp only [trimTexts, List.cons.injEq, Element.text.injEq, ← and_assoc]
  refine and_congr_left fun _ => ?_
  change _ ↔ (_ → ∀ c ∈ chars.head?, _) ∧ (_ → ∀ c ∈ chars.getLast?, _)
  cases atStart with
  | false => cases startsWithBreak b <;> simp [Text.stripRight_eq_self_iff]
  | true =>
    cases startsWithBreak b with
    | false => simp [Text.stripLeft_eq_self_iff]
    | true =>
      simp only [if_true, true_imp_iff]
      exact Text.strip_eq_self_iff

theorem trimTexts_eq_self_iff (atStart : Bool) :
    trimTexts atStart b = b ↔ (atStart = true → ∀ e ∈ b.head?, e.StartsTrimmed) ∧
      (∀ e ∈ b.getLast?, e.EndsTrimmed) ∧
      b.IsChain fun e f =>
        (e = .paragraph → f.StartsTrimmed) ∧ (f = .paragraph → e.EndsTrimmed) := by
  induction b generalizing atStart with
  | nil => cases atStart <;> simp [trimTexts]
  | cons e b ih =>
    rw [List.isChain_cons, forall_getLast?_cons]
    cases e with
    | text chars =>
      rw [trimTexts_text_eq_iff, ih false, startsWithBreak_iff]
      grind [Option.mem_def]
    | paragraph =>
      rw [trimTexts, List.cons_inj_right, ih true]
      grind [Element.StartsTrimmed, Element.EndsTrimmed, Option.mem_def]
    | htmlTag | webLink | itemLink =>
      simp [trimTexts, ih false, Element.StartsTrimmed, Element.EndsTrimmed]

/-! ## Normal form -/

theorem isChain_beside_iff : b.IsChain Element.Beside ↔
    (b.IsChain fun e f => ∀ chars more, ¬ (e = .text chars ∧ f = .text more)) ∧
      (b.IsChain fun e f => ¬ (e = .paragraph ∧ f = .paragraph)) ∧
      b.IsChain fun e f =>
        (e = .paragraph → f.StartsTrimmed) ∧ (f = .paragraph → e.EndsTrimmed) := by
  constructor
  · intro h
    exact ⟨h.imp fun _ _ h => h.texts, h.imp fun _ _ h => h.breaks,
      h.imp fun _ _ h => ⟨h.opening, h.closing⟩⟩
  · simp only [List.isChain_iff_getElem]
    rintro ⟨htexts, hbreaks, htrimmed⟩ i hi
    exact ⟨htexts i hi, hbreaks i hi, (htrimmed i hi).1, (htrimmed i hi).2⟩

/-- A pass leaves a block as it is if and only if the block is in normal form. -/
theorem pass_eq_self_iff : pass b = b ↔ b.IsNormal := by
  have hjoin := lightens_joinTexts.comp lightens_dropEmpty
  have hrepeated := (lightens_dropRepeatedBreaks true).comp hjoin
  have hfinal := lightens_dropFinalBreaks.comp hrepeated
  unfold pass
  rw [(lightens_trimTexts true).comp_eq_self_iff hfinal,
    lightens_dropFinalBreaks.comp_eq_self_iff hrepeated,
    (lightens_dropRepeatedBreaks true).comp_eq_self_iff hjoin,
    lightens_joinTexts.comp_eq_self_iff lightens_dropEmpty, dropEmpty_eq_self_iff,
    joinTexts_eq_self_iff, dropRepeatedBreaks_eq_self_iff, dropFinalBreaks_eq_self_iff,
    trimTexts_eq_self_iff]
  constructor
  · rintro ⟨⟨⟨⟨hempty, htexts⟩, hfirst, hbreaks⟩, hlast⟩, hstart, hend, htrimmed⟩
    exact {
      noEmptyText := hempty
      beside := isChain_beside_iff.2 ⟨htexts, hbreaks, htrimmed⟩
      first := fun e he => ⟨fun heq => hfirst rfl (heq ▸ he), hstart rfl e he⟩
      last := fun e he => ⟨fun heq => hlast (heq ▸ he), hend e he⟩ }
  · rintro ⟨hempty, hbeside, hfirst, hlast⟩
    obtain ⟨htexts, hbreaks, htrimmed⟩ := isChain_beside_iff.1 hbeside
    exact ⟨⟨⟨⟨hempty, htexts⟩, fun _ h => (hfirst _ h).1 rfl, hbreaks⟩,
      fun h => (hlast _ h).1 rfl⟩, fun _ e he => (hfirst e he).2, fun e he => (hlast e he).2,
      htrimmed⟩

theorem isNormal_normalize (b : Block) : (normalize b).IsNormal := by
  fun_induction normalize b with
  | case1 b h => exact pass_eq_self_iff.1 h
  | case2 b h _ ih => exact ih

/-- Normalization leaves a block as it is if and only if the block is in normal form. -/
theorem normalize_eq_self_iff : normalize b = b ↔ b.IsNormal := by
  constructor
  · intro h
    exact h ▸ isNormal_normalize b
  · intro h
    rw [normalize, dif_pos (pass_eq_self_iff.2 h)]

theorem isNormal_nil : IsNormal [] :=
  ⟨nofun, .nil, nofun, nofun⟩

/-- Tags and links may be replaced by others: normal form is about texts and breaks. -/
theorem IsNormal.map {f : Element → Element} (h : b.IsNormal)
    (hf : ∀ e, f e = e ∨ e.IsSolid ∧ (f e).IsSolid) : IsNormal (b.map f) := by
  have htext {e : Element} {chars : Text} (hfe : f e = .text chars) : e = .text chars := by
    rcases hf e with heq | ⟨-, hsolid⟩
    · rw [← heq, hfe]
    · rw [hfe] at hsolid
      exact hsolid.elim
  have hbreak {e : Element} (hfe : f e = .paragraph) : e = .paragraph := by
    rcases hf e with heq | ⟨-, hsolid⟩
    · rw [← heq, hfe]
    · rw [hfe] at hsolid
      exact hsolid.elim
  have htrimmed (e : Element) : (e.StartsTrimmed → (f e).StartsTrimmed) ∧
      (e.EndsTrimmed → (f e).EndsTrimmed) := by
    rcases hf e with heq | ⟨-, hsolid⟩
    · rw [heq]
      exact ⟨id, id⟩
    · exact ⟨fun _ => hsolid.startsTrimmed, fun _ => hsolid.endsTrimmed⟩
  refine ⟨fun hmem => ?_, (List.isChain_map f).2 (h.beside.imp fun e e' hb => ?_),
    fun image himage => ?_, fun image himage => ?_⟩
  · obtain ⟨e, he, hfe⟩ := List.mem_map.1 hmem
    exact h.noEmptyText (htext hfe ▸ he)
  · exact ⟨fun chars more hboth => hb.texts chars more ⟨htext hboth.1, htext hboth.2⟩,
      fun hboth => hb.breaks ⟨hbreak hboth.1, hbreak hboth.2⟩,
      fun hfe => (htrimmed e').1 (hb.opening (hbreak hfe)),
      fun hfe => (htrimmed e).2 (hb.closing (hbreak hfe))⟩
  · rw [List.head?_map] at himage
    obtain ⟨e, he, rfl⟩ := Option.map_eq_some_iff.1 himage
    exact ⟨fun hfe => (h.first e he).1 (hbreak hfe), (htrimmed e).1 (h.first e he).2⟩
  · rw [List.getLast?_map] at himage
    obtain ⟨e, he, rfl⟩ := Option.map_eq_some_iff.1 himage
    exact ⟨fun hfe => (h.last e he).1 (hbreak hfe), (htrimmed e).2 (h.last e he).2⟩

theorem IsNormal.settle (h : b.IsNormal) (place : Nat) (status : LinkStatus) :
    (b.settle place status).IsNormal :=
  h.map fun e => by
    cases e with
    | itemLink link => exact .inr ⟨trivial, trivial⟩
    | text | paragraph | htmlTag | webLink => exact .inl rfl

theorem IsNormal.detach (h : b.IsNormal) : b.detach.IsNormal :=
  h.map fun e => by
    cases e with
    | itemLink link => exact .inr ⟨trivial, trivial⟩
    | text | paragraph | htmlTag | webLink => exact .inl rfl

end

end Block

end ApiDoc
