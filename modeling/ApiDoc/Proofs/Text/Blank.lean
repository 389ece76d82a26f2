import Mathlib.Data.List.Chain
import Mathlib.Data.List.DropRight
import ApiDoc.Text.Word

/-!
# Blank characters

The blank characters as a list (`Text.mem_blanks_of_isBlank`), so that a class of characters that
none of them is in needs no other argument (`Text.isBlank_eq_false_of_class`): word characters are
not blank. A text without blanks has nothing to trim and nothing to collapse (`Text.strip_eq_self`,
`Text.collapseFrom_eq_self`), and trimming leaves nothing of a blank text only
(`Text.isEmpty_strip`). Trimming keeps exactly the texts without a blank at either end
(`Text.strip_eq_self_iff`), and a blank at an end does not matter to it. Collapsing leaves single
spaces of the blanks (`Text.isCollapsed_collapseFrom`), and a trimmed text trimmed
(`Text.strip_collapse`).
-/

namespace ApiDoc.Text

/-- The numbers of the blank characters. -/
def blankCodes : List Nat :=
  [0x09, 0x0A, 0x0B, 0x0C, 0x0D, 0x1C, 0x1D, 0x1E, 0x1F, 0x20, 0x85, 0xA0, 0x1680, 0x2000, 0x2001,
    0x2002, 0x2003, 0x2004, 0x2005, 0x2006, 0x2007, 0x2008, 0x2009, 0x200A, 0x2028, 0x2029, 0x202F,
    0x205F, 0x3000]

/-- The blank characters. -/
def blanks : List Char :=
  blankCodes.map Char.ofNat

section
variable {c : Char} {t u : Text}

theorem mem_blanks_of_isBlank (h : isBlank c = true) : c ∈ blanks := by
  have hcode : c.toNat ∈ blankCodes := by
    simp only [isBlank, Bool.or_eq_true, Bool.and_eq_true, decide_eq_true_eq, beq_iff_eq,
      UInt32.le_iff_toNat_le, ← UInt32.toNat_inj, UInt32.reduceToNat, Char.toNat_val] at h
    simp only [blankCodes, List.mem_cons, List.not_mem_nil, or_false]
    omega
  exact List.mem_map.2 ⟨c.toNat, hcode, Char.ofNat_toNat c⟩

/-- No character of a class is blank if no blank is in the class. -/
theorem isBlank_eq_false_of_class (inClass : Char → Bool) (hclass : blanks.any inClass = false)
    (h : inClass c = true) : isBlank c = false := by
  refine Bool.eq_false_iff.2 fun hblank => ?_
  rw [List.any_eq_true.2 ⟨c, mem_blanks_of_isBlank hblank, h⟩] at hclass
  cases hclass

/-- The table of word characters, searched as a list. -/
theorem isAlphanumeric_eq (c : Char) : isAlphanumeric c =
    if c.toNat < 0x80 then c.isAlphanum
    else alphanumericRanges.toList.any fun (low, high) => low ≤ c.toNat && c.toNat ≤ high := by
  unfold isAlphanumeric
  rw [Array.any_toList]

theorem isBlank_eq_false_of_isWord (h : isWord c = true) : isBlank c = false := by
  refine isBlank_eq_false_of_class isWord ?_ h
  unfold isWord
  simp only [isAlphanumeric_eq]
  decide +kernel

/-- A text without blanks has none at its start. -/
theorem stripLeft_eq_self (h : hasBlank t = false) : stripLeft t = t := by
  cases t with
  | nil => rfl
  | cons c r =>
    rw [hasBlank, List.any_cons, Bool.or_eq_false_iff] at h
    exact List.dropWhile_cons_of_neg (by rw [h.1]; decide)

/-- A text without blanks has none at its end. -/
theorem stripRight_eq_self (h : hasBlank t = false) : stripRight t = t := by
  induction t with
  | nil => rfl
  | cons c r ih =>
    rw [hasBlank, List.any_cons, Bool.or_eq_false_iff] at h
    rw [stripRight, ih h.2]
    cases r with
    | nil => simp only [h.1, Bool.false_eq_true, if_false]
    | cons d r => rfl

theorem strip_eq_self (h : hasBlank t = false) : strip t = t := by
  rw [strip, stripLeft_eq_self h, stripRight_eq_self h]

/-- A text without blanks has none to collapse. -/
theorem collapseFrom_eq_self (h : hasBlank t = false) (afterBlank : Bool) :
    collapseFrom afterBlank t = t := by
  induction t generalizing afterBlank with
  | nil => rfl
  | cons c r ih =>
    rw [hasBlank, List.any_cons, Bool.or_eq_false_iff] at h
    rw [collapseFrom, h.1, if_neg Bool.false_ne_true, ih h.2]

theorem stripRight_eq_nil_iff : stripRight t = [] ↔ allBlank t = true := by
  induction t with
  | nil => exact iff_of_true rfl rfl
  | cons c r ih =>
    rw [stripRight, allBlank, List.all_cons, Bool.and_eq_true]
    change _ ↔ _ ∧ allBlank r = true
    rw [← ih]
    split
    · next h => simp [h]
    · next h => simp [h]

/-- Trimming leaves nothing of a blank text, and something of any other. -/
theorem isEmpty_strip (t : Text) : (strip t).isEmpty = allBlank t := by
  have hleft : allBlank (stripLeft t) = allBlank t := by
    conv_rhs => rw [← List.takeWhile_append_dropWhile (p := isBlank) (l := t)]
    rw [allBlank, allBlank, List.all_append, List.all_takeWhile, Bool.true_and]
    rfl
  rw [← hleft, Bool.eq_iff_iff, List.isEmpty_iff]
  exact stripRight_eq_nil_iff

/-! ## Trimming -/

theorem stripRight_eq_rdropWhile (t : Text) : stripRight t = t.rdropWhile isBlank := by
  induction t using List.reverseRecOn with
  | nil => rfl
  | append_singleton t c ih =>
    rw [List.rdropWhile_concat, ← ih]
    clear ih
    induction t with
    | nil => rfl
    | cons d t ih =>
      rw [List.cons_append, stripRight, ih]
      by_cases hc : isBlank c = true
      · simp only [if_pos hc]
        rfl
      · simp only [if_neg hc]
        cases t <;> rfl

theorem stripLeft_eq_self_iff : stripLeft t = t ↔ ∀ c ∈ t.head?, isBlank c = false := by
  cases t with
  | nil => simp [stripLeft]
  | cons c t => simp [stripLeft, List.dropWhile_eq_self_iff]

theorem stripRight_eq_self_iff : stripRight t = t ↔ ∀ c ∈ t.getLast?, isBlank c = false := by
  rw [stripRight_eq_rdropWhile, List.rdropWhile_eq_self_iff]
  cases t with
  | nil => simp
  | cons c t => simp [List.getLast?_eq_getLast_of_ne_nil]

theorem stripRight_stripRight (t : Text) : stripRight (stripRight t) = stripRight t := by
  rw [stripRight_eq_rdropWhile, stripRight_eq_rdropWhile, List.rdropWhile_idempotent]

theorem stripRight_prefix_self (t : Text) : stripRight t <+: t := by
  rw [stripRight_eq_rdropWhile]
  exact List.rdropWhile_prefix _ _

/-- Trimming only leaves characters out. -/
theorem strip_sublist (t : Text) : (strip t).Sublist t :=
  (stripRight_prefix_self _).sublist.trans (List.dropWhile_sublist _)

/-- Trimming keeps a text as it is if there is a blank at neither end. -/
theorem strip_eq_self_iff : strip t = t ↔
    (∀ c ∈ t.head?, isBlank c = false) ∧ ∀ c ∈ t.getLast?, isBlank c = false := by
  rw [← stripLeft_eq_self_iff, ← stripRight_eq_self_iff]
  constructor
  · intro h
    have hstart : strip t <+: stripLeft t := stripRight_prefix_self _
    have hself : stripLeft t = t := by
      refine (List.dropWhile_suffix _).eq_of_length_le ?_
      exact (congrArg List.length h).ge.trans hstart.length_le
    rw [strip, hself] at h
    exact ⟨hself, h⟩
  · rintro ⟨hl, hr⟩
    rw [strip, hl, hr]

/-- A trimmed text has nothing left to trim. -/
theorem strip_strip (t : Text) : strip (strip t) = strip t := by
  rw [strip_eq_self_iff]
  constructor
  · -- what is left at the start stands where the leading blanks end
    intro c hc
    obtain ⟨rest, hrest⟩ := stripRight_prefix_self (stripLeft t)
    have hself : stripLeft (stripLeft t) = stripLeft t := List.dropWhile_idempotent ..
    refine stripLeft_eq_self_iff.1 hself c ?_
    rw [← hrest, List.head?_append_of_ne_nil]
    · exact hc
    · intro hnil
      rw [strip, hnil] at hc
      cases hc
  · exact stripRight_eq_self_iff.1 (stripRight_stripRight _)

theorem strip_cons_of_isBlank (h : isBlank c = true) : strip (c :: t) = strip t := by
  rw [strip, stripLeft, List.dropWhile_cons_of_pos h]
  rfl

theorem strip_concat_of_isBlank (h : isBlank c = true) : strip (t ++ [c]) = strip t := by
  simp only [strip, stripLeft, stripRight_eq_rdropWhile]
  rw [List.dropWhile_append]
  split
  · next hnil =>
    rw [List.isEmpty_iff.1 hnil, List.dropWhile_cons_of_pos h]
    rfl
  · exact List.rdropWhile_concat_pos _ _ _ h

/-- A text is what trimming leaves of it, between blanks. -/
theorem exists_eq_append_strip (t : Text) : ∃ u v, (∀ c ∈ u, isBlank c = true) ∧
    (∀ c ∈ v, isBlank c = true) ∧ t = u ++ strip t ++ v := by
  refine ⟨t.takeWhile isBlank, (stripLeft t).rtakeWhile isBlank,
    fun c hc => List.mem_takeWhile_imp hc, fun c hc => List.mem_rtakeWhile_imp hc, ?_⟩
  rw [strip, stripRight_eq_rdropWhile, List.append_assoc, List.rdropWhile_append_rtakeWhile]
  exact List.takeWhile_append_dropWhile.symm

/-- Blanks before a text do not matter to trimming. -/
theorem strip_append_left (h : ∀ c ∈ u, isBlank c = true) (t : Text) :
    strip (u ++ t) = strip t := by
  induction u with
  | nil => rfl
  | cons c u ih =>
    obtain ⟨hc, hu⟩ := List.forall_mem_cons.1 h
    rw [List.cons_append, strip_cons_of_isBlank hc, ih hu]

/-- Blanks behind a text do not matter to trimming. -/
theorem strip_append_right (h : ∀ c ∈ u, isBlank c = true) (t : Text) :
    strip (t ++ u) = strip t := by
  induction u generalizing t with
  | nil => rw [List.append_nil]
  | cons c u ih =>
    obtain ⟨hc, hu⟩ := List.forall_mem_cons.1 h
    rw [List.append_cons, ih hu, strip_concat_of_isBlank hc]

/-! ## Collapsing -/

/-- In a collapsed text the only blank is the space, and no two spaces stand side by side. -/
structure IsCollapsed (t : Text) : Prop where
  spaces : ∀ c ∈ t, isBlank c = true → c = ' '
  single : t.IsChain fun c d => ¬ (c = ' ' ∧ d = ' ')

theorem mem_of_mem_collapseFrom {afterBlank : Bool} (h : c ∈ collapseFrom afterBlank t) :
    c = ' ' ∨ c ∈ t := by
  induction t generalizing afterBlank with
  | nil => cases h
  | cons d t ih =>
    have hrest {afterBlank : Bool} (h : c ∈ collapseFrom afterBlank t) : c = ' ' ∨ c ∈ d :: t :=
      (ih h).imp_right (List.mem_cons_of_mem d)
    rw [collapseFrom] at h
    split at h
    · split at h
      · exact hrest h
      · exact (List.mem_cons.1 h).elim .inl hrest
    · exact (List.mem_cons.1 h).elim (fun heq => .inr (heq ▸ List.mem_cons_self)) hrest

/-- Within a run of blanks the next character that is written is not blank, since the space of the
run is written already. -/
theorem isBlank_of_head?_collapseFrom (h : c ∈ (collapseFrom true t).head?) :
    isBlank c = false := by
  induction t with
  | nil => cases h
  | cons d t ih =>
    rw [collapseFrom] at h
    split at h
    · exact ih h
    · next hd =>
      cases h
      exact Bool.eq_false_iff.2 hd

theorem isCollapsed_collapseFrom (afterBlank : Bool) (t : Text) :
    IsCollapsed (collapseFrom afterBlank t) := by
  have hspace : isBlank ' ' = true := by decide
  induction t generalizing afterBlank with
  | nil => exact ⟨nofun, .nil⟩
  | cons d t ih =>
    rw [collapseFrom]
    split
    · split
      · exact ih true
      · refine ⟨?_, List.isChain_cons.2 ⟨?_, (ih true).single⟩⟩
        · exact List.forall_mem_cons.2 ⟨fun _ => rfl, (ih true).spaces⟩
        · rintro c hc ⟨-, rfl⟩
          rw [isBlank_of_head?_collapseFrom hc] at hspace
          cases hspace
    · next hd =>
      refine ⟨?_, List.isChain_cons.2 ⟨?_, (ih false).single⟩⟩
      · exact List.forall_mem_cons.2 ⟨fun hblank => absurd hblank hd, (ih false).spaces⟩
      · rintro c hc ⟨rfl, -⟩
        exact hd hspace

theorem collapseFrom_concat (h : isBlank c = false) (afterBlank : Bool) (t : Text) :
    collapseFrom afterBlank (t ++ [c]) = collapseFrom afterBlank t ++ [c] := by
  induction t generalizing afterBlank with
  | nil => simp [collapseFrom, h]
  | cons d t ih =>
    rw [List.cons_append, collapseFrom, collapseFrom, ih, ih]
    split
    · split <;> rfl
    · rfl

/-- A trimmed text is still trimmed when it is collapsed. -/
theorem strip_collapse (h : strip t = t) : strip (collapse t) = collapse t := by
  obtain ⟨hfirst, hlast⟩ := strip_eq_self_iff.1 h
  refine strip_eq_self_iff.2 ⟨fun c hc => ?_, fun c hc => ?_⟩
  · cases t with
    | nil => cases hc
    | cons d r =>
      have hd : isBlank d = false := hfirst d rfl
      rw [collapse, collapseFrom, if_neg (by simp [hd])] at hc
      cases hc
      exact hd
  · obtain rfl | ⟨r, d, rfl⟩ := List.eq_nil_or_concat' t
    · cases hc
    · have hd : isBlank d = false := hlast d List.getLast?_concat
      rw [collapse, collapseFrom_concat hd, List.getLast?_concat] at hc
      cases hc
      exact hd

theorem collapse_ne_nil (h : t ≠ []) : collapse t ≠ [] := by
  cases t with
  | nil => exact absurd rfl h
  | cons c r =>
    rw [collapse, collapseFrom]
    split
    · exact List.cons_ne_nil _ _
    · exact List.cons_ne_nil _ _

end

end ApiDoc.Text
