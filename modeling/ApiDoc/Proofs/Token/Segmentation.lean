import Mathlib.Data.List.Chain
import Mathlib.Data.List.ReduceOption
import Mathlib.Data.List.TakeWhile
import ApiDoc.Proofs.Sections.Complaints
import ApiDoc.Proofs.Workspace.Reading

/-!
# Spans as a segmentation

What the spans of a comment are, said without the scanner: where a block tag may stand
(`Span.IsBlockTag`), what braces around an inline tag look like (`Span.IsBraces`), and how a text is
cut into such tags and stretches of text (`Span.IsSegmentation`). The scanner finds a tag wherever
one starts (`Span.tagAt?_eq_none_iff`): where braces with all inner braces escaped start, some brace
closes them, though not always the same one. Main statement: `Token.tokenize_segments`.
-/

namespace ApiDoc

namespace Text

/-- Whether a character is a brace. -/
def isBrace (c : Char) : Bool :=
  c = '{' || c = '}'

/-- Every brace of a text stands right behind a backslash; so none is its first character. -/
def BracesEscaped (t : Text) : Prop :=
  (∀ c ∈ t.head?, isBrace c = false) ∧
    t.IsChain fun previous c => isBrace c = true → previous = '\\'

/-- A text starts with an `@` and a character of a tag's name. -/
def StartsTag (t : Text) : Prop :=
  ∃ c rest, t = '@' :: c :: rest ∧ Span.isTagChar c = true

end Text

namespace Span

/-- Whether a span is a stretch of text. -/
def isText : Span → Bool
  | text _ => true
  | _ => false

/-- A text is a block tag where it stands: an `@` and a name, with the start or a blank before it
and a blank or the end after it. -/
def IsBlockTag (before tag after : Text) : Prop :=
  (∃ name, tag = '@' :: name ∧ name ≠ [] ∧ ∀ c ∈ name, isTagChar c = true) ∧
    (∀ c ∈ before.getLast?, Text.isBlank c = true) ∧ ∀ c ∈ after.head?, Text.isBlank c = true

/-- A text is braces around an inline tag: blanks may stand before the `@`, and every brace inside
is escaped. -/
def IsBraces (t : Text) : Prop :=
  ∃ lead body, t = '{' :: (lead ++ '@' :: body) ++ ['}'] ∧
    (∀ c ∈ lead, Text.isBlank c = true) ∧ Text.BracesEscaped (lead ++ '@' :: body)

/-- A tag starts between two texts. -/
def TagStarts (before after : Text) : Prop :=
  ∃ tag rest, after = tag ++ rest ∧ (IsBlockTag before tag rest ∨ IsBraces tag)

/-- A span is right where it stands: a tag has the form of one, and within text no tag starts. -/
def Fits (before after : Text) : Span → Prop
  | text chars =>
    ∀ skipped rest, chars = skipped ++ rest → rest ≠ [] →
      ¬ TagStarts (before ++ skipped) (rest ++ after)
  | block tag => IsBlockTag before tag after
  | braces content => IsBraces ('{' :: content ++ ['}'])

/-- No two neighbours are stretches of text. -/
def Apart (spans : List Span) : Prop :=
  spans.IsChain fun a b => ¬ (a.isText = true ∧ b.isText = true)

/-- A text is cut into spans: they are its consecutive pieces, none is empty, each is right where it
stands, and no two stretches of text are neighbours. -/
structure IsSegmentation (s : Text) (spans : List Span) : Prop where
  covers : spans.flatMap chars = s
  nonempty : ∀ span ∈ spans, span.chars ≠ []
  fits : ∀ before span after, spans = before ++ span :: after →
    span.Fits (before.flatMap chars) (after.flatMap chars)
  apart : Apart spans

/-- What comes of a span: one token, or none if braces hold no tag. -/
def Yields : Span → Option Token → Prop
  | text chars, outcome => outcome = some (.text chars)
  | block tag, outcome => outcome = some (.block tag)
  | braces content, outcome =>
    (outcome = none ↔ ¬ Text.StartsTag (Text.strip content)) ∧
      ∀ token ∈ outcome, ∃ tag text, token = .inline tag text

/-- Spans are right one after the other, behind what stands before them. -/
def FitFrom (before : Text) : List Span → Prop
  | [] => True
  | span :: spans => span.Fits before (spans.flatMap chars) ∧ FitFrom (before ++ span.chars) spans

/-- Whether a word may start behind a text: it is empty or ends with a blank. -/
def startsWord (before : Text) : Bool :=
  before.getLast?.all Text.isBlank

section
variable {s t before inner rest lead body l : Text} {b c : Char} {span : Span}
  {spans before' after : List Span}

/-! ## Escaped braces -/

theorem isBlank_eq_false_of_isTagChar (h : isTagChar c = true) : Text.isBlank c = false :=
  Text.isBlank_eq_false_of_class isTagChar rfl h

theorem bracesEscaped_nil : Text.BracesEscaped [] :=
  ⟨nofun, .nil⟩

/-- A character before a text, unless it escapes a brace at the text's start. -/
theorem bracesEscaped_cons (hc : c = '\\' → ∀ d ∈ t.head?, Text.isBrace d = false) :
    Text.BracesEscaped (c :: t) ↔ Text.isBrace c = false ∧ Text.BracesEscaped t := by
  unfold Text.BracesEscaped
  rw [List.isChain_cons]
  constructor
  · rintro ⟨hfirst, hhead, hchain⟩
    refine ⟨hfirst c rfl, fun d hd => Bool.eq_false_iff.2 fun hbrace => ?_, hchain⟩
    rw [hc (hhead d hd hbrace) d hd] at hbrace
    cases hbrace
  · rintro ⟨hfirst, hhead, hchain⟩
    refine ⟨fun d hd => ?_, fun d hd hbrace => ?_, hchain⟩
    · cases hd
      exact hfirst
    · rw [hhead d hd] at hbrace
      cases hbrace

/-- A brace behind a backslash. -/
theorem bracesEscaped_escape (hb : Text.isBrace b = true) :
    Text.BracesEscaped ('\\' :: b :: t) ↔ Text.BracesEscaped t := by
  have hne : b ≠ '\\' := by
    rintro rfl
    cases hb
  unfold Text.BracesEscaped
  rw [List.isChain_cons, List.isChain_cons]
  constructor
  · rintro ⟨-, -, hhead, hchain⟩
    exact ⟨fun d hd => Bool.eq_false_iff.2 fun hbrace => hne (hhead d hd hbrace), hchain⟩
  · rintro ⟨hhead, hchain⟩
    refine ⟨fun d hd => ?_, fun _ _ _ => rfl, fun d hd hbrace => ?_, hchain⟩
    · cases hd
      rfl
    · rw [hhead d hd] at hbrace
      cases hbrace

/-- The blanks and the `@` that open a tag escape nothing. -/
theorem bracesEscaped_lead (hlead : ∀ c ∈ lead, Text.isBlank c = true) :
    Text.BracesEscaped (lead ++ '@' :: body) ↔ Text.BracesEscaped body := by
  induction lead with
  | nil => exact (bracesEscaped_cons fun h => absurd h (by decide)).trans (and_iff_right rfl)
  | cons c lead ih =>
    obtain ⟨hc, hlead⟩ := List.forall_mem_cons.1 hlead
    have hbrace : Text.isBrace c = false := by
      refine Bool.eq_false_iff.2 fun h => ?_
      rw [Text.isBlank_eq_false_of_class Text.isBrace rfl h] at hc
      cases hc
    have hne : c ≠ '\\' := by
      rintro rfl
      cases hc
    rw [List.cons_append, bracesEscaped_cons fun h => absurd h hne, ih hlead]
    exact and_iff_right hbrace

theorem isBrace_eq_false_iff : Text.isBrace c = false ↔ c ≠ '{' ∧ c ≠ '}' := by
  simp [Text.isBrace]

/-- Before a text that does not go on with an escaped brace, a character escapes nothing. -/
theorem isBrace_head?_of_append (hs : s = t ++ rest) (hopen : ∀ r, c = '\\' → s = '{' :: r → False)
    (hclose : ∀ r, c = '\\' → s = '}' :: r → False) (hc : c = '\\') :
    ∀ d ∈ t.head?, Text.isBrace d = false := by
  intro d hd
  obtain ⟨r, rfl⟩ := List.head?_eq_some_iff.1 hd
  refine isBrace_eq_false_iff.2 ⟨?_, ?_⟩
  · rintro rfl
    exact hopen _ hc hs
  · rintro rfl
    exact hclose _ hc hs

/-- What is inside braces that close has its braces escaped. -/
theorem bracesEscaped_of_closeBrace? (h : closeBrace? s = some (inner, rest)) :
    Text.BracesEscaped inner := by
  fun_induction closeBrace? s generalizing inner rest with
  | case1 r ih =>
    obtain ⟨⟨i, _⟩, hr, he⟩ := Option.map_eq_some_iff.1 h
    obtain ⟨rfl, rfl⟩ := Prod.mk.inj he
    exact (bracesEscaped_escape rfl).2 (ih hr)
  | case2 r i _ hr ih =>
    obtain ⟨rfl, rfl⟩ := Prod.mk.inj (Option.some.inj h)
    exact (bracesEscaped_escape rfl).2 (ih hr)
  | case3 =>
    obtain ⟨rfl, rfl⟩ := Prod.mk.inj (Option.some.inj h)
    exact (bracesEscaped_cons fun _ d hd => by cases hd).2 ⟨rfl, bracesEscaped_nil⟩
  | case4 =>
    obtain ⟨rfl, rfl⟩ := Prod.mk.inj (Option.some.inj h)
    exact bracesEscaped_nil
  | case5 => simp at h
  | case6 c r hopen hclose hnotClose hnotOpen ih =>
    obtain ⟨⟨i, _⟩, hr, he⟩ := Option.map_eq_some_iff.1 h
    obtain ⟨rfl, rfl⟩ := Prod.mk.inj he
    refine (bracesEscaped_cons (isBrace_head?_of_append (closeBrace?_eq hr) hopen hclose)).2 ?_
    exact ⟨isBrace_eq_false_iff.2 ⟨hnotOpen, hnotClose⟩, ih hr⟩
  | case7 => simp at h

/-- Where some brace closes an open tag with its braces escaped, one is found. -/
theorem isSome_closeBrace? (hinner : Text.BracesEscaped inner) (hs : s = inner ++ '}' :: rest) :
    (closeBrace? s).isSome = true := by
  fun_induction closeBrace? s generalizing inner with
  | case1 r ih =>
    rw [Option.isSome_map]
    rcases List.cons_eq_append_iff.1 hs with ⟨-, heq⟩ | ⟨inner₁, rfl, hs₁⟩
    · cases heq
    · rcases List.cons_eq_append_iff.1 hs₁ with ⟨-, heq⟩ | ⟨inner₂, rfl, hs₂⟩
      · cases heq
      · exact ih ((bracesEscaped_escape rfl).1 hinner) hs₂
  | case2 | case3 | case4 => rfl
  | case5 r =>
    cases inner with
    | nil => cases hs
    | cons b inner =>
      obtain ⟨rfl, -⟩ := List.cons.inj hs
      cases hinner.1 _ rfl
  | case6 c r hopen hclose hnotClose hnotOpen ih =>
    rw [Option.isSome_map]
    cases inner with
    | nil => exact absurd (List.cons.inj hs).1 hnotClose
    | cons b inner =>
      obtain ⟨rfl, hr⟩ := List.cons.inj hs
      exact ih ((bracesEscaped_cons (isBrace_head?_of_append hr hopen hclose)).1 hinner).2 hr
  | case7 => simp at hs

/-- An `@` behind blanks opens a tag. -/
theorem openTag?_eq_some_iff : openTag? s = some (l, body) ↔
    ∃ lead, l = lead ++ ['@'] ∧ s = lead ++ '@' :: body ∧ ∀ c ∈ lead, Text.isBlank c = true := by
  induction s generalizing l with
  | nil => simp [openTag?]
  | cons c r ih =>
    unfold openTag?
    split
    · next hc =>
      rw [Option.map_eq_some_iff]
      constructor
      · rintro ⟨⟨l, _⟩, hr, he⟩
        obtain ⟨rfl, rfl⟩ := Prod.mk.inj he
        obtain ⟨lead, rfl, rfl, hlead⟩ := ih.1 hr
        exact ⟨c :: lead, rfl, rfl, List.forall_mem_cons.2 ⟨hc, hlead⟩⟩
      · rintro ⟨lead, rfl, hs, hlead⟩
        cases lead with
        | nil =>
          rw [(List.cons.inj hs).1] at hc
          cases hc
        | cons d lead =>
          obtain ⟨rfl, rfl⟩ := List.cons.inj hs
          exact ⟨_, ih.2 ⟨lead, rfl, rfl, (List.forall_mem_cons.1 hlead).2⟩, rfl⟩
    · next hc =>
      constructor
      · intro h
        split at h
        · next hat =>
          obtain ⟨rfl, rfl⟩ := Prod.mk.inj (Option.some.inj h)
          exact ⟨[], rfl, by rw [hat]; rfl, List.forall_mem_nil _⟩
        · cases h
      · rintro ⟨lead, rfl, hs, hlead⟩
        cases lead with
        | nil =>
          obtain ⟨rfl, rfl⟩ := List.cons.inj hs
          rfl
        | cons d lead =>
          obtain ⟨rfl, -⟩ := List.cons.inj hs
          exact absurd (hlead c List.mem_cons_self) hc

/-! ## Where a tag starts -/

/-- Braces that are found have the form of braces around a tag. -/
theorem isBraces_of_braces? (h : braces? s = some (span, rest)) :
    ∃ content, span = .braces content ∧ IsBraces ('{' :: content ++ ['}']) := by
  simp only [braces?, Option.bind_eq_bind, Option.bind_eq_some_iff] at h
  obtain ⟨⟨l, body⟩, hopen, ⟨inner, _⟩, hclose, he⟩ := h
  obtain ⟨rfl, rfl⟩ := Prod.mk.inj (Option.some.inj he)
  obtain ⟨lead, rfl, -, hlead⟩ := openTag?_eq_some_iff.1 hopen
  refine ⟨_, rfl, lead, inner, by simp, hlead, ?_⟩
  exact (bracesEscaped_lead hlead).2 (bracesEscaped_of_closeBrace? hclose)

/-- Braces around a tag are found. -/
theorem isSome_tagAt?_of_isBraces (h : IsBraces t) (afterBlank : Bool) :
    (tagAt? afterBlank (t ++ rest)).isSome = true := by
  obtain ⟨lead, body, rfl, hlead, hescaped⟩ := h
  rw [bracesEscaped_lead hlead] at hescaped
  have hopen : openTag? (lead ++ '@' :: (body ++ '}' :: rest)) =
      some (lead ++ ['@'], body ++ '}' :: rest) :=
    openTag?_eq_some_iff.2 ⟨lead, rfl, rfl, hlead⟩
  have hclosed : (closeBrace? (body ++ '}' :: rest)).isSome = true :=
    isSome_closeBrace? hescaped rfl
  obtain ⟨⟨inner, after⟩, hclose⟩ := Option.isSome_iff_exists.1 hclosed
  simp [tagAt?, braces?, hopen, hclose]

theorem startsWord_iff :
    startsWord before = true ↔ ∀ c ∈ before.getLast?, Text.isBlank c = true := by
  unfold startsWord
  cases before.getLast? <;> simp

theorem endsWord_iff : endsWord s = true ↔ ∀ c ∈ s.head?, Text.isBlank c = true := by
  cases s <;> simp [endsWord]

/-- A block tag that is found has the form of one. -/
theorem isBlockTag_of_block? (hbefore : startsWord before = true)
    (h : block? s = some (span, rest)) : ∃ tag, span = .block tag ∧ IsBlockTag before tag rest := by
  simp only [block?] at h
  split at h
  · next hname =>
    obtain ⟨rfl, rfl⟩ := Prod.mk.inj (Option.some.inj h)
    simp only [Bool.and_eq_true, Bool.not_eq_true', List.isEmpty_eq_false_iff] at hname
    refine ⟨_, rfl, ⟨_, rfl, hname.1, fun c hc => List.mem_takeWhile_imp hc⟩, ?_, ?_⟩
    · exact startsWord_iff.1 hbefore
    · exact endsWord_iff.1 hname.2
  · cases h

/-- A text that starts with no character of a name does not go on with one. -/
theorem takeWhile_of_head? (h : ∀ c ∈ rest.head?, isTagChar c = false) :
    rest.takeWhile isTagChar = [] ∧ rest.dropWhile isTagChar = rest := by
  cases rest with
  | nil => exact ⟨rfl, rfl⟩
  | cons c rest =>
    have hc : ¬ isTagChar c = true := Bool.eq_false_iff.1 (h c rfl)
    exact ⟨List.takeWhile_cons_of_neg hc, List.dropWhile_cons_of_neg hc⟩

/-- Where a word ends, no name of a tag goes on. -/
theorem takeWhile_of_endsWord (h : endsWord rest = true) :
    rest.takeWhile isTagChar = [] ∧ rest.dropWhile isTagChar = rest := by
  refine takeWhile_of_head? fun c hc => Bool.eq_false_iff.2 fun hchar => ?_
  have hblank := endsWord_iff.1 h c hc
  rw [isBlank_eq_false_of_isTagChar hchar] at hblank
  cases hblank

/-- A block tag is found. -/
theorem tagAt?_of_isBlockTag (h : IsBlockTag before t rest) :
    tagAt? (startsWord before) (t ++ rest) = some (block t, rest) := by
  obtain ⟨⟨name, rfl, hne, hname⟩, hbefore, hrest⟩ := h
  have hends : endsWord rest = true := endsWord_iff.2 hrest
  simp [tagAt?, startsWord_iff.2 hbefore, block?, List.takeWhile_append_of_pos hname,
    List.dropWhile_append_of_pos hname, takeWhile_of_endsWord hends, hne, hends]

/-- A tag that is found is right where it stands. -/
theorem fits_of_tagAt? (h : tagAt? (startsWord before) s = some (span, rest)) :
    span.Fits before rest ∧ span.isText = false ∧ startsWord (before ++ span.chars) = false := by
  unfold tagAt? at h
  split at h
  · obtain ⟨content, rfl, hbraces⟩ := isBraces_of_braces? h
    refine ⟨hbraces, rfl, ?_⟩
    have hlast : (before ++ (braces content).chars).getLast? = some '}' := by
      rw [chars, ← List.append_assoc, List.getLast?_concat]
    rw [startsWord, hlast]
    rfl
  · split at h
    · next hbefore =>
      obtain ⟨tag, rfl, htag⟩ := isBlockTag_of_block? hbefore h
      refine ⟨htag, rfl, ?_⟩
      obtain ⟨⟨name, rfl, hne, hname⟩, -⟩ := htag
      have hlast : (before ++ (block ('@' :: name)).chars).getLast? = some (name.getLast hne) := by
        rw [chars, List.getLast?_append_of_ne_nil _ (List.cons_ne_nil _ _),
          List.getLast?_cons_of_ne_nil hne, List.getLast?_eq_getLast_of_ne_nil hne]
      rw [startsWord, hlast]
      exact isBlank_eq_false_of_isTagChar (hname _ (List.getLast_mem hne))
    · cases h
  · cases h

/-- The scanner finds a tag exactly where one starts. -/
theorem tagAt?_eq_none_iff : tagAt? (startsWord before) s = none ↔ ¬ TagStarts before s := by
  constructor
  · rintro hnone ⟨tag, rest, rfl, htag | hbraces⟩
    · cases hnone.symm.trans (tagAt?_of_isBlockTag htag)
    · have hsome : (tagAt? (startsWord before) (tag ++ rest)).isSome = true :=
        isSome_tagAt?_of_isBraces hbraces _
      rw [hnone] at hsome
      cases hsome
  · intro hstarts
    refine Option.eq_none_iff_forall_ne_some.2 fun ⟨span, rest⟩ hsome => hstarts ?_
    obtain ⟨hfits, htext, -⟩ := fits_of_tagAt? hsome
    refine ⟨span.chars, rest, tagAt?_eq hsome, ?_⟩
    cases span with
    | text => cases htext
    | block => exact .inl hfits
    | braces => exact .inr hfits

/-! ## The cut -/

/-- A span of a cut is right behind the spans before it. -/
theorem FitFrom.fits (h : FitFrom before (before' ++ span :: after)) :
    span.Fits (before ++ before'.flatMap chars) (after.flatMap chars) := by
  induction before' generalizing before with
  | nil =>
    rw [List.flatMap_nil, List.append_nil]
    exact h.1
  | cons first before' ih =>
    rw [List.flatMap_cons, ← List.append_assoc]
    exact ih h.2

/-- Text may start a character earlier if no tag starts there. -/
theorem fits_text_cons (h : (text t).Fits (before ++ [c]) rest)
    (hstarts : ¬ TagStarts before (c :: (t ++ rest))) : (text (c :: t)).Fits before rest := by
  intro skipped kept heq hkept
  rcases List.cons_eq_append_iff.1 heq with ⟨rfl, rfl⟩ | ⟨skipped, rfl, rfl⟩
  · rwa [List.append_nil]
  · rw [List.append_cons]
    exact h skipped kept rfl hkept

theorem fits_text_nil : (text []).Fits before rest := by
  intro skipped kept heq hkept
  exact absurd (List.append_eq_nil_iff.1 heq.symm).2 hkept

/-- One more character of text. -/
theorem FitFrom.pushChar (h : FitFrom (before ++ [c]) spans)
    (hstarts : ¬ TagStarts before (c :: spans.flatMap chars)) :
    FitFrom before (pushChar c spans) := by
  unfold Span.pushChar
  split
  · next t spans =>
    refine ⟨fits_text_cons h.1 hstarts, ?_⟩
    rw [chars, List.append_cons]
    exact h.2
  · exact ⟨fits_text_cons fits_text_nil hstarts, h⟩

/-- Where the scanner stands, its spans are right. -/
theorem fitFrom_scanFrom (before s : Text) : FitFrom before (scanFrom (startsWord before) s) := by
  generalize hstart : startsWord before = afterBlank
  fun_induction scanFrom afterBlank s generalizing before with
  | case1 afterBlank s tag rest h ih =>
    subst hstart
    obtain ⟨hfits, -, hlast⟩ := fits_of_tagAt? h
    rw [FitFrom, flatMap_chars_scanFrom]
    exact ⟨hfits, ih _ hlast⟩
  | case2 => trivial
  | case3 afterBlank c r hnone ih =>
    subst hstart
    refine (ih (before ++ [c]) ?_).pushChar ?_
    · simp [startsWord]
    · rw [flatMap_chars_scanFrom]
      exact tagAt?_eq_none_iff.1 hnone

theorem Apart.pushChar (h : Apart spans) (c : Char) : Apart (pushChar c spans) := by
  unfold Span.pushChar
  split
  · next t spans => exact List.isChain_cons.2 (List.isChain_cons.1 h)
  · next hfirst =>
    refine List.isChain_cons.2 ⟨fun span hspan htext => ?_, h⟩
    obtain ⟨others, rfl⟩ := List.head?_eq_some_iff.1 hspan
    cases span with
    | text t => exact hfirst t others rfl
    | block | braces => cases htext.2

theorem apart_scanFrom (before s : Text) : Apart (scanFrom (startsWord before) s) := by
  generalize hstart : startsWord before = afterBlank
  fun_induction scanFrom afterBlank s generalizing before with
  | case1 afterBlank s tag rest h ih =>
    subst hstart
    obtain ⟨-, htext, hlast⟩ := fits_of_tagAt? h
    refine List.isChain_cons.2 ⟨fun span _ hboth => ?_, ih _ hlast⟩
    rw [htext] at hboth
    cases hboth.1
  | case2 => exact .nil
  | case3 afterBlank c r hnone ih => exact (ih (before ++ [c]) (by simp [startsWord])).pushChar c

theorem chars_ne_nil_of_mem_scanFrom {afterBlank : Bool} (h : span ∈ scanFrom afterBlank s) :
    span.chars ≠ [] := by
  fun_induction scanFrom afterBlank s with
  | case1 afterBlank s tag rest htag ih =>
    rcases List.mem_cons.1 h with rfl | h
    · exact chars_ne_nil_of_tagAt? htag
    · exact ih h
  | case2 => cases h
  | case3 afterBlank c r hnone ih =>
    unfold Span.pushChar at h
    split at h
    · next t spans heq =>
      rcases List.mem_cons.1 h with rfl | h
      · exact List.cons_ne_nil _ _
      · exact ih (by rw [heq]; exact List.mem_cons_of_mem _ h)
    · rcases List.mem_cons.1 h with rfl | h
      · exact List.cons_ne_nil _ _
      · exact ih h

/-- The spans of a text cut it. -/
theorem isSegmentation_scan (s : Text) : IsSegmentation s (scan s) where
  covers := flatMap_chars_scanFrom true s
  nonempty _ h := chars_ne_nil_of_mem_scanFrom h
  fits before' span after heq := by
    have hfit := fitFrom_scanFrom [] s
    change FitFrom [] (scan s) at hfit
    rw [heq] at hfit
    exact hfit.fits
  apart := apart_scanFrom [] s

end

end Span

namespace Token

/-! ## The tokens of the spans -/

theorem startsTag_iff {r : Text} :
    Text.StartsTag ('@' :: r) ↔ r.takeWhile Span.isTagChar ≠ [] := by
  constructor
  · rintro ⟨c, rest, heq, hc⟩
    rw [(List.cons.inj heq).2, List.takeWhile_cons_of_pos hc]
    exact List.cons_ne_nil _ _
  · intro hne
    cases r with
    | nil => exact absurd rfl hne
    | cons c rest =>
      refine ⟨c, rest, rfl, ?_⟩
      by_contra hc
      exact hne (List.takeWhile_cons_of_neg hc)

/-- Braces hold a tag exactly if their trimmed content starts with its name. -/
theorem ofBraces?_eq_none_iff (content : Text) :
    ofBraces? content = none ↔ ¬ Text.StartsTag (Text.strip content) := by
  unfold ofBraces?
  split
  · next r heq =>
    rw [heq, startsTag_iff]
    split <;> simp_all
  · next hat =>
    refine iff_of_true rfl fun ⟨c, rest, heq, _⟩ => hat _ heq

theorem yields_ofSpan? (span : Span) : span.Yields (ofSpan? span) := by
  cases span with
  | text | block => rfl
  | braces content =>
    refine ⟨ofBraces?_eq_none_iff content, fun token htoken => ?_⟩
    simp only [ofSpan?, ofBraces?, Option.mem_def] at htoken
    split at htoken
    · split at htoken
      · cases htoken
      · cases htoken
        exact ⟨_, _, rfl⟩
    · cases htoken

/-- Tokenizing cuts the comment, carriage returns aside, into consecutive spans, each of which gives
its token, or none and a complaint, which the reading of the comment reports. Text lies between the
tags and is as long as it can be: no tag starts anywhere in it. -/
theorem tokenize_segments (comment : Text) : ∃ spans outcomes,
    Span.IsSegmentation (Text.without '\r' comment) spans ∧
      List.Forall₂ Span.Yields spans outcomes ∧
      tokenize comment = outcomes.reduceOption ∧
      ∀ package config itemName, ∃ d,
        Documentation.parse { package := some package, config } itemName comment = .ok d ∧
          d.problems.count .braceWithoutTag = outcomes.count none := by
  have hcount : badBraces comment = ((spans comment).map ofSpan?).count none := by
    rw [badBraces, List.count, List.countP_map]
    refine List.countP_congr fun span _ => ?_
    simp
  refine ⟨spans comment, (spans comment).map ofSpan?, Span.isSegmentation_scan _, ?_, ?_, ?_⟩
  · rw [List.forall₂_map_right_iff]
    exact List.forall₂_same.2 fun span _ => yields_ofSpan? span
  · rw [tokenize, List.reduceOption, List.filterMap_map]
    rfl
  · intro package config itemName
    obtain ⟨d, hparse, -⟩ := Documentation.exists_parse
      (show Surroundings.package { package := some package, config } = some package from rfl)
      itemName comment
    exact ⟨d, hparse, (Documentation.count_braceWithoutTag_of_parse hparse).trans hcount⟩

end Token

end ApiDoc
