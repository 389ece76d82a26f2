import ApiDoc.Proofs.Token.Printing

/-!
# Names of inline tags

Where the name of an inline tag ends. A block tag is a whole word; the name of an inline tag is only
as long as the characters of names go (`Span.Opens`), and what follows is the tag's content even if
no blank stands between (`Token.ofBraces?_eq_some_iff`). So the tag is the first word of the braces
exactly if what follows it starts with a blank. In the content, the backslash before every brace is
left out, which takes two passes (`Token.unescape_unescape`). Main statement:
`Token.inlineTags_of_tokenize`.

A name that only starts like the name of a tag is taken for that tag
(`Token.hyphenatedLink_cut`).
-/

namespace ApiDoc

namespace Text

/-- The first word of a text: what stands before its first blank. -/
def firstWord (t : Text) : Text :=
  t.takeWhile fun c => !isBlank c

/-- The text less every backslash right before a brace. -/
def dropEscapes : Text → Text
  | [] => []
  | c :: t => if c = '\\' && t.head?.any isBrace then dropEscapes t else c :: dropEscapes t

end Text

/-- What stands in braces starts with a tag: trimmed, it is an `@` with a name, as long as the
characters of names go, and the rest. -/
structure Span.Opens (inner tag rest : Text) : Prop where
  split : Text.strip inner = tag ++ rest
  named : Token.isTag tag = true
  longest : ∀ c ∈ rest.head?, isTagChar c = false

namespace Token

section
variable {brace c : Char} {t inner tag rest content : Text} {token : Token}

/-! ## Escaped braces -/

theorem unescape_cons_of_isBrace (h : Text.isBrace c = true) :
    unescape brace (c :: t) = c :: unescape brace t :=
  unescape_cons fun hc => by
    subst hc
    cases h

/-- Freeing the opening braces brings no closing one to the start. -/
theorem head?_unescape_ne (h : ∀ d ∈ t.head?, d ≠ '}') :
    ∀ d ∈ (unescape '{' t).head?, d ≠ '}' := by
  cases t with
  | nil => nofun
  | cons c t =>
    by_cases hescape : c = '\\' ∧ t.head? = some '{'
    · obtain ⟨rfl, hopen⟩ := hescape
      obtain ⟨t, rfl⟩ := List.head?_eq_some_iff.1 hopen
      rw [unescape_escaped]
      rintro d ⟨⟩
      decide
    · rw [unescape_cons fun hc d hd heq => hescape ⟨hc, by rw [← heq]; exact hd⟩]
      exact h

/-- The two passes leave out the backslash before every brace. -/
theorem unescape_unescape (t : Text) : unescape '}' (unescape '{' t) = Text.dropEscapes t := by
  induction t with
  | nil => rfl
  | cons c t ih =>
    rw [Text.dropEscapes]
    by_cases hescape : c = '\\' ∧ ∃ b ∈ t.head?, Text.isBrace b = true
    · obtain ⟨rfl, b, hb, hbrace⟩ := hescape
      obtain ⟨t, rfl⟩ := List.head?_eq_some_iff.1 hb
      rw [if_pos (by simpa using hbrace), ← ih, unescape_cons_of_isBrace hbrace]
      obtain rfl | rfl : b = '{' ∨ b = '}' := by simpa [Text.isBrace] using hbrace
      · rw [unescape_escaped]
      · rw [unescape_cons fun _ d hd => by cases hd; decide, unescape_cons_of_isBrace hbrace,
          unescape_escaped, unescape_cons_of_isBrace hbrace]
    · have hfree : c = '\\' → ∀ b ∈ t.head?, b ≠ '{' ∧ b ≠ '}' := fun hc b hb =>
        Span.isBrace_eq_false_iff.1 (Bool.eq_false_iff.2 fun h => hescape ⟨hc, b, hb, h⟩)
      have hneg : ¬ (c = '\\' && t.head?.any Text.isBrace) = true := by
        simpa [Option.any_eq_true] using hescape
      rw [if_neg hneg, unescape_cons fun hc b hb => (hfree hc b hb).1,
        unescape_cons fun hc => head?_unescape_ne fun b hb => (hfree hc b hb).2, ih]

/-! ## Where the name ends -/

/-- Braces that start with a tag hold that tag, and its content is what follows, freed of escapes
and trimmed. -/
theorem ofBraces?_eq_some_iff : ofBraces? inner = some token ↔
    ∃ tag rest, Span.Opens inner tag rest ∧
      token = .inline tag (Text.strip (Text.dropEscapes rest)) := by
  unfold ofBraces?
  constructor
  · intro h
    split at h
    · next r hstrip =>
      split at h
      · cases h
      · next name hne =>
        cases h
        refine ⟨'@' :: r.takeWhile Span.isTagChar, r.dropWhile Span.isTagChar, ⟨?_, ?_, ?_⟩, ?_⟩
        · rw [hstrip, List.cons_append, List.takeWhile_append_dropWhile]
        · exact isTag_iff.2 ⟨_, rfl, hne, fun c hc => List.mem_takeWhile_imp hc⟩
        · intro c hc
          have hhead := List.head?_dropWhile_not Span.isTagChar r
          rw [hc] at hhead
          simpa using hhead
        · rw [unescape_unescape]
    · cases h
  · rintro ⟨tag, rest, ⟨hsplit, hnamed, hlongest⟩, rfl⟩
    obtain ⟨name, rfl, hne, hname⟩ := isTag_iff.1 hnamed
    obtain ⟨htake, hdrop⟩ := Span.takeWhile_of_head? hlongest
    rw [hsplit]
    simp only [List.cons_append, List.takeWhile_append_of_pos hname, htake,
      List.dropWhile_append_of_pos hname, hdrop, List.append_nil, unescape_unescape]

/-- The tag is the first word of the braces exactly if a blank or nothing comes after it. -/
theorem eq_firstWord_iff (h : Span.Opens inner tag rest) :
    tag = Text.firstWord (Text.strip inner) ↔ ∀ c ∈ rest.head?, Text.isBlank c = true := by
  obtain ⟨name, rfl, -, hname⟩ := isTag_iff.1 h.named
  have hword : ∀ c ∈ '@' :: name, (!Text.isBlank c) = true := by
    intro c hc
    rcases List.mem_cons.1 hc with rfl | hc
    · rfl
    · rw [Span.isBlank_eq_false_of_isTagChar (hname c hc)]
      rfl
  have hfirst : Text.firstWord (Text.strip inner) = '@' :: name ++ Text.firstWord rest := by
    rw [h.split, Text.firstWord, List.takeWhile_append_of_pos hword, Text.firstWord]
  rw [hfirst, List.self_eq_append_right]
  cases rest with
  | nil => exact iff_of_true rfl nofun
  | cons c rest => simp [Text.firstWord, List.takeWhile_cons]

/-- The inline tags of a comment are those that its braces start with: up to the first character
that no name has, and the trimmed rest, freed of escapes, is the content. A tag is the whole first
word of its braces exactly if that character, where there is one, is a blank. -/
theorem inlineTags_of_tokenize (comment : Text) :
    Span.IsSegmentation (Text.without '\r' comment) (spans comment) ∧
    (∀ tag content, inline tag content ∈ tokenize comment ↔
      ∃ inner rest, .braces inner ∈ spans comment ∧ Span.Opens inner tag rest ∧
        content = Text.strip (Text.dropEscapes rest)) ∧
    ∀ inner tag rest, Span.Opens inner tag rest →
      (tag = Text.firstWord (Text.strip inner) ↔ ∀ c ∈ rest.head?, Text.isBlank c = true) := by
  refine ⟨Span.isSegmentation_scan _, fun tag content => ?_, fun _ _ _ => eq_firstWord_iff⟩
  rw [tokenize, List.mem_filterMap]
  constructor
  · rintro ⟨span, hspan, htoken⟩
    cases span with
    | text chars => cases htoken
    | block tag => cases htoken
    | braces inner =>
      obtain ⟨tag, rest, hopens, heq⟩ := ofBraces?_eq_some_iff.1 htoken
      cases heq
      exact ⟨inner, rest, hspan, hopens, rfl⟩
  · rintro ⟨inner, rest, hspan, hopens, rfl⟩
    exact ⟨_, hspan, ofBraces?_eq_some_iff.2 ⟨tag, rest, hopens, rfl⟩⟩

/-- A tag with a blank after it is whole, and the word behind the blank starts the content. -/
theorem spacedLink_whole :
    Span.Opens "@link a-b".toList "@link".toList " a-b".toList ∧
      inline "@link".toList "a-b".toList ∈ tokenize "\x7b@link a-b\x7d".toList ∧
      "@link".toList = Text.firstWord (Text.strip "@link a-b".toList) := by
  have hopens : Span.Opens "@link a-b".toList "@link".toList " a-b".toList :=
    ⟨by cbv, by decide, by rintro c ⟨⟩; rfl⟩
  have hspan : .braces "@link a-b".toList ∈ spans "\x7b@link a-b\x7d".toList := by
    rw [show spans "\x7b@link a-b\x7d".toList = [.braces "@link a-b".toList] by cbv]
    exact List.mem_singleton_self _
  obtain ⟨-, htokens, hword⟩ := inlineTags_of_tokenize "\x7b@link a-b\x7d".toList
  refine ⟨hopens, (htokens _ _).2 ⟨_, _, hspan, hopens, by cbv⟩, (hword _ _ _ hopens).2 ?_⟩
  rintro c ⟨⟩
  rfl

/-- The word `@link-foo` is taken for a link, and what the link tag does not cover of it starts the
content. -/
theorem hyphenatedLink_cut :
    tokenize "\x7b@link-foo bar\x7d".toList =
        [.inline "@link".toList "-foo bar".toList] ∧
      Text.firstWord (Text.strip "@link-foo bar".toList) = "@link-foo".toList ∧
      "@link".toList ≠ "@link-foo".toList := by
  refine ⟨?_, ?_, by decide⟩ <;> cbv

end

end Token

end ApiDoc
