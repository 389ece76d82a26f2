import ApiDoc.Proofs.Sections.StrayText
import ApiDoc.Proofs.Token.Segmentation

/-!
# Tokens as comments write them

A token can be written down again: text and block tags as they stand, an inline tag in braces, with a
backslash before every brace of its content (`Token.print`). A backslash itself gets none, so a
written brace may stand behind several; still the braces of a content are escaped where they were
written (`Token.bracesEscaped_escapeBraces`), the space behind the content keeps its last backslash
from the brace that closes (`Span.closeBrace?_eq_some`), and taking the backslashes away gives the
content back (`Token.unescape_escapeBraces`). Main statement: `Token.tokenize_print`, tokens that may
stand in this order in a comment are read back from what is written.
-/

namespace ApiDoc

namespace Token

/-- The text with a backslash before every occurrence of the brace. -/
def escape (brace : Char) (t : Text) : Text :=
  t.flatMap fun c => if c = brace then ['\\', c] else [c]

/-- The text with a backslash before every brace. -/
def escapeBraces (t : Text) : Text :=
  t.flatMap fun c => if Text.isBrace c then ['\\', c] else [c]

/-- A token as comments write it. -/
def print : Token → Text
  | text chars => chars
  | block tag => tag
  | inline tag content => '{' :: tag ++ ' ' :: escapeBraces content ++ [' ', '}']

/-- The span that a token is written as. -/
def span : Token → Span
  | text chars => .text chars
  | block tag => .block tag
  | inline tag content => .braces (tag ++ ' ' :: escapeBraces content ++ [' '])

/-- Whether a token is text. -/
def isText : Token → Bool
  | text _ => true
  | _ => false

/-- Whether a token is text that starts with a blank. -/
def startsBlank : Token → Bool
  | text chars => chars.head?.any Text.isBlank
  | _ => false

/-- Whether a token is text that ends with a blank. -/
def endsBlank : Token → Bool
  | text chars => chars.getLast?.any Text.isBlank
  | _ => false

/-- Whether a text is a tag: an `@` and a name. -/
def isTag : Text → Bool
  | '@' :: name => !name.isEmpty && name.all Span.isTagChar
  | _ => false

/-- A token says what it is where it is written: text holds nothing that could start a tag, tags have
a name, and the content of an inline tag is trimmed. -/
def IsPlain : Token → Prop
  | text chars => chars ≠ [] ∧ '{' ∉ chars ∧ '@' ∉ chars ∧ '\r' ∉ chars
  | block tag => isTag tag = true
  | inline tag content => isTag tag = true ∧ Text.strip content = content ∧ '\r' ∉ content

instance (t : Token) : Decidable t.IsPlain := by
  cases t <;> unfold IsPlain <;> infer_instance

/-- A token may stand right before another: they are not both text, and a block tag has text with a
blank next to it on either side. -/
structure Beside (a b : Token) : Prop where
  apart : ¬ (a.isText = true ∧ b.isText = true)
  before : b.isBlock = true → a.endsBlank = true
  after : a.isBlock = true → b.startsBlank = true

instance (a b : Token) : Decidable (Beside a b) :=
  decidable_of_iff (¬ (a.isText = true ∧ b.isText = true) ∧
      (b.isBlock = true → a.endsBlank = true) ∧ (a.isBlock = true → b.startsBlank = true))
    ⟨fun h => ⟨h.1, h.2.1, h.2.2⟩, fun h => ⟨h.apart, h.before, h.after⟩⟩

/-- Tokens that may stand one after the other in a comment, as they are written. -/
structure Printable (tokens : List Token) : Prop where
  plain : ∀ t ∈ tokens, t.IsPlain
  beside : tokens.IsChain Beside

section
variable {brace c : Char} {s t content tag name : Text} {token : Token} {tokens : List Token}

/-! ## Escaping -/

theorem unescape_escaped (r : Text) : unescape brace ('\\' :: brace :: r) =
    brace :: unescape brace r := by
  rw [unescape, if_pos rfl]

theorem unescape_cons {r : Text} (h : c = '\\' → ∀ d ∈ r.head?, d ≠ brace) :
    unescape brace (c :: r) = c :: unescape brace r := by
  by_cases hc : c = '\\'
  · subst hc
    cases r with
    | nil => rfl
    | cons d r => rw [unescape, if_neg (h rfl d rfl)]
  · rw [unescape]
    rintro d r heq -
    exact hc heq

/-- Taking away the backslashes before a brace undoes putting them there. -/
theorem unescape_escape (hbrace : brace ≠ '\\') (t : Text) :
    unescape brace (escape brace t) = t := by
  induction t with
  | nil => rfl
  | cons c t ih =>
    have hcons : escape brace (c :: t) =
        (if c = brace then ['\\', c] else [c]) ++ escape brace t := List.flatMap_cons
    rw [hcons]
    split
    · next hc =>
      subst hc
      exact (unescape_escaped _).trans (congrArg _ ih)
    · next hc =>
      -- what is escaped never starts with the brace
      have hhead : ∀ d ∈ (escape brace t).head?, d ≠ brace := by
        cases t with
        | nil => nofun
        | cons d t =>
          rw [escape, List.flatMap_cons]
          split <;> simp [*, hbrace.symm]
      exact (unescape_cons fun _ => hhead).trans (congrArg _ ih)

/-- Both braces are escaped if one is and then the other. -/
theorem escapeBraces_eq (t : Text) : escapeBraces t = escape '{' (escape '}' t) := by
  rw [escape, escape, List.flatMap_assoc]
  refine List.flatMap_congr fun c _ => ?_
  unfold Text.isBrace
  by_cases hclose : c = '}'
  · subst hclose
    rfl
  · by_cases hopen : c = '{'
    · subst hopen
      rfl
    · simp [hopen, hclose]

theorem unescape_escapeBraces (t : Text) :
    unescape '}' (unescape '{' (escapeBraces t)) = t := by
  rw [escapeBraces_eq, unescape_escape (by decide), unescape_escape (by decide)]

theorem escapeBraces_cons (c : Char) (t : Text) : escapeBraces (c :: t) =
    (if Text.isBrace c then ['\\', c] else [c]) ++ escapeBraces t :=
  List.flatMap_cons

/-- Escaping adds backslashes only. -/
theorem eq_or_mem_of_mem_escapeBraces (h : c ∈ escapeBraces t) : c = '\\' ∨ c ∈ t := by
  obtain ⟨d, hd, hc⟩ := List.mem_flatMap.1 h
  split at hc
  · rcases List.mem_cons.1 hc with rfl | hc
    · exact .inl rfl
    · exact .inr (List.mem_singleton.1 hc ▸ hd)
  · exact .inr (List.mem_singleton.1 hc ▸ hd)

/-- A text ends as it does with its braces escaped. -/
theorem getLast?_escapeBraces (t : Text) : (escapeBraces t).getLast? = t.getLast? := by
  induction t using List.reverseRecOn with
  | nil => rfl
  | append_singleton t c _ =>
    rw [escapeBraces, List.flatMap_append, List.flatMap_singleton, List.getLast?_concat]
    split <;> simp

/-- Every brace of an escaped text has its own backslash, whatever backslashes the text has. -/
theorem bracesEscaped_escapeBraces (hs : Text.BracesEscaped s) (t : Text) :
    Text.BracesEscaped (escapeBraces t ++ s) := by
  induction t with
  | nil => exact hs
  | cons c t ih =>
    rw [escapeBraces_cons]
    split
    · next hc => exact (Span.bracesEscaped_escape hc).2 ih
    · next hc => exact (Span.bracesEscaped_cons fun _ => ih.1).2 ⟨Bool.eq_false_iff.2 hc, ih⟩

end

end Token

namespace Span
variable {s inner rest chars name : Text} {b : Bool} {span : Span} {c : Char}

/-! ## Reading a span -/

/-- Escaped braces that go on behind an escaped brace do not end with its backslash. -/
theorem exists_of_escape_eq_append (hc : Text.isBrace c = true) (hinner : Text.BracesEscaped inner)
    (hlast : '\\' ∉ inner.getLast?) (hs : '\\' :: c :: s = inner ++ '}' :: rest) :
    ∃ inner₁, inner = '\\' :: c :: inner₁ ∧ s = inner₁ ++ '}' :: rest ∧
      Text.BracesEscaped inner₁ ∧ '\\' ∉ inner₁.getLast? := by
  rcases List.cons_eq_append_iff.1 hs with ⟨-, heq⟩ | ⟨inner₁, rfl, hs₁⟩
  · cases heq
  · rcases List.cons_eq_append_iff.1 hs₁ with ⟨rfl, -⟩ | ⟨inner₂, rfl, hs₂⟩
    · exact absurd rfl hlast
    · refine ⟨inner₂, rfl, hs₂, (bracesEscaped_escape hc).1 hinner, fun hmem => hlast ?_⟩
      exact List.mem_getLast?_cons (List.mem_getLast?_cons hmem)

/-- Where the braces inside are escaped, and no backslash stands before it, a brace closes. -/
theorem closeBrace?_eq_some (hinner : Text.BracesEscaped inner) (hlast : '\\' ∉ inner.getLast?)
    (hs : s = inner ++ '}' :: rest) : closeBrace? s = some (inner, rest) := by
  fun_induction closeBrace? s generalizing inner with
  | case1 r ih =>
    obtain ⟨inner₁, rfl, hr, hinner₁, hlast₁⟩ := exists_of_escape_eq_append rfl hinner hlast hs
    rw [ih hinner₁ hlast₁ hr]
    rfl
  | case2 r i t hclose ih =>
    obtain ⟨inner₁, rfl, hr, hinner₁, hlast₁⟩ := exists_of_escape_eq_append rfl hinner hlast hs
    cases hclose.symm.trans (ih hinner₁ hlast₁ hr)
    rfl
  | case3 r hclose ih =>
    obtain ⟨inner₁, rfl, hr, hinner₁, hlast₁⟩ := exists_of_escape_eq_append rfl hinner hlast hs
    cases hclose.symm.trans (ih hinner₁ hlast₁ hr)
  | case4 r =>
    cases inner with
    | nil =>
      cases hs
      rfl
    | cons d inner =>
      obtain ⟨rfl, -⟩ := List.cons.inj hs
      cases hinner.1 _ rfl
  | case5 r =>
    cases inner with
    | nil => cases hs
    | cons d inner =>
      obtain ⟨rfl, -⟩ := List.cons.inj hs
      cases hinner.1 _ rfl
  | case6 c r hopen hclose hnotClose hnotOpen ih =>
    cases inner with
    | nil => exact absurd (List.cons.inj hs).1 hnotClose
    | cons d inner =>
      obtain ⟨rfl, hr⟩ := List.cons.inj hs
      have hinner₁ := ((bracesEscaped_cons (isBrace_head?_of_append hr hopen hclose)).1 hinner).2
      rw [ih hinner₁ (fun hmem => hlast (List.mem_getLast?_cons hmem)) hr]
      rfl
  | case7 => simp at hs

/-- Braces around a tag are read up to the brace that closes. -/
theorem tagAt?_braces (hinner : Text.BracesEscaped inner) (hlast : '\\' ∉ inner.getLast?) :
    tagAt? b ('{' :: '@' :: inner ++ '}' :: rest) = some (braces ('@' :: inner), rest) := by
  have hopen : openTag? ('@' :: inner ++ '}' :: rest) = some (['@'], inner ++ '}' :: rest) :=
    openTag?_eq_some_iff.2 ⟨[], rfl, rfl, List.forall_mem_nil _⟩
  rw [List.cons_append]
  simp only [tagAt?, braces?, hopen, Option.bind_eq_bind, Option.bind_some,
    closeBrace?_eq_some hinner hlast rfl]
  rfl

theorem scanFrom_eq_cons (h : tagAt? b s = some (span, rest)) :
    scanFrom b s = span :: scanFrom false rest := by
  rw [scanFrom]
  split
  · next heq =>
    cases h.symm.trans heq
    rfl
  · next heq => cases h.symm.trans heq

theorem scanFrom_eq_pushChar (h : tagAt? b (c :: s) = none) :
    scanFrom b (c :: s) = pushChar c (scanFrom (Text.isBlank c) s) := by
  rw [scanFrom]
  split
  · next heq => cases h.symm.trans heq
  · rfl

/-- Text is read up to where no text goes on. -/
theorem scanFrom_text (hne : chars ≠ []) (hchars : ∀ c ∈ chars, c ≠ '{' ∧ c ≠ '@')
    (hrest : ∀ span ∈ (scanFrom (startsWord chars) rest).head?, span.isText = false) :
    scanFrom b (chars ++ rest) = text chars :: scanFrom (startsWord chars) rest := by
  induction chars generalizing b with
  | nil => exact absurd rfl hne
  | cons c chars ih =>
    obtain ⟨hc, hchars⟩ := List.forall_mem_cons.1 hchars
    have hnone : tagAt? b (c :: (chars ++ rest)) = none := by
      unfold tagAt?
      split <;> simp_all
    rw [List.cons_append, scanFrom_eq_pushChar hnone]
    by_cases hnil : chars = []
    · subst hnil
      have hblank : startsWord [c] = Text.isBlank c := rfl
      rw [hblank] at hrest ⊢
      rw [List.nil_append]
      unfold pushChar
      split
      · next heq =>
        rw [heq] at hrest
        cases hrest _ rfl
      · rfl
    · have hword : startsWord (c :: chars) = startsWord chars := by
        rw [startsWord, startsWord, List.getLast?_cons_of_ne_nil hnil]
      rw [hword] at hrest ⊢
      rw [ih hnil hchars hrest]
      rfl

end Span

namespace Token

section
variable {s t content tag name : Text} {token : Token} {tokens : List Token} {b : Bool}

/-! ## Reading what is written -/

theorem isTag_iff : isTag tag = true ↔
    ∃ name, tag = '@' :: name ∧ name ≠ [] ∧ ∀ c ∈ name, Span.isTagChar c = true := by
  unfold isTag
  split
  · simp
  · next hat =>
    refine iff_of_false Bool.false_ne_true ?_
    rintro ⟨name, rfl, -⟩
    exact hat name rfl

/-- The name of a tag has neither a brace nor a backslash. -/
theorem bracesEscaped_name (hname : ∀ c ∈ name, Span.isTagChar c = true)
    (hs : Text.BracesEscaped s) : Text.BracesEscaped (name ++ s) := by
  induction name with
  | nil => exact hs
  | cons c name ih =>
    obtain ⟨hc, hname⟩ := List.forall_mem_cons.1 hname
    have hne {d : Char} (hd : Span.isTagChar d = false) : c ≠ d := by
      rintro rfl
      cases hd.symm.trans hc
    refine (Span.bracesEscaped_cons fun heq => absurd heq (hne rfl)).2 ⟨?_, ih hname⟩
    exact Span.isBrace_eq_false_iff.2 ⟨hne rfl, hne rfl⟩

/-- What is left of a written inline tag when it is trimmed: behind the name a blank and the escaped
content, or nothing. -/
theorem exists_strip_eq (hname : ∀ c ∈ name, Span.isTagChar c = true)
    (hcontent : Text.strip content = content) :
    ∃ rest, Text.strip ('@' :: name ++ ' ' :: escapeBraces content ++ [' ']) =
        '@' :: (name ++ rest) ∧
      Span.endsWord rest = true ∧
      Text.strip (unescape '}' (unescape '{' rest)) = content := by
  have hat : Text.isBlank '@' = false := rfl
  rw [Text.strip_concat_of_isBlank rfl]
  by_cases hnil : content = []
  · subst hnil
    refine ⟨[], ?_, rfl, rfl⟩
    change Text.strip ('@' :: name ++ [' ']) = _
    rw [Text.strip_concat_of_isBlank rfl, List.append_nil, Text.strip_eq_self_iff]
    refine ⟨by simp [hat], fun c hc => ?_⟩
    rcases List.mem_cons.1 (List.mem_of_getLast? hc) with rfl | hc
    · exact hat
    · exact Span.isBlank_eq_false_of_isTagChar (hname c hc)
  · refine ⟨' ' :: escapeBraces content, Text.strip_eq_self_iff.2 ⟨by simp [hat], ?_⟩, rfl, ?_⟩
    · have hne : escapeBraces content ≠ [] := fun heq => hnil (by
        rw [← List.getLast?_eq_none_iff, ← getLast?_escapeBraces, heq, List.getLast?_nil])
      rw [List.getLast?_append_of_ne_nil _ (List.cons_ne_nil _ _), List.getLast?_cons_of_ne_nil hne,
        getLast?_escapeBraces]
      exact (Text.strip_eq_self_iff.1 hcontent).2
    · rw [unescape_cons fun heq => absurd heq (by decide),
        unescape_cons fun heq => absurd heq (by decide), unescape_escapeBraces,
        Text.strip_cons_of_isBlank rfl, hcontent]

/-- The span of a plain token gives it back. -/
theorem ofSpan?_span (h : token.IsPlain) : ofSpan? token.span = some token := by
  cases token with
  | text | block => rfl
  | inline tag content =>
    obtain ⟨htag, hcontent, -⟩ := h
    obtain ⟨name, rfl, hne, hname⟩ := isTag_iff.1 htag
    obtain ⟨rest, hstrip, hrest, hunescaped⟩ := exists_strip_eq hname hcontent
    have hends := Span.takeWhile_of_endsWord hrest
    change ofBraces? _ = _
    unfold ofBraces?
    rw [hstrip]
    simp only [List.takeWhile_append_of_pos hname, List.dropWhile_append_of_pos hname, hends,
      List.append_nil, hunescaped]

theorem startsWord_text {chars : Text} (h : (text chars).endsBlank = true) :
    Span.startsWord chars = true := by
  simp only [endsBlank, Option.any_eq_true] at h
  obtain ⟨c, hc, hblank⟩ := h
  simpa [Span.startsWord, hc] using hblank

/-- What is written behind a block tag ends its name. -/
theorem endsWord_flatMap_print {tag : Text} (h : (block tag :: tokens).IsChain Beside) :
    Span.endsWord (tokens.flatMap print) = true := by
  cases tokens with
  | nil => rfl
  | cons token tokens =>
    have hstarts := ((List.isChain_cons.1 h).1 token rfl).after rfl
    cases token with
    | block | inline => cases hstarts
    | text chars =>
      cases chars with
      | nil => cases hstarts
      | cons c chars => simpa [startsBlank, Span.endsWord, print] using hstarts

/-- The written tokens are cut into their spans. -/
theorem scanFrom_flatMap_print (h : Printable tokens)
    (hfirst : ∀ token ∈ tokens.head?, token.isBlock = true → b = true) :
    Span.scanFrom b (tokens.flatMap print) = tokens.map span := by
  induction tokens generalizing b with
  | nil => rw [List.flatMap_nil, Span.scanFrom]; rfl
  | cons token tokens ih =>
    obtain ⟨hplain, hrest⟩ := List.forall_mem_cons.1 h.plain
    obtain ⟨hbeside, hchain⟩ := List.isChain_cons.1 h.beside
    have ih {b} := ih (b := b) ⟨hrest, hchain⟩
    rw [List.flatMap_cons, List.map_cons]
    cases token with
    | text chars =>
      obtain ⟨hne, hopen, hat, -⟩ := hplain
      have hword := ih fun token htoken hblock =>
        startsWord_text ((hbeside token htoken).before hblock)
      refine (Span.scanFrom_text hne (fun c hc => ⟨?_, ?_⟩) ?_).trans ?_
      · rintro rfl
        exact hopen hc
      · rintro rfl
        exact hat hc
      · rw [hword]
        intro span hspan
        rw [List.head?_map] at hspan
        obtain ⟨token, htoken, rfl⟩ := Option.map_eq_some_iff.1 hspan
        cases token with
        | text => exact absurd ⟨rfl, rfl⟩ (hbeside _ htoken).apart
        | block | inline => rfl
      · rw [hword]
        rfl
    | block tag =>
      obtain ⟨name, rfl, hname⟩ := isTag_iff.1 hplain
      obtain rfl : b = true := hfirst _ rfl rfl
      have htag : Span.IsBlockTag [] ('@' :: name) (tokens.flatMap print) :=
        ⟨⟨name, rfl, hname⟩, by simp, Span.endsWord_iff.1 (endsWord_flatMap_print h.beside)⟩
      refine (Span.scanFrom_eq_cons (Span.tagAt?_of_isBlockTag htag)).trans ?_
      rw [ih fun token htoken hblock => ?_]
      · rfl
      · cases ((hbeside token htoken).before hblock)
    | inline tag content =>
      obtain ⟨htag, hcontent, -⟩ := hplain
      obtain ⟨name, rfl, -, hname⟩ := isTag_iff.1 htag
      have hinner : Text.BracesEscaped (name ++ ' ' :: escapeBraces content ++ [' ']) := by
        rw [List.append_assoc]
        refine bracesEscaped_name hname ?_
        refine (Span.bracesEscaped_cons fun heq => absurd heq (by decide)).2 ⟨rfl, ?_⟩
        refine bracesEscaped_escapeBraces ?_ content
        exact (Span.bracesEscaped_cons fun heq => absurd heq (by decide)).2
          ⟨rfl, Span.bracesEscaped_nil⟩
      have hlast : '\\' ∉ (name ++ ' ' :: escapeBraces content ++ [' ']).getLast? := by
        rw [List.getLast?_concat]
        decide
      have hprint : print (inline ('@' :: name) content) ++ tokens.flatMap print =
          '{' :: '@' :: (name ++ ' ' :: escapeBraces content ++ [' ']) ++
            '}' :: tokens.flatMap print := by
        simp [print]
      rw [hprint, Span.scanFrom_eq_cons (Span.tagAt?_braces hinner hlast),
        ih fun token htoken hblock => ?_]
      · rfl
      · cases ((hbeside token htoken).before hblock)

theorem not_mem_print (h : token.IsPlain) : '\r' ∉ token.print := by
  have htagChars {tag : Text} (htag : isTag tag = true) : '\r' ∉ tag := by
    obtain ⟨name, rfl, -, hname⟩ := isTag_iff.1 htag
    intro hmem
    rcases List.mem_cons.1 hmem with heq | hmem
    · cases heq
    · cases hname _ hmem
  cases token with
  | text chars => exact h.2.2.2
  | block tag => exact htagChars h
  | inline tag content =>
    obtain ⟨htag, -, hcontent⟩ := h
    have hescaped : '\r' ∉ escapeBraces content := fun hmem =>
      (eq_or_mem_of_mem_escapeBraces hmem).elim (by decide) hcontent
    simp [print, htagChars htag, hescaped]

/-- Tokens that are written down are read back: each is cut off where it was written and nothing is
complained of, whatever braces, backslashes and tags the contents of inline tags hold. -/
theorem tokenize_print (h : Printable tokens) :
    tokenize (tokens.flatMap print) = tokens ∧ badBraces (tokens.flatMap print) = 0 := by
  have hreturns : Text.without '\r' (tokens.flatMap print) = tokens.flatMap print := by
    refine List.filter_eq_self.2 fun c hc => decide_eq_true ?_
    rintro rfl
    obtain ⟨token, htoken, hmem⟩ := List.mem_flatMap.1 hc
    exact not_mem_print (h.plain token htoken) hmem
  have hspans : spans (tokens.flatMap print) = tokens.map span := by
    rw [spans, hreturns]
    exact scanFrom_flatMap_print h fun _ _ _ => rfl
  constructor
  · rw [tokenize, hspans, List.filterMap_map]
    refine (List.filterMap_congr fun token htoken => ?_).trans List.filterMap_some
    exact ofSpan?_span (h.plain token htoken)
  · rw [badBraces, hspans, List.countP_map, List.countP_eq_zero]
    intro token htoken
    simp [ofSpan?_span (h.plain token htoken)]

/-- Tokens with braces, backslashes and a tag in the contents of inline tags. -/
def knotty : List Token :=
  [.inline "@link".toList "\\\x7b\\\x7d\x7d \n @x \\".toList, .inline "@a_b".toList [],
    .text "\\\x7d \n".toList, .block "@remarks".toList, .text "\n".toList,
    .inline "@inheritdoc".toList "\x7b@y\x7d".toList, .text "\t".toList, .block "@public".toList]

theorem tokenize_print_knotty : Printable knotty ∧
    tokenize (knotty.flatMap print) = knotty ∧ badBraces (knotty.flatMap print) = 0 := by
  have hprintable : Printable knotty := ⟨by decide, by decide⟩
  exact ⟨hprintable, tokenize_print hprintable⟩

end

end Token

end ApiDoc
