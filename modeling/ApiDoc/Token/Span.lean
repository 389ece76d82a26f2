import ApiDoc.Text.Basic

/-!
# Spans of a comment

A comment is cut into spans before its tags are read: block tags, braces that hold an inline tag,
and the stretches of text between them. The spans of a text, put together again, are the text.
-/

namespace ApiDoc

/-- A stretch of a comment. -/
inductive Span where
  /-- Text between tags; it is never empty. -/
  | text (chars : Text)
  /-- A block tag, from its `@` on. -/
  | block (tag : Text)
  /-- Braces around an inline tag: what stands between them. -/
  | braces (content : Text)
  deriving DecidableEq, Repr

namespace Span

/-- The characters that a span covers. -/
def chars : Span → Text
  | text chars => chars
  | block tag => tag
  | braces content => '{' :: content ++ ['}']

/-- A character of the name of a tag. -/
def isTagChar (c : Char) : Bool :=
  Text.isLetter c || c = '_'

/-- Cuts behind the closing brace of an open tag: what stands before the brace, and what follows
it. A brace after a backslash does not close, and no other opening brace may come first; if no
brace closes, the last one with a backslash before it does after all. -/
def closeBrace? : Text → Option (Text × Text)
  | '\\' :: '{' :: r => (closeBrace? r).map fun (inner, rest) => ('\\' :: '{' :: inner, rest)
  | '\\' :: '}' :: r =>
    match closeBrace? r with
    | some (inner, rest) => some ('\\' :: '}' :: inner, rest)
    | none => some (['\\'], r)
  | '}' :: r => some ([], r)
  | '{' :: _ => none
  | c :: r => (closeBrace? r).map fun (inner, rest) => (c :: inner, rest)
  | [] => none

/-- The blanks and the `@` that have to follow the opening brace of an inline tag, and the rest. -/
def openTag? : Text → Option (Text × Text)
  | [] => none
  | c :: r =>
    if Text.isBlank c then (openTag? r).map fun (lead, rest) => (c :: lead, rest)
    else if c = '@' then some (['@'], r)
    else none

/-- The braces that start behind an opening brace, and what follows them. -/
def braces? (s : Text) : Option (Span × Text) := do
  let (lead, body) ← openTag? s
  let (inner, rest) ← closeBrace? body
  return (braces (lead ++ inner), rest)

/-- Whether a text is empty or starts with a blank. -/
def endsWord : Text → Bool
  | [] => true
  | c :: _ => Text.isBlank c

/-- The block tag whose `@` stands before the text, and what follows it: a name of letters and
underscores with a blank or the end after it. -/
def block? (s : Text) : Option (Span × Text) :=
  let name := s.takeWhile isTagChar
  let rest := s.dropWhile isTagChar
  if !name.isEmpty && endsWord rest then some (block ('@' :: name), rest) else none

/-- The tag at the start of a text, and what follows it. A block tag has to stand at the start of
the comment or after a blank, which is what the flag says. -/
def tagAt? (afterBlank : Bool) : Text → Option (Span × Text)
  | '{' :: r => braces? r
  | '@' :: r => if afterBlank then block? r else none
  | _ => none

/-- Puts a character before spans: it joins a stretch of text. -/
def pushChar (c : Char) : List Span → List Span
  | text chars :: spans => text (c :: chars) :: spans
  | spans => text [c] :: spans

/-- The brace that closes stands between what is inside and what follows. -/
theorem closeBrace?_eq {s inner rest : Text} (h : closeBrace? s = some (inner, rest)) :
    s = inner ++ '}' :: rest := by
  fun_induction closeBrace? s generalizing inner rest with
  | case1 r ih =>
    obtain ⟨⟨i, t⟩, hr, he⟩ := Option.map_eq_some_iff.1 h
    obtain ⟨rfl, rfl⟩ := Prod.mk.inj he
    rw [ih hr]
    rfl
  | case2 r i t hr ih =>
    obtain ⟨rfl, rfl⟩ := Prod.mk.inj (Option.some.inj h)
    rw [ih hr]
    rfl
  | case3 r hr ih =>
    obtain ⟨rfl, rfl⟩ := Prod.mk.inj (Option.some.inj h)
    rfl
  | case4 r =>
    obtain ⟨rfl, rfl⟩ := Prod.mk.inj (Option.some.inj h)
    rfl
  | case5 => simp at h
  | case6 c r _ _ _ _ ih =>
    obtain ⟨⟨i, t⟩, hr, he⟩ := Option.map_eq_some_iff.1 h
    obtain ⟨rfl, rfl⟩ := Prod.mk.inj he
    rw [ih hr]
    rfl
  | case7 => simp at h

/-- The lead of an inline tag stands before the rest. -/
theorem openTag?_eq {s lead rest : Text} (h : openTag? s = some (lead, rest)) :
    s = lead ++ rest := by
  induction s generalizing lead with
  | nil => simp [openTag?] at h
  | cons c r ih =>
    unfold openTag? at h
    split at h
    · obtain ⟨⟨l, t⟩, hr, he⟩ := Option.map_eq_some_iff.1 h
      obtain ⟨rfl, rfl⟩ := Prod.mk.inj he
      rw [ih hr]
      rfl
    · split at h
      · next hc =>
        obtain ⟨rfl, rfl⟩ := Prod.mk.inj (Option.some.inj h)
        rw [hc]
        rfl
      · simp at h

/-- A tag covers the text up to what follows it. -/
theorem tagAt?_eq {afterBlank : Bool} {s rest : Text} {span : Span}
    (h : tagAt? afterBlank s = some (span, rest)) : s = span.chars ++ rest := by
  unfold tagAt? at h
  split at h
  · next r =>
    simp only [braces?, Option.bind_eq_bind, Option.bind_eq_some_iff] at h
    obtain ⟨⟨lead, body⟩, ho, ⟨inner, t⟩, hc, he⟩ := h
    obtain ⟨rfl, rfl⟩ := Prod.mk.inj (Option.some.inj he)
    simp only at hc
    rw [openTag?_eq ho, closeBrace?_eq hc]
    simp [chars]
  · next r =>
    split at h
    · simp only [block?] at h
      split at h
      · obtain ⟨rfl, rfl⟩ := Prod.mk.inj (Option.some.inj h)
        simp [chars]
      · simp at h
    · simp at h
  · simp at h

/-- A tag is never empty. -/
theorem chars_ne_nil_of_tagAt? {afterBlank : Bool} {s rest : Text} {span : Span}
    (h : tagAt? afterBlank s = some (span, rest)) : span.chars ≠ [] := by
  unfold tagAt? at h
  split at h
  · simp only [braces?, Option.bind_eq_bind, Option.bind_eq_some_iff] at h
    obtain ⟨_, _, _, _, he⟩ := h
    obtain ⟨rfl, -⟩ := Prod.mk.inj (Option.some.inj he)
    simp [chars]
  · split at h
    · simp only [block?] at h
      split at h
      · obtain ⟨rfl, -⟩ := Prod.mk.inj (Option.some.inj h)
        simp [chars]
      · simp at h
    · simp at h
  · simp at h

theorem tagAt?_length {afterBlank : Bool} {s rest : Text} {span : Span}
    (h : tagAt? afterBlank s = some (span, rest)) : rest.length < s.length := by
  have hpos := List.length_pos_iff.2 (chars_ne_nil_of_tagAt? h)
  rw [tagAt?_eq h, List.length_append]
  omega

/-- The spans of a text, from the left: at each place a tag that starts there, else one more
character of text. -/
def scanFrom (afterBlank : Bool) (s : Text) : List Span :=
  match _h : tagAt? afterBlank s with
  | some (tag, rest) => tag :: scanFrom false rest
  | none =>
    match s with
    | [] => []
    | c :: r => pushChar c (scanFrom (Text.isBlank c) r)
termination_by s.length
decreasing_by
  · exact tagAt?_length _h
  · simp

/-- The spans of a comment. -/
def scan (s : Text) : List Span :=
  scanFrom true s

theorem flatMap_chars_pushChar (c : Char) (spans : List Span) :
    (pushChar c spans).flatMap chars = c :: spans.flatMap chars := by
  unfold pushChar
  split <;> simp [chars]

/-- The spans of a text, put together again, are the text. -/
theorem flatMap_chars_scanFrom (afterBlank : Bool) (s : Text) :
    (scanFrom afterBlank s).flatMap chars = s := by
  fun_induction scanFrom afterBlank s with
  | case1 afterBlank s tag rest h ih => rw [List.flatMap_cons, ih, ← tagAt?_eq h]
  | case2 => rfl
  | case3 _ c r _ ih => rw [flatMap_chars_pushChar, ih]

end Span

end ApiDoc
