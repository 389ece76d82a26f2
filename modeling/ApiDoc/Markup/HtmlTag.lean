import ApiDoc.Text.Word

/-!
# HTML tags

The HTML tags that text may hold: an opening tag with quoted attributes, possibly closed in itself,
and a closing tag. Anything else that starts with `<` is text. The reader gives back what follows
the tag.
-/

namespace ApiDoc.HtmlTag

/-- A character of the name of a tag or an attribute. -/
def isNameChar (c : Char) : Bool :=
  Text.isWord c || c = '-'

/-- What follows a name of one or more characters. -/
def afterName? : Text → Option Text
  | c :: r => if isNameChar c then some (r.dropWhile isNameChar) else none
  | [] => none

/-- What follows one or more blanks. -/
def afterBlanks? : Text → Option Text
  | c :: r => if Text.isBlank c then some (Text.stripLeft r) else none
  | [] => none

/-- What follows the first occurrence of a character. -/
def afterFirst? (wanted : Char) : Text → Option Text
  | c :: r => if c = wanted then some r else afterFirst? wanted r
  | [] => none

/-- What follows an attribute value between double quotes or apostrophes. -/
def afterValue? : Text → Option Text
  | '"' :: r => afterFirst? '"' r
  | '\'' :: r => afterFirst? '\'' r
  | _ => none

/-- What follows an attribute: blanks, a name, and a value after an equals sign. -/
def afterAttribute? (s : Text) : Option Text := do
  let s ← afterBlanks? s
  let s ← afterName? s
  match Text.stripLeft s with
  | '=' :: r => afterValue? (Text.stripLeft r)
  | _ => none

theorem stripLeft_length_le (s : Text) : (Text.stripLeft s).length ≤ s.length :=
  (List.dropWhile_sublist Text.isBlank).length_le

theorem afterName?_length {s rest : Text} (h : afterName? s = some rest) :
    rest.length < s.length := by
  cases s with
  | nil => simp [afterName?] at h
  | cons c r =>
    simp only [afterName?] at h
    split at h
    · cases h
      exact Nat.lt_succ_of_le (List.dropWhile_sublist isNameChar).length_le
    · simp at h

theorem afterBlanks?_length {s rest : Text} (h : afterBlanks? s = some rest) :
    rest.length < s.length := by
  cases s with
  | nil => simp [afterBlanks?] at h
  | cons c r =>
    simp only [afterBlanks?] at h
    split at h
    · cases h
      exact Nat.lt_succ_of_le (stripLeft_length_le r)
    · simp at h

theorem afterFirst?_length {wanted : Char} {s rest : Text} (h : afterFirst? wanted s = some rest) :
    rest.length < s.length := by
  induction s with
  | nil => simp [afterFirst?] at h
  | cons c r ih =>
    simp only [afterFirst?] at h
    split at h
    · cases h
      simp
    · exact Nat.lt_succ_of_lt (ih h)

theorem afterValue?_length {s rest : Text} (h : afterValue? s = some rest) :
    rest.length < s.length := by
  unfold afterValue? at h
  split at h
  · exact Nat.lt_succ_of_lt (afterFirst?_length h)
  · exact Nat.lt_succ_of_lt (afterFirst?_length h)
  · simp at h

theorem afterAttribute?_length {s rest : Text} (h : afterAttribute? s = some rest) :
    rest.length < s.length := by
  simp only [afterAttribute?, Option.bind_eq_bind, Option.bind_eq_some_iff] at h
  obtain ⟨a, ha, b, hb, h⟩ := h
  have hblanks := afterBlanks?_length ha
  have hname := afterName?_length hb
  have hstrip := stripLeft_length_le b
  split at h
  · next r heq =>
    have hvalue := afterValue?_length h
    have hstrip' := stripLeft_length_le r
    rw [heq] at hstrip
    simp only [List.length_cons] at hstrip
    omega
  · simp at h

/-- What follows as many attributes as there are. -/
def afterAttributes (s : Text) : Text :=
  match _h : afterAttribute? s with
  | some rest => afterAttributes rest
  | none => s
termination_by s.length
decreasing_by exact afterAttribute?_length _h

theorem afterAttributes_length_le (s : Text) : (afterAttributes s).length ≤ s.length := by
  fun_induction afterAttributes s with
  | case1 s rest h ih =>
    have := afterAttribute?_length h
    omega
  | case2 => exact Nat.le_refl _

/-- What follows the end of an opening tag, after its attributes. -/
def afterEnd? : Text → Option Text
  | '/' :: '>' :: r => some r
  | '>' :: r => some r
  | _ => none

/-- What follows the tag at the start of a text. -/
def after? : Text → Option Text
  | '<' :: '/' :: r =>
    match afterName? r with
    | some ('>' :: rest) => some rest
    | _ => none
  | '<' :: r => do
    let s ← afterName? r
    afterEnd? (Text.stripLeft (afterAttributes s))
  | _ => none

theorem afterEnd?_length {s rest : Text} (h : afterEnd? s = some rest) :
    rest.length < s.length := by
  unfold afterEnd? at h
  split at h
  · cases h
    simp only [List.length_cons]
    omega
  · cases h
    simp
  · simp at h

theorem after?_length {s rest : Text} (h : after? s = some rest) : rest.length < s.length := by
  unfold after? at h
  split at h
  · split at h
    · next heq =>
      have := afterName?_length heq
      cases h
      simp only [List.length_cons] at this ⊢
      omega
    · simp at h
  · simp only [Option.bind_eq_bind, Option.bind_eq_some_iff] at h
    obtain ⟨a, ha, h⟩ := h
    have hname := afterName?_length ha
    have hattributes := afterAttributes_length_le a
    have hstrip := stripLeft_length_le (afterAttributes a)
    have hend := afterEnd?_length h
    simp only [List.length_cons]
    omega
  · simp at h

end ApiDoc.HtmlTag
