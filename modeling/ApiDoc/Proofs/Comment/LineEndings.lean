import ApiDoc.Proofs.Comment.Gutter
import ApiDoc.Proofs.Session.Edits

/-!
# Line endings

A comment may come with a carriage return before every newline (`Text.withReturns`). They are still
there when the gutters are taken off, but they stand behind everything that a line starts with, so
the body of such a comment is the body of the comment without them, again with a carriage return
before every newline (`Comment.body_withReturns`); and as no token has a carriage return, both
comments are read alike. Main statement: `Workspace.lineEndings_ignored`.
-/

namespace ApiDoc

namespace Text

/-- The text with a carriage return before every newline. -/
def withReturns (t : Text) : Text :=
  t.flatMap fun c => if c = '\n' then ['\r', '\n'] else [c]

section
variable {t u : Text} {c : Char} {lines : List Text}

theorem withReturns_cons_of_ne (hc : c ≠ '\n') (t : Text) :
    withReturns (c :: t) = c :: withReturns t := by
  rw [withReturns, List.flatMap_cons, if_neg hc]
  rfl

theorem withReturns_append (t u : Text) : withReturns (t ++ u) = withReturns t ++ withReturns u :=
  List.flatMap_append

theorem withReturns_concat_of_ne (hc : c ≠ '\n') (t : Text) :
    withReturns (t ++ [c]) = withReturns t ++ [c] := by
  rw [withReturns_append, withReturns_cons_of_ne hc]
  rfl

theorem withReturns_eq_self (h : '\n' ∉ t) : withReturns t = t := by
  induction t with
  | nil => rfl
  | cons c t ih =>
    obtain ⟨hc, ht⟩ := not_or.1 (mt List.mem_cons.2 h)
    rw [withReturns_cons_of_ne (Ne.symm hc), ih ht]

/-- With the carriage returns go all that were put in. -/
theorem without_withReturns (t : Text) : without '\r' (withReturns t) = without '\r' t := by
  induction t with
  | nil => rfl
  | cons c t ih =>
    by_cases hc : c = '\n'
    · subst hc
      exact congrArg ('\n' :: ·) ih
    · simp only [without] at ih ⊢
      rw [withReturns_cons_of_ne hc, List.filter_cons, List.filter_cons, ih]

/-- Carriage returns and newlines are blank, so what was blank still is. -/
theorem isBlank_of_mem_withReturns (h : ∀ c ∈ t, isBlank c = true) :
    ∀ c ∈ withReturns t, isBlank c = true := by
  intro c hc
  obtain ⟨d, hd, hc⟩ := List.mem_flatMap.1 hc
  split at hc
  · fin_cases hc <;> decide
  · rw [List.mem_singleton.1 hc]
    exact h d hd

/-- A text that is trimmed is so with carriage returns. -/
theorem strip_withReturns_eq_self (h : strip t = t) : strip (withReturns t) = withReturns t := by
  have hne {c : Char} (hc : isBlank c = false) : c ≠ '\n' := by
    rintro rfl
    cases hc
  obtain ⟨hfirst, hlast⟩ := strip_eq_self_iff.1 h
  refine strip_eq_self_iff.2 ⟨?_, ?_⟩
  · cases t with
    | nil => nofun
    | cons c t =>
      have hc := hfirst c rfl
      rw [withReturns_cons_of_ne (hne hc)]
      rintro d ⟨⟩
      exact hc
  · rcases List.eq_nil_or_concat' t with rfl | ⟨t, c, rfl⟩
    · nofun
    · have hc := hlast c List.getLast?_concat
      rw [withReturns_concat_of_ne (hne hc), List.getLast?_concat]
      rintro d ⟨⟩
      exact hc

theorem strip_withReturns (t : Text) : strip (withReturns t) = withReturns (strip t) := by
  obtain ⟨u, v, hu, hv, ht⟩ := exists_eq_append_strip t
  conv_lhs => rw [ht]
  rw [withReturns_append, withReturns_append,
    strip_append_right (isBlank_of_mem_withReturns hv),
    strip_append_left (isBlank_of_mem_withReturns hu),
    strip_withReturns_eq_self (strip_strip t)]

/-- The lines of a text, with a carriage return at the end of each but the last. -/
theorem withReturns_joinWith (h : ∀ line ∈ lines, '\n' ∉ line) :
    withReturns (joinWith ['\n'] lines) = joinWith ['\r', '\n'] lines := by
  induction lines with
  | nil => rfl
  | cons line lines ih =>
    obtain ⟨hline, hlines⟩ := List.forall_mem_cons.1 h
    cases lines with
    | nil => exact withReturns_eq_self hline
    | cons next lines =>
      have hne : next :: lines ≠ [] := List.cons_ne_nil _ _
      rw [joinWith_cons hne, joinWith_cons hne, withReturns_append, withReturns_append,
        withReturns_eq_self hline, ih hlines]
      rfl

/-- A text without blanks starts the text with carriage returns where it starts the text. -/
theorem prefix_withReturns_iff (hu : hasBlank u = false) : u <+: withReturns t ↔ u <+: t := by
  induction u generalizing t with
  | nil => exact iff_of_true List.nil_prefix List.nil_prefix
  | cons c u ih =>
    obtain ⟨hc, hu⟩ := Bool.or_eq_false_iff.1 hu
    cases t with
    | nil => exact Iff.rfl
    | cons d t =>
      by_cases hd : d = '\n'
      · subst hd
        change c :: u <+: '\r' :: '\n' :: withReturns t ↔ _
        rw [List.cons_prefix_cons, List.cons_prefix_cons]
        refine iff_of_false ?_ ?_ <;> rintro ⟨rfl, -⟩ <;> cases hc
      · rw [withReturns_cons_of_ne hd, List.cons_prefix_cons, List.cons_prefix_cons, ih hu]

/-- And it ends the one where it ends the other. -/
theorem suffix_withReturns_iff (hu : hasBlank u = false) : u <:+ withReturns t ↔ u <:+ t := by
  induction u using List.reverseRecOn generalizing t with
  | nil => exact iff_of_true List.nil_suffix List.nil_suffix
  | append_singleton u c ih =>
    rw [hasBlank, List.any_append, Bool.or_eq_false_iff] at hu
    have hne : c ≠ '\n' := by
      rintro rfl
      cases hu.2
    rcases List.eq_nil_or_concat' t with rfl | ⟨t, d, rfl⟩
    · exact Iff.rfl
    · by_cases hd : d = '\n'
      · have hends : withReturns (t ++ ['\n']) = withReturns t ++ ['\r'] ++ ['\n'] := by
          rw [withReturns_append, List.append_assoc]
          rfl
        rw [hd, hends, List.suffix_concat_iff, List.suffix_concat_iff]
        simp [hne]
      · rw [withReturns_concat_of_ne hd, List.suffix_concat_iff, List.suffix_concat_iff]
        simp [ih hu.1]

end

end Text

namespace Comment

section
variable {t inner comment line : Text} {lines : List Text}

/-- A carriage return behind a line does not change what the line's gutter is. -/
theorem dropGutter_concat (line : Text) :
    dropGutter (line ++ ['\r']) = dropGutter line ++ ['\r'] := by
  rw [dropGutter, dropGutter, List.dropWhile_append]
  rcases line.dropWhile fun c => c = ' ' || c = '\t' with _ | ⟨c, _ | ⟨d, rest⟩⟩
  · rfl
  · by_cases hstar : c = '*'
    · subst hstar
      rfl
    · simp [hstar]
  · by_cases hstar : c = '*'
    · by_cases hspace : d = ' ' <;> simp [hstar, hspace]
    · simp [hstar]

/-- Taking the gutter off leaves an end of the line. -/
theorem dropGutter_suffix (line : Text) : dropGutter line <:+ line := by
  have hskip : (line.dropWhile fun c => c = ' ' || c = '\t') <:+ line := List.dropWhile_suffix _
  unfold dropGutter
  split
  · next rest heq =>
      exact (List.suffix_cons ' ' rest).trans ((List.suffix_cons '*' _).trans (heq ▸ hskip))
  · next rest _ heq => exact (List.suffix_cons '*' rest).trans (heq ▸ hskip)
  · exact List.suffix_rfl

/-- The gutters are taken off lines that end with carriage returns. -/
theorem dropGutters_joinWith_returns (hne : lines ≠ []) (h : ∀ line ∈ lines, '\n' ∉ line) :
    dropGutters (Text.joinWith ['\r', '\n'] lines) =
      Text.joinWith ['\r', '\n'] (lines.map dropGutter) := by
  induction lines with
  | nil => exact absurd rfl hne
  | cons line lines ih =>
    obtain ⟨hline, hlines⟩ := List.forall_mem_cons.1 h
    rcases eq_or_ne lines [] with rfl | hrest
    · rw [dropGutters, Text.joinWith, Text.splitOn_eq_singleton hline]
      rfl
    · have hreturn : '\n' ∉ line ++ ['\r'] := by simpa using hline
      have hcut : Text.joinWith ['\r', '\n'] (line :: lines) =
          line ++ ['\r'] ++ '\n' :: Text.joinWith ['\r', '\n'] lines := by
        rw [Text.joinWith_cons hrest, List.append_assoc, List.append_assoc]
        rfl
      have hpieces : (Text.splitOn '\n' (Text.joinWith ['\r', '\n'] lines)).map dropGutter ≠ [] :=
        List.map_eq_nil_iff.not.2 (Text.splitOn_ne_nil _ _)
      rw [dropGutters, hcut, Text.splitOn_append hreturn, List.map_cons, Text.joinWith_cons hpieces,
        dropGutter_concat, List.map_cons, Text.joinWith_cons (List.map_eq_nil_iff.not.2 hrest),
        ← ih hrest hlines, dropGutters, List.append_assoc (dropGutter line)]
      rfl

theorem dropGutters_withReturns (t : Text) :
    dropGutters (Text.withReturns t) = Text.withReturns (dropGutters t) := by
  have hlines : ∀ line ∈ Text.splitOn '\n' t, '\n' ∉ line := fun _ => Text.not_mem_of_mem_splitOn
  have hdropped : ∀ line ∈ (Text.splitOn '\n' t).map dropGutter, '\n' ∉ line :=
    List.forall_mem_map.2 fun line hline hmem =>
      hlines line hline ((dropGutter_suffix line).subset hmem)
  conv_lhs => rw [← Text.joinWith_splitOn '\n' t, Text.withReturns_joinWith hlines]
  rw [dropGutters, dropGutters, Text.withReturns_joinWith hdropped]
  exact dropGutters_joinWith_returns (Text.splitOn_ne_nil '\n' t) hlines

theorem isDelimited_withReturns (t : Text) : isDelimited (Text.withReturns t) = isDelimited t := by
  rw [Bool.eq_iff_iff, isDelimited, isDelimited, Bool.and_eq_true, Bool.and_eq_true,
    List.isPrefixOf_iff_prefix, List.isPrefixOf_iff_prefix, List.isSuffixOf_iff_suffix,
    List.isSuffixOf_iff_suffix, Text.prefix_withReturns_iff rfl,
    Text.suffix_withReturns_iff rfl]

/-- The body of a comment with carriage returns is the body of the comment, with carriage
returns. -/
theorem body_withReturns (comment : Text) :
    body (Text.withReturns comment) = Text.withReturns (body comment) := by
  have hstrip := Text.strip_withReturns comment
  cases hdelimited : isDelimited (Text.strip comment) with
  | false =>
    rw [body_eq_self hdelimited, body_eq_self]
    rw [hstrip, isDelimited_withReturns, hdelimited]
  | true =>
    rcases isDelimited_iff.1 hdelimited with hshared | ⟨inner, hinner⟩
    · rw [body_of_shared hshared, body_of_shared]
      · rfl
      · rw [hstrip, hshared]
        rfl
    · have hreturns : Text.strip (Text.withReturns comment) =
          opening ++ Text.withReturns inner ++ closing := by
        rw [hstrip, hinner, Text.withReturns_append, Text.withReturns_append]
        rfl
      rw [body_of_delimited hinner, body_of_delimited hreturns, dropGutters_withReturns,
        Text.strip_withReturns]

end

end Comment

/-! ## Reading -/

theorem Token.spans_withReturns (t : Text) : spans (Text.withReturns t) = spans t := by
  rw [spans, spans, Text.without_withReturns]

theorem Documentation.parse_withReturns (around : Surroundings) (itemName : Option Text)
    (body : Text) : parse around itemName (Text.withReturns body) = parse around itemName body := by
  rw [parse, parse, Token.tokenize, Token.badBraces, Token.spans_withReturns]
  rfl

namespace Action

/-- A comment is read alike with carriage returns. -/
theorem read_withReturns (itemName : Option Text) (body : Text) :
    read itemName (Text.withReturns body) = read itemName body := by
  simp only [read, Documentation.parse_withReturns]

theorem addItem_withReturns (path : List Text) (name : Text) (kind : ItemKind) (comment : Text) :
    addItem path name kind (Text.withReturns comment) = addItem path name kind comment := by
  simp only [addItem, Comment.body_withReturns, read_withReturns]

end Action

/-- The operation with a carriage return before every newline of its comment, if it has one. -/
def Operation.withReturns : Operation → Operation
  | add path name kind comment => add path name kind (Text.withReturns comment)
  | operation => operation

/-- Two operations differ at most in the carriage returns of their comments. -/
def Operation.SameLines (operation operation' : Operation) : Prop :=
  operation' = operation ∨ operation' = operation.withReturns

/-- As actions they are the same. -/
theorem Operation.SameLines.perform_eq {operation operation' : Operation}
    (h : SameLines operation operation') : operation'.perform = operation.perform := by
  rcases h with rfl | rfl
  · rfl
  · cases operation with
    | add path name kind comment => exact Action.addItem_withReturns path name kind comment
    | external | configure | call => rfl

/-- Line endings do not matter. If any comments of a session come with a carriage return before
every newline, each operation of it has the same outcome as without them, and leads to the same
workspace: with the same documentations, of the same content, queues and problems, and the same
diagnostics, from the addition of an item to its completion and beyond. -/
theorem Workspace.lineEndings_ignored (w : Workspace) {operations operations' : List Operation}
    (hbefore : List.Forall₂ Operation.SameLines operations operations')
    {operation operation' : Operation} (h : Operation.SameLines operation operation') :
    operation'.perform.run (w.after operations') = operation.perform.run (w.after operations) := by
  rw [h.perform_eq]
  refine congrArg operation.perform.run ?_
  induction hbefore generalizing w with
  | nil => rfl
  | cons hfirst _ ih =>
    rw [after, after, List.foldl_cons, List.foldl_cons, hfirst.perform_eq]
    exact ih _

/-- A comment with a blank line, a line without a gutter and a tag that is misspelt. -/
def raggedComment : Text :=
  "/**\n * Reads it.\n *\n\n *\tTwice.\n * @pulbic\n */\n".toList

/-- Its diagnostics and its documentation, once completed, do not depend on its line endings. -/
theorem raggedComment_lineEndings_ignored :
    let plain := Operation.add [] "f".toList .function raggedComment
    let returned := Operation.add [] "f".toList .function (Text.withReturns raggedComment)
    plain.SameLines returned ∧
      (Operation.call .all).perform.run ((Workspace.unnamed {}).after [returned]) =
        (Operation.call .all).perform.run ((Workspace.unnamed {}).after [plain]) := by
  intro plain returned
  have h : plain.SameLines returned := .inr rfl
  exact ⟨h, Workspace.lineEndings_ignored _ (.cons h .nil) (.inl rfl)⟩

end ApiDoc
