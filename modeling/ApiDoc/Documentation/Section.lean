import ApiDoc.Token.Basic
import ApiDoc.Documentation.Problem

/-!
# Sections

The tokens of a comment grouped by what they belong to. A run is a stretch of text, links and
requests to inherit; the comment starts with one, its summary. After it come sections: a block tag
with the run that it opens or with nothing, and what stands outside every section.
-/

namespace ApiDoc

/-- A piece of a run. -/
inductive Piece where
  /-- Text. -/
  | text (chars : Text)
  /-- The content of a link. -/
  | link (content : Text)
  /-- The content of a request to inherit. -/
  | inheritDoc (content : Text)
  deriving DecidableEq, Repr

/-- A stretch of text, links and requests to inherit. -/
abbrev Run := List Piece

/-- The piece that a token is, if it can stand in a run. -/
def Piece.ofToken? : Token → Option Piece
  | .text chars => some (.text chars)
  | .block _ => none
  | .inline tag content =>
    match InlineTag.ofName? tag with
    | some .link => some (.link content)
    | some .inheritDoc => some (.inheritDoc content)
    | none => none

/-- The run at the start of some tokens, and the tokens after it. -/
def Run.take : List Token → Run × List Token
  | [] => ([], [])
  | token :: tokens =>
    match Piece.ofToken? token with
    | some piece =>
      let (run, rest) := Run.take tokens
      (piece :: run, rest)
    | none => ([], token :: tokens)

theorem Run.take_length_le (tokens : List Token) : (Run.take tokens).2.length ≤ tokens.length := by
  induction tokens with
  | nil => simp [Run.take]
  | cons token tokens ih =>
    simp only [Run.take]
    split
    · simp only [List.length_cons]
      omega
    · exact Nat.le_refl _

/-- A section of a comment. -/
inductive Section where
  /-- The remarks. -/
  | remarks (run : Run)
  /-- The description of the returned value. -/
  | returns (run : Run)
  /-- The description of a parameter: what follows the hyphen, and the run after that text. -/
  | param (name lead : Text) (run : Run)
  /-- A parameter tag that nothing useful follows. -/
  | badParam (problem : Problem)
  /-- The message that the item is deprecated. -/
  | deprecated (run : Run)
  /-- Remarks that are left out. -/
  | internalRemarks (run : Run)
  /-- A stage of support. -/
  | release (tag : ReleaseTag)
  /-- A flag. -/
  | flag (f : Flag)
  /-- A tag that may not be used so. -/
  | unsupported (token : Token)
  /-- A run that starts with an inline tag outside every section. -/
  | stray (run : Run)
  /-- Text outside every section. -/
  | strayText (chars : Text)
  deriving DecidableEq, Repr

namespace Section

/-- The section of a parameter tag, from the tokens after the tag. -/
def ofParam : List Token → Section × List Token
  | [] => (badParam .paramWithoutDescription, [])
  | .text chars :: tokens =>
    match Text.splitFirst? '-' chars with
    | none => (badParam .paramWithoutHyphen, tokens)
    | some (before, lead) =>
      let name := Text.strip before
      if name.isEmpty then (badParam .paramWithoutName, tokens)
      else if Text.allBlank lead then (badParam .paramWithoutDescription, tokens)
      else
        let (run, rest) := Run.take tokens
        (param name lead run, rest)
  | tokens => (badParam .paramWithoutHyphen, tokens)

/-- The section of a block tag, from the tokens after the tag. -/
def ofBlock (tag : BlockTag) (tokens : List Token) : Section × List Token :=
  let (run, rest) := Run.take tokens
  match tag with
  | .remarks => (remarks run, rest)
  | .returns => (returns run, rest)
  | .param => ofParam tokens
  | .deprecated => (deprecated run, rest)
  | .internalRemarks => (internalRemarks run, rest)
  | .release stage => (release stage, tokens)
  | .flag f => (flag f, tokens)

/-- The section that a token starts, and the tokens after it. -/
def next (token : Token) (tokens : List Token) : Section × List Token :=
  match token with
  | .text chars => (strayText chars, tokens)
  | .block tag =>
    match BlockTag.ofName? tag with
    | some tag => ofBlock tag tokens
    | none => (unsupported token, tokens)
  | .inline _ _ =>
    match Piece.ofToken? token with
    | some piece =>
      let (run, rest) := Run.take tokens
      (stray (piece :: run), rest)
    | none => (unsupported token, tokens)

theorem ofParam_length_le (tokens : List Token) : (ofParam tokens).2.length ≤ tokens.length := by
  unfold ofParam
  split
  · simp
  · next chars tokens =>
    have := Run.take_length_le tokens
    split
    · simp
    · simp only
      split
      · simp
      · split
        · simp
        · simp only [List.length_cons]
          omega
  · simp

theorem next_length_le (token : Token) (tokens : List Token) :
    (next token tokens).2.length ≤ tokens.length := by
  have hrun := Run.take_length_le tokens
  have hparam := ofParam_length_le tokens
  unfold next
  split
  · simp
  · split
    · next tag _ => cases tag <;> simp [ofBlock, hrun, hparam]
    · simp
  · split
    · exact hrun
    · simp

/-- The sections of some tokens. -/
def ofTokens : List Token → List Section
  | [] => []
  | token :: tokens => (next token tokens).1 :: ofTokens (next token tokens).2
termination_by tokens => tokens.length
decreasing_by exact Nat.lt_succ_of_le (next_length_le token tokens)

/-- Whether a section states a stage of support. -/
def isRelease : Section → Bool
  | release _ => true
  | _ => false

end Section

/-- A comment as its summary and its sections. -/
structure Outline where
  /-- The run before the first section. -/
  summary : Run
  /-- The sections. -/
  sections : List Section
  deriving DecidableEq, Repr

/-- The outline of some tokens. -/
def Outline.ofTokens (tokens : List Token) : Outline :=
  let (summary, rest) := Run.take tokens
  { summary, sections := Section.ofTokens rest }

end ApiDoc
