import ApiDoc.ReleaseTag

/-!
# Settings

What can be set about the checks on comments, and the switch that the environment has for one of
them.
-/

namespace ApiDoc

/-- The settings of the checks. -/
structure Config where
  /-- Stray text is quoted up to this length. -/
  excerptLength : Int := 40
  /-- Whether an item that inherits from a deprecated one has to say that it is deprecated. -/
  enforceInheritedDeprecation : Bool := false
  /-- The stages of support that the target of a link must not have, since items of these stages
  are left out of the documentation. -/
  restrictedTags : List ReleaseTag := [.internal, .alpha]
  deriving DecidableEq, Repr

namespace Config

/-- The names of the restricted stages in alphabetical order. -/
def restrictedNames (config : Config) : List String :=
  ([.alpha, .beta, .internal, .unstated, .released].filter config.restrictedTags.contains).map
    ReleaseTag.name

/-- An ASCII capital letter in lower case, any other character as it is. -/
def lowerChar (c : Char) : Char :=
  if 'A' ≤ c && c ≤ 'Z' then Char.ofNat (c.toNat + 32) else c

/-- Whether the value of a switch means on, in letters of either case and with blanks around. -/
def isOn (value : Text) : Bool :=
  let word := (Text.strip value).map lowerChar
  word = ['1'] || word = "true".toList || word = "yes".toList || word = "on".toList

/-- The settings where the environment holds the given value for the switch, if any. -/
def ofSwitch (value : Option Text) : Config :=
  match value with
  | some value => { enforceInheritedDeprecation := isOn value }
  | none => {}

end Config

end ApiDoc
