import ApiDoc.Text.Basic

/-!
# Release tags

The stage of support that a comment asserts for its item.
-/

namespace ApiDoc

/-- The stage of support of an item; `unstated` where its comment names no stage. -/
inductive ReleaseTag where
  | unstated | internal | alpha | beta | released
  deriving DecidableEq, Repr

namespace ReleaseTag

/-- The word for a stage. -/
def name : ReleaseTag → String
  | unstated => "none"
  | internal => "internal"
  | alpha => "alpha"
  | beta => "beta"
  | released => "public"

/-- Every stage. -/
def all : List ReleaseTag := [unstated, internal, alpha, beta, released]

/-- The stage that a word names. -/
def ofName? (word : Text) : Option ReleaseTag :=
  all.find? fun tag => tag.name.toList = word

end ReleaseTag

end ApiDoc
