import ApiDoc.Documentation.Basic

/-!
# Resolved items

What is known about the item that a reference leads to: its kind, its stage of support and its
blocks. An item of another package is known in this form only.
-/

namespace ApiDoc

/-- What is known about the target of a reference. -/
structure ResolvedItem where
  /-- The kind of the item. -/
  kind : ItemKind
  /-- The stage of support. -/
  releaseTag : ReleaseTag := .unstated
  /-- What is shown. -/
  content : Content := {}
  deriving DecidableEq, Repr

/-- A documentation as what references to its item lead to. -/
def Documentation.resolved (d : Documentation) (kind : ItemKind) : ResolvedItem where
  kind := kind
  releaseTag := d.releaseTag
  content := d.content

/-- Takes over the blocks of an item: the summary and the remarks, and from a function also the
parameters and the returned value. -/
def Documentation.inherit (source : ResolvedItem) (d : Documentation) : Documentation :=
  let copy := source.content.detach
  let taken := { d.content with summary := copy.summary, remarks := copy.remarks }
  { d with
    content :=
      if source.kind.isFunctionLike then
        { taken with parameters := copy.parameters, returnsMessage := copy.returnsMessage }
      else taken
    isInheritedDeprecated := d.isInheritedDeprecated || !copy.deprecatedMessage.isEmpty }

end ApiDoc
