import ApiDoc.Json.Basic
import ApiDoc.Item.Resolved

/-!
# Documentation as JSON

The JSON form of blocks, documentations and diagnostics. The fields stand in a fixed order.
-/

namespace ApiDoc

namespace Json

/-- A string value from a string. -/
def ofString (s : String) : Json :=
  .str s.toList

/-- An object from its fields. -/
def object (fields : List (String × Json)) : Json :=
  .obj (fields.map fun (name, value) => (name.toList, value))

end Json

/-- A key as JSON. -/
def ItemKey.toJson (key : ItemKey) : Json :=
  .object [("scope_name", .str key.package.scope), ("package_name", .str key.package.name),
    ("export_name", .str key.exportName), ("member_name", .str key.memberName)]

/-- A text element as JSON. -/
def Element.textJson (chars : Text) : Json :=
  .object [("kind", .ofString "text"), ("text", .str chars)]

/-- An element as JSON. -/
def Element.toJson : Element → Json
  | .text chars => textJson chars
  | .paragraph => .object [("kind", .ofString "paragraph")]
  | .htmlTag tag => .object [("kind", .ofString "html-tag"), ("token", .str tag)]
  | .webLink display address =>
    .object [("kind", .ofString "web-link"), ("elements", .arr (display.map textJson)),
      ("target_url", .str address)]
  | .itemLink link =>
    .object [("kind", .ofString "api-link"), ("elements", .arr (link.display.map textJson)),
      ("target", link.target.toJson), ("status", .ofString link.status.name)]

/-- A block as JSON. -/
def Block.toJson (b : Block) : Json :=
  .arr (b.map Element.toJson)

/-- A parameter as JSON. -/
def Content.parameterJson (name : Text) (description : Block) : Json :=
  .object [("name", .str name), ("description", description.toJson)]

/-- The parameters as JSON. -/
def Content.parametersJson (c : Content) : Json :=
  .obj (c.parameters.map fun (name, description) => (name, parameterJson name description))

namespace Documentation

/-- The fields of a documentation. -/
def fields (d : Documentation) : List (String × Json) :=
  [("summary", d.content.summary.toJson),
    ("remarks", d.content.remarks.toJson),
    ("returns_message", d.content.returnsMessage.toJson),
    ("deprecated_message", d.content.deprecatedMessage.toJson),
    ("parameters", d.content.parametersJson),
    ("release_tag", .ofString d.releaseTag.name),
    ("preapproved", .bool (d.hasFlag .preapproved)),
    ("is_package_documentation", .bool (d.hasFlag .packageDocumentation)),
    ("is_doc_beta", .bool (d.hasFlag .betaDocumentation)),
    ("is_event_property", .bool (d.hasFlag .eventProperty)),
    ("is_doc_inherited", .bool d.isInherited),
    ("is_doc_inherited_deprecated", .bool d.isInheritedDeprecated),
    ("has_read_only_tag", .bool (d.hasFlag .readOnly)),
    ("is_sealed", .bool (d.hasFlag .sealed)),
    ("is_virtual", .bool (d.hasFlag .virtual)),
    ("is_override", .bool (d.hasFlag .override)),
    ("failed_to_parse", .bool d.hasFailed),
    ("errors", .arr (d.problems.map fun p => .ofString p.message))]

/-- A documentation as JSON. -/
def toJson (d : Documentation) : Json :=
  .object d.fields

end Documentation

/-- A diagnostic as JSON. -/
def Diagnostic.toJson (d : Diagnostic) : Json :=
  .object [("message", .ofString d.problem.message),
    ("item_name", match d.itemName with | some name => .str name | none => .null)]

end ApiDoc
