import ApiDoc.Data.Encode
import ApiDoc.Workspace.Basic

/-!
# Reports

What is given out about a package: as JSON, as a summary for readers, and in one line.
-/

namespace ApiDoc

mutual

/-- An item as JSON, with its documentation and its members. -/
def Item.toJson (documents : Array Documentation) : Item → Json
  | .mk name kind doc members =>
    .object [("name", .str name), ("kind", .ofString kind.name),
      ("documentation", (documents.getD doc {}).toJson),
      ("members", .arr (Item.allToJson documents members))]

/-- Items as JSON. -/
def Item.allToJson (documents : Array Documentation) : List (Text × Item) → List Json
  | [] => []
  | (_, item) :: items => Item.toJson documents item :: Item.allToJson documents items

end

/-- The name of a package as JSON; an empty list stands for one that is left out. -/
def Package.nameJson (package : Package) : Json :=
  (package.name.map Json.str).getD (.arr [])

namespace Workspace

/-- The items whose comments have problems. -/
def failedItems (w : Workspace) : List Item :=
  w.package.items.filter fun item => (w.documentOf item).hasFailed

/-- The report as JSON. -/
def reportJson (w : Workspace) : Json :=
  .object [("package_name", w.package.nameJson),
    ("total_items", .int w.package.items.length),
    ("failed_items", .int w.failedItems.length),
    ("items", .arr (Item.allToJson w.documents w.package.exports)),
    ("diagnostics", .arr (w.diagnostics.map Diagnostic.toJson)),
    ("warnings", .arr (w.warnings.map fun warning => .ofString warning.message))]

/-- The report in one line. -/
def reportLine (w : Workspace) : Text :=
  "ExtractionResult(package=".toList ++ w.package.nameJson.describe ++
    s!", items={w.package.items.length}, errors={w.diagnostics.length}, ".toList ++
    s!"warnings={w.warnings.length})".toList

/-- The two lines of a summary about an item. -/
def itemLines (w : Workspace) (item : Item) : List Text :=
  let d := w.documentOf item
  let summary := Text.strip (Block.plainText d.content.summary)
  [' ' :: ' ' :: (d.itemName.getD "None".toList) ++
      s!" [{item.kind.name}, {d.releaseTag.name}]".toList,
    "    ".toList ++ if summary.isEmpty then "(no summary)".toList else summary]

/-- The lines of a list under a heading; none for the empty list. -/
def listLines (heading : String) : List Text → List Text
  | [] => []
  | entries =>
    [heading.toList, List.replicate 60 '-'] ++ entries.map ("  - ".toList ++ ·) ++ [[]]

/-- The summary for readers. -/
def summaryText (w : Workspace) : Text :=
  Text.joinWith ['\n'] <|
    [List.replicate 60 '=', "AEDoc Extraction Summary".toList, List.replicate 60 '=', [],
      "Package: ".toList ++ w.package.title,
      s!"Items: {w.package.items.length} ({w.failedItems.length} with errors)".toList, []]
    ++ w.package.items.flatMap w.itemLines ++ [[]]
    ++ listLines "Errors:" (w.diagnostics.map Diagnostic.text)
    ++ listLines "Warnings:" (w.warnings.map fun warning => warning.message.toList)

end Workspace

end ApiDoc
