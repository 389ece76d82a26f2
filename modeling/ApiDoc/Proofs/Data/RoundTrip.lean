import ApiDoc.Data.Decode
import ApiDoc.Data.Encode
import ApiDoc.Proofs.Outcome
import ApiDoc.Workspace.Resolve

/-!
# Documentation written and loaded back

What is written of an item is what another package has to be told to load the item: reading the
JSON of any documentation, with the kind of its item, succeeds and gives what references to the item
lead to. Only the places of the links in the queue of their comment are not written. The readers are
followed piece by piece, each against the writer of its piece (`ItemKey.ofJson_toJson`,
`Element.ofJson_toJson`, `Block.ofJson_toJson`, `Content.parametersOfJson_parametersJson`). Main
statement: `Workspace.item_loads_back`.
-/

namespace ApiDoc

/-- A documentation as JSON with the kind of its item. -/
def Documentation.itemJson (kind : ItemKind) (d : Documentation) : Json :=
  .object (d.fields ++ [("kind", .ofString kind.name)])

/-! ## Words -/

theorem ReleaseTag.ofName?_name (tag : ReleaseTag) : ofName? tag.name.toList = some tag := by
  cases tag <;> decide

theorem ItemKind.ofName?_name (kind : ItemKind) : ofName? kind.name.toList = some kind := by
  cases kind <;> decide

theorem LinkStatus.ofName?_name (status : LinkStatus) :
    ofName? status.name.toList = some status := by
  cases status <;> decide

theorem ReleaseTag.ofName?_eq_some_iff {word : Text} {tag : ReleaseTag} :
    ofName? word = some tag ↔ word = tag.name.toList :=
  ⟨fun h => (of_decide_eq_true (List.find?_some (p := fun _ => decide _) h)).symm,
    fun h => h ▸ ofName?_name tag⟩

theorem ItemKind.ofName?_eq_some_iff {word : Text} {kind : ItemKind} :
    ofName? word = some kind ↔ word = kind.name.toList :=
  ⟨fun h => (of_decide_eq_true (List.find?_some (p := fun _ => decide _) h)).symm,
    fun h => h ▸ ofName?_name kind⟩

theorem LinkStatus.ofName?_eq_some_iff {word : Text} {status : LinkStatus} :
    ofName? word = some status ↔ word = status.name.toList :=
  ⟨fun h => (of_decide_eq_true (List.find?_some (p := fun _ => decide _) h)).symm,
    fun h => h ▸ ofName?_name status⟩

namespace Json

theorem elim_eq_ok_iff {ε α : Type} {found : Option α} {e : ε} {a : α} :
    found.elim (.error e) .ok = Except.ok a ↔ found = some a := by
  cases found <;> simp

/-- A value names a kind if it is the word for it. -/
theorem itemKind_eq_ok_iff {v : Json} {kind : ItemKind} :
    v.itemKind = .ok kind ↔ v = .ofString kind.name := by
  cases v with
  | str word => simp [itemKind, ofString, elim_eq_ok_iff, ItemKind.ofName?_eq_some_iff]
  | null | bool | int | double | arr | obj => exact iff_of_false nofun nofun

/-- A value names a stage of support if it is the word for it. -/
theorem releaseTag_eq_ok_iff {v : Json} {tag : ReleaseTag} :
    v.releaseTag = .ok tag ↔ v = .ofString tag.name := by
  cases v with
  | str word => simp [releaseTag, ofString, elim_eq_ok_iff, ReleaseTag.ofName?_eq_some_iff]
  | null | bool | int | double | arr | obj => exact iff_of_false nofun nofun

/-- A value names the status of a link if it is the word for it. -/
theorem linkStatus_eq_ok_iff {v : Json} {status : LinkStatus} :
    v.linkStatus = .ok status ↔ v = .ofString status.name := by
  cases v with
  | str word => simp [linkStatus, ofString, elim_eq_ok_iff, LinkStatus.ofName?_eq_some_iff]
  | null | bool | int | double | arr | obj => exact iff_of_false nofun nofun

theorem itemKind_name (kind : ItemKind) : (ofString kind.name).itemKind = .ok kind :=
  itemKind_eq_ok_iff.2 rfl

theorem releaseTag_name (tag : ReleaseTag) : (ofString tag.name).releaseTag = .ok tag :=
  releaseTag_eq_ok_iff.2 rfl

theorem linkStatus_name (status : LinkStatus) : (ofString status.name).linkStatus = .ok status :=
  linkStatus_eq_ok_iff.2 rfl

end Json

/-! ## Blocks -/

/-- A key is read back as it was. -/
theorem ItemKey.ofJson_toJson (key : ItemKey) : ofJson key.toJson = .ok key :=
  rfl

namespace Element

/-- The texts that display a link are read back as they were. -/
theorem displayOfJson_map_textJson {fields : OrderedMap Json} {display : List Text}
    (h : OrderedMap.find? "elements".toList fields = some (.arr (display.map textJson))) :
    displayOfJson fields = .ok display := by
  rw [displayOfJson, h]
  refine (mapM_map_eq_ok (h := id) (fun chars => ?_) display).trans ?_
  · rfl
  · rw [List.map_id]

/-- An element is read back, as a copy. -/
theorem ofJson_toJson (e : Element) : ofJson e.toJson = .ok e.detach := by
  cases e with
  | text chars => rfl
  | paragraph => rfl
  | htmlTag tag => rfl
  | webLink display address =>
    have hdisplay : displayOfJson [("kind".toList, .ofString "web-link"),
        ("elements".toList, .arr (display.map textJson)), ("target_url".toList, .str address)] =
        .ok display := displayOfJson_map_textJson rfl
    exact congrArg (· >>= fun display => pure (webLink display address)) hdisplay
  | itemLink link =>
    have hdisplay : displayOfJson [("kind".toList, .ofString "api-link"),
        ("elements".toList, .arr (link.display.map textJson)),
        ("target".toList, link.target.toJson), ("status".toList, .ofString link.status.name)] =
        .ok link.display := displayOfJson_map_textJson rfl
    refine (congrArg (· >>= fun display => do
      let target ← ItemKey.ofJson link.target.toJson
      let status ← (Json.ofString link.status.name).linkStatus
      return itemLink { display, target, status, place := none }) hdisplay).trans ?_
    rw [ItemKey.ofJson_toJson, Json.linkStatus_name]
    rfl

end Element

namespace Block

/-- A block is read back, as a copy. -/
theorem ofJson_toJson (b : Block) : ofJson (some b.toJson) = .ok b.detach := by
  cases b with
  | nil => rfl
  | cons e b => exact mapM_map_eq_ok Element.ofJson_toJson (e :: b)

/-- A copy is written as the block is. -/
theorem toJson_detach (b : Block) : Block.toJson b.detach = b.toJson := by
  refine congrArg Json.arr ((List.map_map ..).trans (List.map_congr_left fun e _ => ?_))
  cases e <;> rfl

end Block

namespace Content

/-- The parameters are read back under their names, in their order. -/
theorem parametersOfJson_parametersJson (c : Content) :
    parametersOfJson (some c.parametersJson) = .ok c.detach.parameters := by
  refine mapM_map_eq_ok (fun (name, description) => ?_) c.parameters
  exact congrArg (· >>= fun block => .ok (name, block)) (Block.ofJson_toJson description)

/-- The parameters of a copy are written as those of the content are. -/
theorem parametersJson_detach (c : Content) : c.detach.parametersJson = c.parametersJson := by
  refine congrArg Json.obj ((List.map_map ..).trans (List.map_congr_left fun p _ => ?_))
  change (p.1, parameterJson p.1 (Block.detach p.2)) = (p.1, parameterJson p.1 p.2)
  rw [parameterJson, Block.toJson_detach]
  rfl

end Content

/-! ## Items -/

/-- A documentation with copies of its blocks is written as it is. -/
theorem Documentation.toJson_detach (d : Documentation) :
    { d with content := d.content.detach }.toJson = d.toJson := by
  have hblocks : d.content.detach.summary.toJson = d.content.summary.toJson ∧
      d.content.detach.remarks.toJson = d.content.remarks.toJson ∧
      d.content.detach.returnsMessage.toJson = d.content.returnsMessage.toJson ∧
      d.content.detach.deprecatedMessage.toJson = d.content.deprecatedMessage.toJson :=
    ⟨Block.toJson_detach _, Block.toJson_detach _, Block.toJson_detach _, Block.toJson_detach _⟩
  obtain ⟨hsummary, hremarks, hreturns, hdeprecated⟩ := hblocks
  simp only [toJson, fields, hsummary, hremarks, hreturns, hdeprecated,
    Content.parametersJson_detach]
  rfl

/-- What is written of an item is read as what references to it lead to. -/
theorem ResolvedItem.ofJson_itemJson (kind : ItemKind) (d : Documentation) :
    ofJson (d.itemJson kind) =
      .ok { kind, releaseTag := d.releaseTag, content := d.content.detach } := by
  have hkind : (d.itemJson kind).requiredField "kind" = .ok (.ofString kind.name) := rfl
  have htag : (d.itemJson kind).field? "release_tag".toList = some (.ofString d.releaseTag.name) :=
    rfl
  have hsummary : (d.itemJson kind).field? "summary".toList = some d.content.summary.toJson := rfl
  have hremarks : (d.itemJson kind).field? "remarks".toList = some d.content.remarks.toJson := rfl
  have hdeprecated : (d.itemJson kind).field? "deprecated_message".toList =
      some d.content.deprecatedMessage.toJson := rfl
  have hreturns : (d.itemJson kind).field? "returns_message".toList =
      some d.content.returnsMessage.toJson := rfl
  have hparameters : (d.itemJson kind).field? "parameters".toList =
      some d.content.parametersJson := rfl
  unfold ofJson
  simp only [hkind, htag, hsummary, hremarks, hdeprecated, hreturns, hparameters,
    Json.releaseTag_name, Block.ofJson_toJson, Content.parametersOfJson_parametersJson]
  exact congrArg (· >>= fun kind => .ok
    ({ kind, releaseTag := d.releaseTag, content := d.content.detach } : ResolvedItem))
    (Json.itemKind_name kind)

/-- In whatever state the work on a package is, what is written of an item loads back: it gives the
kind, the stage of support and the blocks that a reference to the item leads to at that moment, and
they are written as before. -/
theorem Workspace.item_loads_back (w : Workspace) (item : Item) : ∃ loaded,
    ResolvedItem.ofJson ((w.documentOf item).itemJson item.kind) = .ok loaded ∧
      loaded.kind = (w.view (.own item.kind item.doc)).kind ∧
      loaded.releaseTag = (w.view (.own item.kind item.doc)).releaseTag ∧
      loaded.content = (w.view (.own item.kind item.doc)).content.detach ∧
      { w.documentOf item with content := loaded.content }.toJson =
        (w.documentOf item).toJson := by
  refine ⟨_, ResolvedItem.ofJson_itemJson item.kind (w.documentOf item), rfl, rfl, rfl, ?_⟩
  exact Documentation.toJson_detach _

end ApiDoc
