import ApiDoc.Proofs.Data.RoundTrip

/-!
# The form of items of other packages

Which values describe an item, given without the readers: keys, elements, blocks, parameters and
items, each as the fields that it must have, that it may leave out, and what stands there. What
stands where an item holds a text is left open (`isText`), so that the form can be asked for with
texts there and with whatever stands there. Every reader is followed piece by piece: it reads the
values of the form with texts, and no others. Main statement:
`Json.exists_resolvedItem_iff`.
-/

namespace ApiDoc

/-- The names of the parts of a key. -/
def ItemKey.partNames : List Text :=
  ["scope_name".toList, "package_name".toList, "export_name".toList, "member_name".toList]

/-- The names of the blocks of an item, apart from its parameters. -/
def Content.blockNames : List Text :=
  ["summary".toList, "remarks".toList, "deprecated_message".toList, "returns_message".toList]

namespace Json

/-- A value is a text. -/
def IsText (v : Json) : Prop :=
  ∃ t, v = .str t

/-- A value is the word for a kind of items. -/
def IsKind (v : Json) : Prop :=
  ∃ kind : ItemKind, v = .ofString kind.name

/-- A value is the word for a stage of support. -/
def IsStage (v : Json) : Prop :=
  ∃ tag : ReleaseTag, v = .ofString tag.name

/-- A value is the word for the status of a link. -/
def IsStatus (v : Json) : Prop :=
  ∃ status : LinkStatus, v = .ofString status.name

/-! ## The form -/

section
variable (isText : Json → Prop)

/-- A value has a field with a text. -/
def HasText (name : String) (v : Json) : Prop :=
  ∃ t, v.field? name.toList = some t ∧ isText t

/-- A value is a key: an object with parts of a key, and nothing else. -/
def IsKey (v : Json) : Prop :=
  ∃ parts, v = .obj parts ∧ ∀ part ∈ parts, part.1 ∈ ItemKey.partNames ∧ isText part.2

/-- A value is what a link displays: a list of objects with a text, or something empty that is
listed. -/
def IsDisplay (v : Json) : Prop :=
  v = .str [] ∨ v = .obj [] ∨ ∃ values, v = .arr values ∧ ∀ e ∈ values, HasText isText "text" e

/-- A value is an element: an object that says of which kind it is, with the fields of that kind. A
link may leave out what it displays, and one to an item also its status. -/
inductive IsElement : Json → Prop
  | text {fields : OrderedMap Json}
    (hkind : OrderedMap.find? "kind".toList fields = some (.ofString "text"))
    (htext : HasText isText "text" (.obj fields)) : IsElement (.obj fields)
  | paragraph {fields : OrderedMap Json}
    (hkind : OrderedMap.find? "kind".toList fields = some (.ofString "paragraph")) :
    IsElement (.obj fields)
  | htmlTag {fields : OrderedMap Json}
    (hkind : OrderedMap.find? "kind".toList fields = some (.ofString "html-tag"))
    (htoken : HasText isText "token" (.obj fields)) : IsElement (.obj fields)
  | webLink {fields : OrderedMap Json}
    (hkind : OrderedMap.find? "kind".toList fields = some (.ofString "web-link"))
    (hdisplay : IsDisplay isText ((OrderedMap.find? "elements".toList fields).getD (.arr [])))
    (haddress : HasText isText "target_url" (.obj fields)) : IsElement (.obj fields)
  | itemLink {fields : OrderedMap Json} {target : Json}
    (hkind : OrderedMap.find? "kind".toList fields = some (.ofString "api-link"))
    (hdisplay : IsDisplay isText ((OrderedMap.find? "elements".toList fields).getD (.arr [])))
    (htarget : OrderedMap.find? "target".toList fields = some target) (hkey : IsKey isText target)
    (hstatus : IsStatus ((OrderedMap.find? "status".toList fields).getD
      (.ofString LinkStatus.resolved.name))) : IsElement (.obj fields)

/-- A value is a block: a list of elements, or something that counts as nothing. -/
def IsBlock (v : Json) : Prop :=
  v.isEmpty = true ∨ ∃ values, v = .arr values ∧ ∀ e ∈ values, IsElement isText e

/-- A value is parameters: an object of objects, each of which may have a description. -/
def IsParameters (v : Json) : Prop :=
  ∃ entries, v = .obj entries ∧ ∀ entry ∈ entries, ∃ fields, entry.2 = .obj fields ∧
    IsBlock isText ((OrderedMap.find? "description".toList fields).getD .null)

/-- A value is an item: an object that says of which kind it is, and may say at which stage of
support, and may have blocks and parameters. -/
inductive IsResolvedItem : Json → Prop
  | obj {fields : OrderedMap Json} {kind : Json}
    (hkind : OrderedMap.find? "kind".toList fields = some kind) (hword : IsKind kind)
    (hstage : IsStage ((OrderedMap.find? "release_tag".toList fields).getD
      (.ofString ReleaseTag.unstated.name)))
    (hblocks : ∀ name ∈ Content.blockNames,
      IsBlock isText ((OrderedMap.find? name fields).getD .null))
    (hparameters : IsParameters isText
      ((OrderedMap.find? "parameters".toList fields).getD (.obj []))) :
    IsResolvedItem (.obj fields)

end

/-! ## More may stand for a text -/

section
variable {isText isText₁ : Json → Prop} {v : Json} {name : String}

theorem HasText.mono (himp : ∀ v, isText v → isText₁ v) (h : HasText isText name v) :
    HasText isText₁ name v := by
  obtain ⟨t, hfield, ht⟩ := h
  exact ⟨t, hfield, himp t ht⟩

theorem IsKey.mono (himp : ∀ v, isText v → isText₁ v) (h : IsKey isText v) : IsKey isText₁ v := by
  obtain ⟨parts, rfl, hparts⟩ := h
  exact ⟨parts, rfl, fun part hpart => (hparts part hpart).imp_right (himp part.2)⟩

theorem IsDisplay.mono (himp : ∀ v, isText v → isText₁ v) (h : IsDisplay isText v) :
    IsDisplay isText₁ v := by
  obtain hstr | hobj | ⟨values, rfl, hvalues⟩ := h
  · exact .inl hstr
  · exact .inr (.inl hobj)
  · exact .inr (.inr ⟨values, rfl, fun e he => (hvalues e he).mono himp⟩)

theorem IsElement.mono (himp : ∀ v, isText v → isText₁ v) (h : IsElement isText v) :
    IsElement isText₁ v := by
  cases h with
  | text hkind htext => exact .text hkind (htext.mono himp)
  | paragraph hkind => exact .paragraph hkind
  | htmlTag hkind htoken => exact .htmlTag hkind (htoken.mono himp)
  | webLink hkind hdisplay haddress =>
    exact .webLink hkind (hdisplay.mono himp) (haddress.mono himp)
  | itemLink hkind hdisplay htarget hkey hstatus =>
    exact .itemLink hkind (hdisplay.mono himp) htarget (hkey.mono himp) hstatus

theorem IsBlock.mono (himp : ∀ v, isText v → isText₁ v) (h : IsBlock isText v) :
    IsBlock isText₁ v := by
  obtain hempty | ⟨values, rfl, hvalues⟩ := h
  · exact .inl hempty
  · exact .inr ⟨values, rfl, fun e he => (hvalues e he).mono himp⟩

theorem IsParameters.mono (himp : ∀ v, isText v → isText₁ v) (h : IsParameters isText v) :
    IsParameters isText₁ v := by
  obtain ⟨entries, rfl, hentries⟩ := h
  refine ⟨entries, rfl, fun entry hentry => ?_⟩
  obtain ⟨fields, hfields, hblock⟩ := hentries entry hentry
  exact ⟨fields, hfields, hblock.mono himp⟩

/-- An item keeps its form where more may stand for a text. -/
theorem IsResolvedItem.mono (himp : ∀ v, isText v → isText₁ v) (h : IsResolvedItem isText v) :
    IsResolvedItem isText₁ v := by
  obtain ⟨hkind, hword, hstage, hblocks, hparameters⟩ := h
  exact .obj hkind hword hstage (fun name hname => (hblocks name hname).mono himp)
    (hparameters.mono himp)

end

/-! ## Texts and words -/

section
variable {v : Json} {fields : OrderedMap Json} {name : String}

theorem exists_text_iff : (∃ t, v.text = .ok t) ↔ IsText v := by
  cases v with
  | str t => exact iff_of_true ⟨t, rfl⟩ ⟨t, rfl⟩
  | null | bool | int | double | arr | obj => exact iff_of_false nofun nofun

theorem exists_itemKind_iff : (∃ kind, v.itemKind = .ok kind) ↔ IsKind v :=
  exists_congr fun _ => itemKind_eq_ok_iff

theorem exists_releaseTag_iff : (∃ tag, v.releaseTag = .ok tag) ↔ IsStage v :=
  exists_congr fun _ => releaseTag_eq_ok_iff

theorem exists_linkStatus_iff : (∃ status, v.linkStatus = .ok status) ↔ IsStatus v :=
  exists_congr fun _ => linkStatus_eq_ok_iff

theorem requiredField_eq_ok_iff {x : Json} :
    v.requiredField name = .ok x ↔ v.field? name.toList = some x := by
  cases v with
  | obj fields =>
    simp only [requiredField, field?]
    cases OrderedMap.find? name.toList fields <;> simp
  | null | bool | int | double | str | arr => simp [requiredField, field?]

/-- What is read from a required field, is read if and only if the field is there with a value of
the form. -/
theorem exists_requiredField_bind_iff {α : Type} {read : Json → Except DataError α}
    {Form : Json → Prop} (hread : ∀ x, (∃ a, read x = .ok a) ↔ Form x) :
    (∃ a, (v.requiredField name >>= read) = .ok a) ↔
      ∃ x, v.field? name.toList = some x ∧ Form x := by
  simp only [← requiredField_eq_ok_iff, ← hread]
  cases v.requiredField name with
  | error e => exact iff_of_false nofun nofun
  | ok x => exact ⟨fun h => ⟨x, rfl, h⟩, fun ⟨_, hx, h⟩ => Except.ok.inj hx ▸ h⟩

/-! ## Keys, and what links display -/

/-- A part of a key is given its value if there is such a part, and the value is a text. -/
theorem exists_setPart_iff (key : ItemKey) (part : Text × Json) :
    (∃ key₁, key.setPart part.1 part.2 = .ok key₁) ↔
      part.1 ∈ ItemKey.partNames ∧ IsText part.2 := by
  have hset (f : Text → ItemKey) :
      (∃ key₁, (part.2.text >>= fun t => pure (f t)) = .ok key₁) ↔ IsText part.2 :=
    exists_bind_pure_eq_ok_iff.trans exists_text_iff
  unfold ItemKey.setPart
  split_ifs with hscope hpackage hexport hmember
  · exact (hset _).trans (and_iff_right (by simp [hscope, ItemKey.partNames])).symm
  · exact (hset _).trans (and_iff_right (by simp [hpackage, ItemKey.partNames])).symm
  · exact (hset _).trans (and_iff_right (by simp [hexport, ItemKey.partNames])).symm
  · exact (hset _).trans (and_iff_right (by simp [hmember, ItemKey.partNames])).symm
  all_goals
    refine iff_of_false nofun fun h => ?_
    simp_all [ItemKey.partNames]

/-- The values that are read as keys. -/
theorem exists_key_iff : (∃ key, ItemKey.ofJson v = .ok key) ↔ IsKey IsText v := by
  cases v with
  | obj parts =>
    simp only [IsKey, Json.obj.injEq, exists_eq_left']
    exact exists_foldlM_eq_ok_iff exists_setPart_iff parts .empty
  | null | bool | int | double | str | arr => exact iff_of_false nofun nofun

/-- The values that are read entry by entry, where no text is an entry: texts and objects list
texts, so they are read only if they are empty. -/
theorem exists_values_mapM_iff {α : Type} {f : Json → Except DataError α} {Form : Json → Prop}
    (hf : ∀ e, (∃ a, f e = .ok a) ↔ Form e) (hstr : ∀ t, ¬ Form (.str t)) :
    (∃ as, (v.values >>= fun values => values.mapM f) = .ok as) ↔
      v = .str [] ∨ v = .obj [] ∨ ∃ values, v = .arr values ∧ ∀ e ∈ values, Form e := by
  have hlist (values : List Json) : (∃ as, values.mapM f = .ok as) ↔ ∀ e ∈ values, Form e :=
    exists_mapM_eq_ok_iff.trans (forall₂_congr fun e _ => hf e)
  cases v with
  | arr values => exact (hlist values).trans (by simp)
  | str t => exact (hlist _).trans (by cases t <;> simp [hstr])
  | obj fields => exact (hlist _).trans (by cases fields <;> simp [hstr])
  | null | bool | int | double => exact iff_of_false nofun (by simp)

/-- What a link displays is read from what is given as that. -/
theorem exists_display_iff : (∃ display, Element.displayOfJson fields = .ok display) ↔
    IsDisplay IsText ((OrderedMap.find? "elements".toList fields).getD (.arr [])) := by
  unfold Element.displayOfJson
  cases OrderedMap.find? "elements".toList fields with
  | none => exact iff_of_true ⟨[], rfl⟩ (.inr (.inr ⟨[], rfl, nofun⟩))
  | some v =>
    have htext (e : Json) : (∃ t, (e.requiredField "text" >>= Json.text) = .ok t) ↔
        HasText IsText "text" e := exists_requiredField_bind_iff fun x => exists_text_iff
    refine exists_values_mapM_iff htext ?_
    rintro t ⟨_, h, -⟩
    cases h

/-- What is read from a field that may be left out, is read if and only if its value or the one that
stands in for it has the form. -/
theorem exists_optional_iff {α β : Type} {field : Option Json} {read : Json → Except DataError α}
    {next : α → Except DataError β} {Ends : Prop} {a : α} {x : Json} (Form : Json → Prop)
    (hread : ∀ x, (∃ a, read x = .ok a) ↔ Form x) (hnone : Form x)
    (hnext : ∀ a, (∃ b, next a = .ok b) ↔ Ends) :
    (∃ b : β, (match field with
      | some v => read v >>= next
      | none => pure a >>= next) = .ok b) ↔ Form (field.getD x) ∧ Ends := by
  cases field with
  | none => exact (hnext a).trans (and_iff_right hnone).symm
  | some v => exact (exists_bind_eq_ok_iff fun a _ => hnext a).trans (and_congr_left' (hread v))

/-! ## Elements -/

/-- What is read as an element says that it is of one of five kinds. -/
theorem exists_kind_of_ofFields {e : Element} (h : Element.ofFields fields = .ok e) :
    ∃ word ∈ ["text", "paragraph", "html-tag", "web-link", "api-link"],
      OrderedMap.find? "kind".toList fields = some (.ofString word) := by
  unfold Element.ofFields at h
  dsimp only at h
  cases hkind : OrderedMap.find? "kind".toList fields with
  | none =>
    rw [hkind] at h
    cases h
  | some v =>
    rw [hkind] at h
    cases v with
    | str word =>
      simp only [Option.getD_some] at h
      split_ifs at h with htext hparagraph hhtml hweb hitem
      · exact ⟨"text", by simp, by rw [htext]; rfl⟩
      · exact ⟨"paragraph", by simp, by rw [hparagraph]; rfl⟩
      · exact ⟨"html-tag", by simp, by rw [hhtml]; rfl⟩
      · exact ⟨"web-link", by simp, by rw [hweb]; rfl⟩
      · exact ⟨"api-link", by simp, by rw [hitem]; rfl⟩
    | null | bool | int | double | arr | obj => cases h

/-- A required text is put into an element. -/
theorem exists_bind_text_iff {f : Text → Element} :
    (∃ e, (v.requiredField name >>= fun x => x.text >>= fun t => pure (f t)) = .ok e) ↔
      HasText IsText name v :=
  exists_requiredField_bind_iff fun _ => exists_bind_pure_eq_ok_iff.trans exists_text_iff

theorem exists_textElement_iff
    (hkind : OrderedMap.find? "kind".toList fields = some (.ofString "text")) :
    (∃ e, Element.ofFields fields = .ok e) ↔ HasText IsText "text" (.obj fields) := by
  have hbranch : Element.ofFields fields = (do
      return .text (← (← (Json.obj fields).requiredField "text").text)) := by
    unfold Element.ofFields
    rw [hkind]
    rfl
  rw [hbranch]
  exact exists_bind_text_iff

theorem exists_paragraph
    (hkind : OrderedMap.find? "kind".toList fields = some (.ofString "paragraph")) :
    ∃ e, Element.ofFields fields = .ok e := by
  refine ⟨.paragraph, ?_⟩
  unfold Element.ofFields
  rw [hkind]
  rfl

theorem exists_htmlTag_iff
    (hkind : OrderedMap.find? "kind".toList fields = some (.ofString "html-tag")) :
    (∃ e, Element.ofFields fields = .ok e) ↔ HasText IsText "token" (.obj fields) := by
  have hbranch : Element.ofFields fields = (do
      return .htmlTag (← (← (Json.obj fields).requiredField "token").text)) := by
    unfold Element.ofFields
    rw [hkind]
    rfl
  rw [hbranch]
  exact exists_bind_text_iff

theorem exists_webLink_iff
    (hkind : OrderedMap.find? "kind".toList fields = some (.ofString "web-link")) :
    (∃ e, Element.ofFields fields = .ok e) ↔
      IsDisplay IsText ((OrderedMap.find? "elements".toList fields).getD (.arr [])) ∧
        HasText IsText "target_url" (.obj fields) := by
  have hbranch : Element.ofFields fields = (do
      let display ← Element.displayOfJson fields
      return .webLink display (← (← (Json.obj fields).requiredField "target_url").text)) := by
    unfold Element.ofFields
    rw [hkind]
    rfl
  rw [hbranch, exists_bind_eq_ok_iff fun _ _ => exists_bind_text_iff, exists_display_iff]

theorem exists_itemLink_iff
    (hkind : OrderedMap.find? "kind".toList fields = some (.ofString "api-link")) :
    (∃ e, Element.ofFields fields = .ok e) ↔
      IsDisplay IsText ((OrderedMap.find? "elements".toList fields).getD (.arr [])) ∧
        ∃ target, OrderedMap.find? "target".toList fields = some target ∧ IsKey IsText target ∧
          IsStatus ((OrderedMap.find? "status".toList fields).getD
            (.ofString LinkStatus.resolved.name)) := by
  have hbranch : Element.ofFields fields = (do
      let display ← Element.displayOfJson fields
      let target ← ItemKey.ofJson (← (Json.obj fields).requiredField "target")
      let status ← match OrderedMap.find? "status".toList fields with
        | some v => v.linkStatus
        | none => pure .resolved
      return .itemLink { display, target, status, place := none }) := by
    unfold Element.ofFields
    rw [hkind]
    rfl
  rw [hbranch]
  refine (exists_bind_eq_ok_iff fun display _ => ?_).trans (and_congr_left' exists_display_iff)
  refine exists_requiredField_bind_iff fun target => ?_
  refine (exists_bind_eq_ok_iff fun key _ => ?_).trans (and_congr_left' exists_key_iff)
  exact (exists_optional_iff IsStatus (fun _ => exists_linkStatus_iff) ⟨.resolved, rfl⟩
    fun status => iff_true_intro ⟨_, rfl⟩).trans (and_iff_left trivial)

/-- The values that are read as elements. -/
theorem exists_element_iff : (∃ e, Element.ofJson v = .ok e) ↔ IsElement IsText v := by
  cases v with
  | null | bool | int | double | str | arr => exact iff_of_false nofun nofun
  | obj fields =>
    change (∃ e, Element.ofFields fields = .ok e) ↔ _
    constructor
    · intro h
      obtain ⟨word, hword, hkind⟩ := exists_kind_of_ofFields h.choose_spec
      simp only [List.mem_cons, List.not_mem_nil, or_false] at hword
      obtain rfl | rfl | rfl | rfl | rfl := hword
      · exact .text hkind ((exists_textElement_iff hkind).1 h)
      · exact .paragraph hkind
      · exact .htmlTag hkind ((exists_htmlTag_iff hkind).1 h)
      · obtain ⟨hdisplay, haddress⟩ := (exists_webLink_iff hkind).1 h
        exact .webLink hkind hdisplay haddress
      · obtain ⟨hdisplay, target, htarget, hkey, hstatus⟩ := (exists_itemLink_iff hkind).1 h
        exact .itemLink hkind hdisplay htarget hkey hstatus
    · intro h
      cases h with
      | text hkind htext => exact (exists_textElement_iff hkind).2 htext
      | paragraph hkind => exact exists_paragraph hkind
      | htmlTag hkind htoken => exact (exists_htmlTag_iff hkind).2 htoken
      | webLink hkind hdisplay haddress =>
        exact (exists_webLink_iff hkind).2 ⟨hdisplay, haddress⟩
      | itemLink hkind hdisplay htarget hkey hstatus =>
        exact (exists_itemLink_iff hkind).2 ⟨hdisplay, _, htarget, hkey, hstatus⟩

/-! ## Items -/

/-- Nothing is an empty block, and whatever else is read as a block has its form. -/
theorem exists_block_iff {field : Option Json} :
    (∃ b, Block.ofJson field = .ok b) ↔ IsBlock IsText (field.getD .null) := by
  cases field with
  | none => exact iff_of_true ⟨[], rfl⟩ (.inl rfl)
  | some v =>
    unfold Block.ofJson
    dsimp only
    split
    · next hempty => exact iff_of_true ⟨[], rfl⟩ (.inl hempty)
    · next hfull =>
      have hstr (t : Text) : ¬ IsElement IsText (.str t) := fun h => by cases h
      refine (exists_values_mapM_iff (fun e => exists_element_iff) hstr).trans ⟨?_, ?_⟩
      · rintro (rfl | rfl | h)
        · exact absurd rfl hfull
        · exact absurd rfl hfull
        · exact .inr h
      · rintro (h | h)
        · exact absurd h hfull
        · exact .inr (.inr h)

/-- A block is read first, and what comes after it does not depend on it. -/
theorem exists_block_bind_iff {α : Type} {field : Option Json} {next : Block → Except DataError α}
    {Ends : Prop} (hnext : ∀ b, (∃ a, next b = .ok a) ↔ Ends) :
    (∃ a, (Block.ofJson field >>= next) = .ok a) ↔ IsBlock IsText (field.getD .null) ∧ Ends :=
  (exists_bind_eq_ok_iff fun b _ => hnext b).trans (and_congr_left' exists_block_iff)

theorem exists_parameters_iff {field : Option Json} :
    (∃ parameters, Content.parametersOfJson field = .ok parameters) ↔
      IsParameters IsText (field.getD (.obj [])) := by
  cases field with
  | none => exact iff_of_true ⟨[], rfl⟩ ⟨[], rfl, nofun⟩
  | some v =>
    cases v with
    | obj entries =>
      refine exists_mapM_eq_ok_iff.trans ?_
      simp only [IsParameters, Option.getD_some, Json.obj.injEq, exists_eq_left']
      refine forall₂_congr fun entry _ => ?_
      cases entry.2 with
      | obj fields =>
        refine exists_bind_pure_eq_ok_iff.trans (exists_block_iff.trans ?_)
        simp only [Json.obj.injEq, exists_eq_left']
      | null | bool | int | double | str | arr => exact iff_of_false nofun nofun
    | null | bool | int | double | str | arr => exact iff_of_false nofun nofun

/-- The fields of an item, in the order in which they are read. -/
theorem isResolvedItem_iff {isText : Json → Prop} : IsResolvedItem isText (.obj fields) ↔
    ∃ kind, OrderedMap.find? "kind".toList fields = some kind ∧ IsKind kind ∧
      IsStage ((OrderedMap.find? "release_tag".toList fields).getD
        (.ofString ReleaseTag.unstated.name)) ∧
      IsBlock isText ((OrderedMap.find? "summary".toList fields).getD .null) ∧
      IsBlock isText ((OrderedMap.find? "remarks".toList fields).getD .null) ∧
      IsBlock isText ((OrderedMap.find? "deprecated_message".toList fields).getD .null) ∧
      IsBlock isText ((OrderedMap.find? "returns_message".toList fields).getD .null) ∧
      IsParameters isText ((OrderedMap.find? "parameters".toList fields).getD (.obj [])) := by
  constructor
  · rintro ⟨hkind, hword, hstage, hblocks, hparameters⟩
    simp only [Content.blockNames, List.forall_mem_cons] at hblocks
    obtain ⟨hsummary, hremarks, hdeprecated, hreturns, -⟩ := hblocks
    exact ⟨_, hkind, hword, hstage, hsummary, hremarks, hdeprecated, hreturns, hparameters⟩
  · rintro ⟨_, hkind, hword, hstage, hsummary, hremarks, hdeprecated, hreturns, hparameters⟩
    refine .obj hkind hword hstage ?_ hparameters
    simp only [Content.blockNames, List.forall_mem_cons]
    exact ⟨hsummary, hremarks, hdeprecated, hreturns, nofun⟩

/-- The values that are read as items of other packages. -/
theorem exists_resolvedItem_iff :
    (∃ item, ResolvedItem.ofJson v = .ok item) ↔ IsResolvedItem IsText v := by
  cases v with
  | null | bool | int | double | str | arr => exact iff_of_false nofun nofun
  | obj fields =>
    rw [isResolvedItem_iff, ResolvedItem.ofJson]
    refine exists_requiredField_bind_iff fun kind => ?_
    refine (exists_bind_eq_ok_iff fun _ _ => ?_).trans (and_congr_left' exists_itemKind_iff)
    refine exists_optional_iff IsStage (fun _ => exists_releaseTag_iff) ⟨.unstated, rfl⟩ fun _ => ?_
    refine exists_block_bind_iff fun _ => ?_
    refine exists_block_bind_iff fun _ => ?_
    refine exists_block_bind_iff fun _ => ?_
    refine exists_block_bind_iff fun _ => ?_
    exact exists_bind_pure_eq_ok_iff.trans exists_parameters_iff

end

end Json

end ApiDoc
