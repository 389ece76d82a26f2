import ApiDoc.Data.Encode
import ApiDoc.Proofs.Order.Manifest
import ApiDoc.Proofs.Order.Reordering

/-!
# The order of a manifest

A manifest may list its items and their members in any order (`Manifest.Reordered`): if no two
exports and no two members of one export share a name, the completed package shows every item with
the same documentation, and reports and warns about the same (`Manifest.reordered_completes_alike`).
Only packages with a name and without cycles of inheritance are meant. Without a name a link may
stop the reading, and where it stops depends on the order; in a cycle the request that is reported
is the one that closes it.
-/

namespace ApiDoc

open Workspace

/-! ## Other orders -/

namespace Json

/-- The names of some entries. -/
def names (vs : List Json) : List (Option Json) :=
  vs.map (field? "name".toList)

/-- The entries for the members of an entry; none where they are left out. -/
def members (v : Json) : List Json :=
  match v.field? "members".toList with
  | some (.arr vs) => vs
  | _ => []

/-- An entry with its members in another order. -/
inductive Reordered : Json → Json → Prop
  /-- The same entry. -/
  | refl (v : Json) : Reordered v v
  /-- An object whose list of members is in another order. -/
  | members {fields : List (Text × Json)} {vs vs' : List Json}
      (hmembers : OrderedMap.find? "members".toList fields = some (.arr vs))
      (hperm : vs.Perm vs') :
      Reordered (.obj fields) (.obj (OrderedMap.put "members".toList (.arr vs') fields))

end Json

namespace Manifest

/-- The entries for the items of a manifest; none where they are left out. -/
def items (manifest : OrderedMap Json) : List Json :=
  match OrderedMap.find? "items".toList manifest with
  | some (.arr vs) => vs
  | _ => []

/-- A manifest with its items, and the members of each item, in another order. -/
inductive Reordered : OrderedMap Json → OrderedMap Json → Prop
  /-- The same manifest. -/
  | refl (manifest : OrderedMap Json) : Reordered manifest manifest
  /-- A manifest whose list of items is in another order, after the members of some were. -/
  | items {manifest : OrderedMap Json} {vs middle vs' : List Json}
      (hitems : OrderedMap.find? "items".toList manifest = some (.arr vs))
      (hmembers : List.Forall₂ Json.Reordered vs middle) (hperm : middle.Perm vs') :
      Reordered manifest (OrderedMap.put "items".toList (.arr vs') manifest)

/-- No two exports share a name, and no two members of one export do. -/
structure Distinct (manifest : OrderedMap Json) : Prop where
  exports : (Json.names (items manifest)).Nodup
  members : ∀ v ∈ items manifest, (Json.names v.members).Nodup

section
variable {config : Config} {manifest manifest' : OrderedMap Json} {v v' : Json}
  {owner : Option Text} {e : Entry} {E group : List Declaration} {x : Declaration}

/-! ## What entries declare -/

/-- The name and the members of an entry are those of its fields. -/
theorem fields_of_entry (h : entry owner v = .ok e) :
    v.field? "name".toList = some (.str e.name) ∧ e.members = v.members := by
  cases v with
  | obj fields =>
    obtain ⟨hname, -, -, hmembers, -⟩ := entry_eq_ok_iff.1 h
    refine ⟨hname, ?_⟩
    unfold membersOf at hmembers
    simp only [Json.members, Json.field?]
    split at hmembers
    · next hnone =>
      rw [hnone]
      exact (Except.ok.inj hmembers).symm
    · next hsome =>
      rw [hsome]
      exact (Except.ok.inj hmembers).symm
    · cases hmembers
  | null | bool | int | double | str | arr => cases h

theorem eq_items_of_itemsOf {vs : List Json}
    (h : itemsOf (OrderedMap.find? "items".toList manifest) = .ok vs) : vs = items manifest := by
  unfold itemsOf at h
  unfold items
  split at h
  · next hnone =>
    rw [hnone]
    exact (Except.ok.inj h).symm
  · next hsome =>
    rw [hsome]
    exact (Except.ok.inj h).symm
  · cases h

/-- An entry reads the same with its members in another order. -/
theorem entry_put_members {fields : List (Text × Json)} (h : entry none (.obj fields) = .ok e)
    (vs : List Json) :
    entry none (.obj (OrderedMap.put "members".toList (.arr vs) fields)) =
      .ok { e with members := vs } := by
  obtain ⟨hname, hkind, hdocs, -, -⟩ := entry_eq_ok_iff.1 h
  refine entry_eq_ok_iff.2 ⟨?_, ?_, ?_, ?_, nofun⟩
  · rwa [OrderedMap.find?_put, if_neg (by decide)]
  · rwa [OrderedMap.find?_put, if_neg (by decide)]
  · rwa [OrderedMap.find?_put, if_neg (by decide)]
  · rw [OrderedMap.find?_put, if_pos rfl]
    rfl

theorem of_memberDeclaration {name : Text} (h : memberDeclaration name v = .ok x) :
    x.owner = some name ∧ v.field? "name".toList = some (.str x.name) := by
  obtain ⟨e, hentry, hx⟩ := exists_of_bind_eq_ok h
  cases hx
  exact ⟨rfl, (fields_of_entry hentry).1⟩

/-- What an item declares: itself, and its members. -/
theorem itemDeclarations_eq_ok_iff : itemDeclarations v = .ok group ↔ ∃ e members,
    entry none v = .ok e ∧
      List.Forall₂ (fun v m => memberDeclaration e.name v = .ok m) e.members members ∧
      group = ⟨none, e.name, e.kind, e.docs⟩ :: members := by
  constructor
  · intro h
    obtain ⟨e, hentry, h⟩ := exists_of_bind_eq_ok h
    obtain ⟨members, hmembers, hgroup⟩ := exists_of_bind_eq_ok h
    exact ⟨e, members, hentry, mapM_eq_ok_iff.1 hmembers, (Except.ok.inj hgroup).symm⟩
  · rintro ⟨e, members, hentry, hmembers, rfl⟩
    unfold itemDeclarations
    rw [hentry]
    change (e.members.mapM (memberDeclaration e.name) >>= _) = _
    rw [mapM_eq_ok_iff.2 hmembers]
    rfl

/-- What a manifest declares: what each of its items does. -/
theorem declarations_eq_ok_iff : declarations manifest = .ok E ↔ ∃ vs groups,
    itemsOf (OrderedMap.find? "items".toList manifest) = .ok vs ∧
      List.Forall₂ (fun v group => itemDeclarations v = .ok group) vs groups ∧
      E = groups.flatten := by
  constructor
  · intro h
    obtain ⟨vs, hitems, h⟩ := exists_of_bind_eq_ok h
    obtain ⟨groups, hgroups, hE⟩ := exists_of_bind_eq_ok h
    exact ⟨vs, groups, hitems, mapM_eq_ok_iff.1 hgroups, (Except.ok.inj hE).symm⟩
  · rintro ⟨vs, groups, hitems, hgroups, rfl⟩
    unfold declarations
    rw [hitems]
    change (vs.mapM itemDeclarations >>= _) = _
    rw [mapM_eq_ok_iff.2 hgroups]
    rfl

/-! ## Reordered entries declare the same -/

theorem exists_itemDeclarations_of_reordered (hreordered : Json.Reordered v v')
    (h : itemDeclarations v = .ok group) :
    ∃ group', itemDeclarations v' = .ok group' ∧ group.Perm group' := by
  cases hreordered with
  | refl => exact ⟨group, h, .refl _⟩
  | @members fields vs vs' hmembers hperm =>
    obtain ⟨e, members, hentry, hdecode, rfl⟩ := itemDeclarations_eq_ok_iff.1 h
    have hvs : e.members = vs := by
      rw [(fields_of_entry hentry).2]
      simp only [Json.members, Json.field?, hmembers]
    obtain ⟨members', hdecode', hperm'⟩ := exists_forall₂_of_perm hperm (hvs ▸ hdecode)
    exact ⟨_, itemDeclarations_eq_ok_iff.2
      ⟨{ e with members := vs' }, members', entry_put_members hentry vs', hdecode', rfl⟩,
      hperm'.cons _⟩

theorem exists_declarations_of_reordered (hreordered : Reordered manifest manifest')
    (h : declarations manifest = .ok E) :
    ∃ E', declarations manifest' = .ok E' ∧ E.Perm E' := by
  cases hreordered with
  | refl => exact ⟨E, h, .refl _⟩
  | @items vs middle vs' hitems hmembers hperm =>
    obtain ⟨_, groups, hvs, hgroups, rfl⟩ := declarations_eq_ok_iff.1 h
    rw [hitems] at hvs
    cases hvs
    obtain ⟨groups₁, hgroups₁, hpermuted⟩ :=
      exists_forall₂_of_forall₂ hmembers hgroups exists_itemDeclarations_of_reordered
    obtain ⟨groups', hgroups', hperm'⟩ := exists_forall₂_of_perm hperm hgroups₁
    refine ⟨groups'.flatten, declarations_eq_ok_iff.2 ⟨vs', groups', ?_, hgroups', rfl⟩, ?_⟩
    · rw [OrderedMap.find?_put, if_pos rfl]
      rfl
    · exact (List.Perm.flatten_congr hpermuted).trans hperm'.flatten

/-- The items are read in the same workspace. -/
theorem Reordered.workspace_eq (h : Reordered manifest manifest') :
    workspace config manifest' = workspace config manifest := by
  cases h with
  | refl => rfl
  | items =>
    unfold workspace
    rw [OrderedMap.find?_put, if_neg (by decide), OrderedMap.find?_put, if_neg (by decide)]

/-! ## Declarations in order -/

theorem isGroup_of_itemDeclarations (h : itemDeclarations v = .ok group) :
    Declaration.IsGroup group := by
  obtain ⟨e, members, -, hmembers, rfl⟩ := itemDeclarations_eq_ok_iff.1 h
  refine ⟨_, members, rfl, rfl, fun m hm => ?_⟩
  obtain ⟨v, -, hv⟩ := exists_of_forall₂_right hmembers hm
  exact (of_memberDeclaration hv).1

theorem orderly_of_declarations (h : declarations manifest = .ok E)
    (hnodup : (E.map Declaration.key).Nodup) : Declaration.Orderly E := by
  obtain ⟨vs, groups, -, hgroups, rfl⟩ := declarations_eq_ok_iff.1 h
  refine Declaration.Orderly.nil.append_flatten (fun group hgroup => ?_) hnodup
  obtain ⟨v, -, hv⟩ := exists_of_forall₂_right hgroups hgroup
  exact isGroup_of_itemDeclarations hv

/-! ## Distinct names -/

/-- The keys in a group begin with the name of the export. -/
theorem head?_key_of_isGroup (h : Declaration.IsGroup group) {key : List Text}
    (hkey : key ∈ group.map Declaration.key) :
    key.head?.map Json.str = group.head?.map fun x => Json.str x.name := by
  obtain ⟨x, members, rfl, hexport, hmembers⟩ := h
  obtain ⟨m, hm, rfl⟩ := List.mem_map.1 hkey
  unfold Declaration.key Declaration.path
  rcases List.mem_cons.1 hm with rfl | hm
  · rw [hexport]
    rfl
  · rw [hmembers m hm]
    rfl

/-- The keys of members end with their names. -/
theorem names_of_members {name : Text} {vs : List Json} {members : List Declaration}
    (h : List.Forall₂ (fun v m => memberDeclaration name v = .ok m) vs members) :
    Json.names vs =
      (members.map Declaration.key).map fun key => key.getLast?.map Json.str := by
  induction h with
  | nil => rfl
  | cons hv _ ih =>
    refine congrArg₂ List.cons ?_ ih
    rw [(of_memberDeclaration hv).2, Declaration.key]
    exact (congrArg (Option.map Json.str) List.getLast?_concat).symm

/-- The names of the items are those of the exports. -/
theorem names_of_groups {vs : List Json} {groups : List (List Declaration)}
    (h : List.Forall₂ (fun v group => itemDeclarations v = .ok group) vs groups) :
    Json.names vs = groups.map fun group => group.head?.map fun x => Json.str x.name := by
  induction h with
  | nil => rfl
  | cons hv _ ih =>
    refine congrArg₂ List.cons ?_ ih
    obtain ⟨e, members, hentry, -, rfl⟩ := itemDeclarations_eq_ok_iff.1 hv
    exact (fields_of_entry hentry).1

theorem nodup_keys_of_itemDeclarations (h : itemDeclarations v = .ok group)
    (hdistinct : (Json.names v.members).Nodup) : (group.map Declaration.key).Nodup := by
  obtain ⟨e, members, hentry, hmembers, rfl⟩ := itemDeclarations_eq_ok_iff.1 h
  rw [← (fields_of_entry hentry).2, names_of_members hmembers] at hdistinct
  refine List.nodup_cons.2 ⟨fun hmem => ?_, hdistinct.of_map⟩
  obtain ⟨m, hm, hkey⟩ := List.mem_map.1 hmem
  obtain ⟨v, -, hv⟩ := exists_of_forall₂_right hmembers hm
  rw [Declaration.key, Declaration.path, (of_memberDeclaration hv).1] at hkey
  cases hkey

/-- No two declarations share a key: within an item the names of the members tell them apart, and
across items the names of the exports do. -/
theorem nodup_keys_of_declarations (h : declarations manifest = .ok E)
    (hdistinct : Distinct manifest) : (E.map Declaration.key).Nodup := by
  obtain ⟨vs, groups, hitems, hgroups, rfl⟩ := declarations_eq_ok_iff.1 h
  obtain ⟨hexports, hmembers⟩ := hdistinct
  rw [← eq_items_of_itemsOf hitems] at hexports hmembers
  rw [names_of_groups hgroups] at hexports
  have hgroup {group : List Declaration} (hmem : group ∈ groups) :
      Declaration.IsGroup group := by
    obtain ⟨v, -, hdecode⟩ := exists_of_forall₂_right hgroups hmem
    exact isGroup_of_itemDeclarations hdecode
  rw [List.map_flatten]
  refine List.nodup_flatten.2 ⟨fun keys hkeys => ?_, List.pairwise_map.2 ?_⟩
  · obtain ⟨group, hgroup, rfl⟩ := List.mem_map.1 hkeys
    obtain ⟨v, hv, hdecode⟩ := exists_of_forall₂_right hgroups hgroup
    exact nodup_keys_of_itemDeclarations hdecode (hmembers v hv)
  · refine (List.pairwise_map.1 hexports).imp_of_mem fun ha hb hne key hkey hkey' => hne ?_
    rw [← head?_key_of_isGroup (hgroup ha) hkey, head?_key_of_isGroup (hgroup hb) hkey']

/-! ## Reading and completing -/

/-- The workspace of a package with a name: the package is known, unless its name is empty. -/
theorem eq_of_ofName? {name : Text} {w : Workspace} (h : ofName? name config = some w) :
    name = [] ∧ w = { package := { name := some name }, identity := none, config } ∨
    name ≠ [] ∧ ∃ identity, PackageName.parse? name = some identity ∧
      w = { package := { name := some name }, identity := some identity, config } := by
  unfold ofName? at h
  split at h
  · next hempty =>
    cases h
    exact .inl ⟨List.isEmpty_iff.1 hempty, rfl⟩
  · next hempty =>
    obtain ⟨identity, hparse, rfl⟩ := Option.map_eq_some_iff.1 h
    exact .inr ⟨fun hnil => hempty (List.isEmpty_iff.2 hnil), identity, hparse, rfl⟩

/-- What a manifest that gives a workspace says apart from its items. -/
theorem of_workspace {w : Workspace} (h : workspace config manifest = .ok w) :
    ∃ name known base, OrderedMap.find? "package".toList manifest = some (.str name) ∧
      external ((OrderedMap.find? "external".toList manifest).getD (.obj [])) = .ok known ∧
      ofName? name config = some base ∧ w = { base with external := known } := by
  unfold workspace at h
  split at h
  · next hdeclared =>
    split at h
    · obtain ⟨known, hknown, h⟩ := exists_of_bind_eq_ok h
      split at h
      · next hname =>
        cases h
        exact ⟨_, known, _, hdeclared, hknown, hname, rfl⟩
      · cases h
    · cases h
  · cases h

/-- A package with a name is known, and nothing stands in it before the items are read. -/
theorem ready_of_workspace {name : Text} {base : Workspace}
    (hname : OrderedMap.find? "package".toList manifest = some (.str name)) (hne : name ≠ [])
    (hbase : workspace config manifest = .ok base) : base.Bare ∧ base.Ready := by
  obtain ⟨_, known, _, hdeclared, -, hbase, rfl⟩ := of_workspace hbase
  cases hname.symm.trans hdeclared
  obtain ⟨hnil, -⟩ | ⟨-, identity, -, rfl⟩ := eq_of_ofName? hbase
  · exact absurd hnil hne
  · exact ⟨⟨rfl, rfl, rfl, rfl⟩, ⟨identity, rfl⟩, List.not_mem_nil, rfl⟩

/-- The order of a manifest does not matter. If a manifest of a package with a name is well-formed,
its names are distinct and no cycle of inheritance is reached, it is read without an interruption,
and so is the manifest in any other order. The completed packages show every item with the same
documentation, and there are the same diagnostics and the same warnings, in some order. -/
theorem reordered_completes_alike {name : Text} {outcome : Except Failure Unit} {w : Workspace}
    (hreordered : Reordered manifest manifest') (hdistinct : Distinct manifest)
    (hname : OrderedMap.find? "package".toList manifest = some (.str name)) (hne : name ≠ [])
    (hread : read config manifest = (outcome, some w))
    (hwell : ∀ e, outcome ≠ .error (.malformed e)) (hacyclic : ∀ d, w.Acyclic d) :
    outcome = .ok () ∧ ∃ w' w₁ w₁', read config manifest' = (.ok (), some w') ∧
      Action.completeAll.run w = (.ok (), w₁) ∧ Action.completeAll.run w' = (.ok (), w₁') ∧
      (∀ path, w₁'.shown path = w₁.shown path) ∧
      w₁.diagnostics.Perm w₁'.diagnostics ∧ w₁.warnings.Perm w₁'.warnings := by
  cases hbase : workspace config manifest with
  | error e =>
    unfold read at hread
    rw [hbase] at hread
    cases hread
  | ok base =>
    obtain ⟨hbare, hready⟩ := ready_of_workspace hname hne hbase
    obtain ⟨E, hE⟩ := exists_declarations hbase hready (by rwa [hread])
    obtain ⟨E', hE', hperm⟩ := exists_declarations_of_reordered hreordered hE
    have hkeys := nodup_keys_of_declarations hE hdistinct
    have horderly := orderly_of_declarations hE hkeys
    have horderly' := orderly_of_declarations hE' ((hperm.map _).nodup hkeys)
    have hread₁ := read_of_ready hbase hready hE
    have hread' := read_of_ready (hreordered.workspace_eq.trans hbase) hready hE'
    rw [hread] at hread₁
    cases hread₁
    obtain ⟨w₁, w₁', hcompleted⟩ := (hbare.declareAll hready horderly).completeAll_of_perm
      (hbare.declareAll hready horderly') hperm horderly.nodup hacyclic
    exact ⟨rfl, _, w₁, w₁', hread', hcompleted⟩

end

/-- An entry from its parts. -/
def entryJson (name kind docs : String) (members : List Json) : Json :=
  .object [("name", .ofString name), ("kind", .ofString kind), ("docs", .ofString docs),
    ("members", .arr members)]

/-- A manifest of a function that inherits from a method that is listed later, and of a class with
another method, whose comment has a link that leads nowhere, and that one. -/
def inOrder : OrderedMap Json :=
  [("package".toList, .ofString "p"),
    ("items".toList, .arr [entryJson "f" "function" "\x7b@inheritdoc c.b\x7d" [],
      entryJson "c" "class" "" [entryJson "a" "method" "See \x7b@link p:gone\x7d." [],
        entryJson "b" "method" "Words." []]])]

/-- The same manifest with the class first and its methods the other way round. -/
def outOfOrder : OrderedMap Json :=
  [("package".toList, .ofString "p"),
    ("items".toList, .arr [
      entryJson "c" "class" "" [entryJson "b" "method" "Words." [],
        entryJson "a" "method" "See \x7b@link p:gone\x7d." []],
      entryJson "f" "function" "\x7b@inheritdoc c.b\x7d" []])]

/-- Names that are texts differ if the texts do. -/
theorem nodup_names {vs : List Json} (texts : List Text)
    (hnames : Json.names vs = texts.map fun t => some (.str t)) (hnodup : texts.Nodup) :
    (Json.names vs).Nodup := by
  rw [hnames]
  refine hnodup.map fun t t' h => ?_
  cases h
  rfl

theorem distinct_inOrder : Distinct inOrder where
  exports := nodup_names ["f".toList, "c".toList] rfl (by decide)
  members v hv := by
    have hitems : items inOrder = [entryJson "f" "function" "\x7b@inheritdoc c.b\x7d" [],
      entryJson "c" "class" "" [entryJson "a" "method" "See \x7b@link p:gone\x7d." [],
        entryJson "b" "method" "Words." []]] := rfl
    rw [hitems] at hv
    rcases List.mem_cons.1 hv with rfl | hv
    · exact List.nodup_nil
    · cases List.mem_singleton.1 hv
      exact nodup_names ["a".toList, "b".toList] rfl (by decide)

theorem outOfOrder_completes_alike : Reordered inOrder outOfOrder ∧ Distinct inOrder ∧
    ∃ w w' w₁ w₁', read {} inOrder = (.ok (), some w) ∧ (∀ d, w.Acyclic d) ∧
      read {} outOfOrder = (.ok (), some w') ∧
      Action.completeAll.run w = (.ok (), w₁) ∧ Action.completeAll.run w' = (.ok (), w₁') ∧
      w₁'.shown ["f".toList] = w₁.shown ["f".toList] ∧
      w₁.diagnostics.Perm w₁'.diagnostics ∧ w₁.warnings.Perm w₁'.warnings := by
  have hreordered : Reordered inOrder outOfOrder :=
    .items rfl (.cons (.refl _) (.cons (.members rfl (.swap _ _ _)) .nil)) (.swap _ _ _)
  have hok : (read {} inOrder).1 = .ok () := by cbv
  have hsome : (read {} inOrder).2.isSome = true := by cbv
  have hqueues : (read {} inOrder).2.map (fun w => w.documents.map (·.pendingInheritDocs)) =
    some #[["c.b".toList], [], [], []] := by cbv
  have hlead : (read {} inOrder).2.map (·.lead "c.b".toList) = some (.own .method 3) := by cbv
  obtain ⟨w, hw⟩ := Option.isSome_iff_exists.1 hsome
  have hread : read {} inOrder = (.ok (), some w) := Prod.ext hok hw
  rw [hw] at hqueues hlead
  have hqueue (d : DocId) : (w.document d).pendingInheritDocs =
      #[["c.b".toList], [], [], []].getD d [] := by
    rw [← Option.some.inj hqueues]
    rcases Nat.lt_or_ge d w.documents.size with hlt | hge
    · simp [document, hlt]
    · simp [document, hge]
  have hacyclic : ∀ d, w.Acyclic d := by
    -- only the function inherits, and the method has the number 3
    refine acyclic_of_rank (fun d => if d = 0 then 1 else 0) fun e hedge => ?_
    obtain ⟨hqueued, kind, htarget⟩ := inherits_iff.1 hedge
    obtain ⟨source, content, target⟩ := e
    rw [hqueue] at hqueued
    rcases source with _ | _ | _ | _ | _
    · cases List.mem_singleton.1 hqueued
      cases (Option.some.inj hlead).symm.trans htarget
      decide
    all_goals cases hqueued
  obtain ⟨-, w', w₁, w₁', hread', hrun, hrun', hshown, hdiagnostics, hwarnings⟩ :=
    reordered_completes_alike hreordered distinct_inOrder rfl (List.cons_ne_nil _ _) hread
      (fun _ h => by cases h) hacyclic
  exact ⟨hreordered, distinct_inOrder, w, w', w₁, w₁', hread, hacyclic, hread', hrun, hrun',
    hshown _, hdiagnostics, hwarnings⟩

end Manifest

end ApiDoc
