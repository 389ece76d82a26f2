import ApiDoc.Proofs.Order.Independence

/-!
# Exports and their members

Reading a manifest adds one family of declarations after the other: an export, then its members
(`Manifest.exists_families_of_read`). The package keeps them under their names, so that of all exports
with one name the last one is left, with its members only, in the place of the first; and likewise
of the members of one export (`Family.kept`). Main statement: `Manifest.standing_of_read`, what
stands in the package when the reading has ended well. Nothing is assumed about the names.
-/

namespace ApiDoc

open Workspace

/-! ## Families -/

/-- Something with the members that come after it. -/
structure Family (α : Type) where
  /-- What the members belong to. -/
  owner : α
  /-- The members, in order. -/
  members : List α
  deriving DecidableEq, Repr

namespace Family

section
variable {α β : Type} {families : List (Family α)}

/-- The owner followed by the members. -/
def toList (f : Family α) : List α :=
  f.owner :: f.members

/-- Every owner followed by its members. -/
def all (families : List (Family α)) : List α :=
  families.flatMap toList

/-- Every one replaced by its image. -/
def map (g : α → β) (f : Family α) : Family β where
  owner := g f.owner
  members := f.members.map g

/-- The families with numbers for all, counted from `n` on in the order of `Family.all`. -/
def numbered (n : Nat) : List (Family α) → List (Family (α × Nat))
  | [] => []
  | f :: families =>
    { owner := (f.owner, n), members := f.members.zipIdx (n + 1) } ::
      numbered (n + f.toList.length) families

/-- What is left if all are kept under their names: of the owners with one name the last, in the
place of the first, and of its members likewise. -/
def kept (key : α → Text) (families : List (Family α)) : List α :=
  (OrderedMap.lastOfEach (fun f => key f.owner) families).flatMap fun f =>
    f.owner :: OrderedMap.lastOfEach key f.members

/-- No two owners share a name, and no two members of one owner do. -/
structure Distinct (key : α → Text) (families : List (Family α)) : Prop where
  owners : (families.map fun f => key f.owner).Nodup
  members : ∀ f ∈ families, (f.members.map key).Nodup

theorem all_concat (families : List (Family α)) (f : Family α) :
    all (families ++ [f]) = all families ++ f.toList := by
  rw [all, List.flatMap_append, List.flatMap_singleton]
  rfl

theorem all_numbered (n : Nat) (families : List (Family α)) :
    all (numbered n families) = (all families).zipIdx n := by
  induction families generalizing n with
  | nil => rfl
  | cons f families ih =>
    change _ ++ all (numbered _ families) = (f.toList ++ all families).zipIdx n
    rw [ih, List.zipIdx_append]
    rfl

theorem numbered_concat (n : Nat) (families : List (Family α)) (f : Family α) :
    numbered n (families ++ [f]) = numbered n families ++
      [{ owner := (f.owner, n + (all families).length)
         members := f.members.zipIdx (n + (all families).length + 1) }] := by
  induction families generalizing n with
  | nil => rfl
  | cons g families ih =>
    have hlength : (all (g :: families)).length = g.toList.length + (all families).length :=
      List.length_append
    rw [List.cons_append, numbered, ih, hlength, ← Nat.add_assoc]
    rfl

/-- Without the numbers the families are what they were. -/
theorem map_numbered (n : Nat) (families : List (Family α)) :
    (numbered n families).map (map Prod.fst) = families := by
  induction families generalizing n with
  | nil => rfl
  | cons f families ih =>
    rw [numbered, List.map_cons, ih]
    refine congrArg (· :: families) ?_
    rw [map, List.zipIdx_map_fst]

theorem distinct_map {key : β → Text} {g : α → β} :
    Distinct key (families.map (map g)) ↔ Distinct (fun a => key (g a)) families := by
  constructor
  · rintro ⟨howners, hmembers⟩
    rw [List.map_map] at howners
    refine ⟨howners, fun f hf => ?_⟩
    have hnodup := hmembers _ (List.mem_map_of_mem hf)
    rwa [map, List.map_map] at hnodup
  · rintro ⟨howners, hmembers⟩
    refine ⟨by rwa [List.map_map], fun image himage => ?_⟩
    obtain ⟨f, hf, rfl⟩ := List.mem_map.1 himage
    rw [map, List.map_map]
    exact hmembers f hf

/-! ## What is left -/

variable {key : α → Text}

/-- With distinct names all are left. -/
theorem Distinct.kept_eq_all (h : Distinct key families) : kept key families = all families := by
  rw [kept, OrderedMap.lastOfEach_of_nodup h.owners, all]
  refine List.flatMap_congr fun f hf => ?_
  rw [OrderedMap.lastOfEach_of_nodup (h.members f hf), toList]

theorem length_all (families : List (Family α)) :
    (all families).length = (families.map fun f => f.members.length + 1).sum :=
  List.length_flatMap

/-- How many are left of a family whose owner is left. -/
def weight (key : α → Text) (f : Family α) : Nat :=
  (OrderedMap.lastOfEach key f.members).length + 1

theorem length_kept (key : α → Text) (families : List (Family α)) : (kept key families).length =
    ((OrderedMap.lastOfEach (fun f => key f.owner) families).map (weight key)).sum :=
  List.length_flatMap

theorem weight_le (key : α → Text) (f : Family α) : weight key f ≤ f.members.length + 1 :=
  Nat.succ_le_succ (OrderedMap.length_lastOfEach_le key f.members)

theorem sum_weight_le (key : α → Text) (families : List (Family α)) :
    (families.map (weight key)).sum ≤ (all families).length := by
  rw [length_all]
  exact List.sum_le_sum fun f _ => weight_le key f

theorem length_kept_le_sum (key : α → Text) (families : List (Family α)) :
    (kept key families).length ≤ (families.map (weight key)).sum := by
  rw [length_kept]
  exact OrderedMap.sum_lastOfEach_le (weight key) _ families

theorem length_kept_le (key : α → Text) (families : List (Family α)) :
    (kept key families).length ≤ (all families).length :=
  (length_kept_le_sum key families).trans (sum_weight_le key families)

/-- If as many are left as there are, the names are distinct. -/
theorem distinct_of_length_kept (h : (all families).length ≤ (kept key families).length) :
    Distinct key families := by
  refine ⟨OrderedMap.nodup_of_sum_lastOfEach (weight key) (fun _ _ => Nat.succ_pos _) ?_,
    fun f hf => OrderedMap.nodup_of_length_lastOfEach (Nat.le_of_not_lt fun hlt => ?_)⟩
  · rw [← length_kept]
    exact (sum_weight_le key families).trans h
  · have hless : (families.map (weight key)).sum < (all families).length := by
      rw [length_all]
      exact List.sum_lt_sum _ _ (fun f _ => weight_le key f) ⟨f, hf, Nat.succ_lt_succ hlt⟩
    exact absurd (h.trans (length_kept_le_sum key families)) (Nat.not_le_of_lt hless)

end

/-! ## Families of declarations -/

/-- The name of a declaration with a number. -/
def nameOf (x : Declaration × DocId) : Text :=
  x.1.name

/-- What a declaration with a number is as an item, apart from its members. -/
def faceOf (x : Declaration × DocId) : Text × ItemKind × DocId :=
  (x.1.name, x.1.kind, x.2)

/-- A member as an item. -/
def memberItem (x : Declaration × DocId) : Item :=
  .mk x.1.name x.1.kind x.2 []

/-- An export as an item. -/
def item (f : Family (Declaration × DocId)) : Item :=
  .mk f.owner.1.name f.owner.1.kind f.owner.2
    (OrderedMap.ofEntries (f.members.map fun m => (nameOf m, memberItem m)))

/-- The items of a package whose exports were put under their names one after the other. -/
def exports (families : List (Family (Declaration × DocId))) : OrderedMap Item :=
  OrderedMap.ofEntries (families.map fun f => (nameOf f.owner, f.item))

/-- One family more is put under its name. -/
theorem exports_concat (families : List (Family Declaration)) (f : Family Declaration) :
    exports (numbered 0 (families ++ [f])) = (exports (numbered 0 families)).put f.owner.name
      (.mk f.owner.name f.owner.kind (all families).length (OrderedMap.ofEntries
        ((f.members.zipIdx ((all families).length + 1)).map fun m => (nameOf m, memberItem m)))) := by
  rw [numbered_concat, exports, List.map_append, Nat.zero_add]
  exact OrderedMap.ofEntries_concat _ _

/-- Every export of such a package followed by its members. -/
theorem items_exports {package : Package} {families : List (Family (Declaration × DocId))}
    (h : package.exports = exports families) :
    package.items.map Item.face = (kept nameOf families).map faceOf := by
  have hmembers (f : Family (Declaration × DocId)) :
      (OrderedMap.values f.item.members).map Item.face =
        (OrderedMap.lastOfEach nameOf f.members).map faceOf := by
    rw [item, Item.members, OrderedMap.values_ofEntries_map, List.map_map]
    rfl
  rw [Package.items, h, exports, OrderedMap.values_ofEntries_map, kept, List.map_flatMap,
    List.map_flatMap, List.flatMap_map]
  refine List.flatMap_congr fun f _ => ?_
  rw [List.map_cons, List.map_cons, hmembers]
  rfl

end Family

namespace Item

section
variable {name : Text} {m : OrderedMap Item}

theorem putAt_cons (name : Text) (item : Item) (entry : Text × Item) (m : OrderedMap Item) :
    putAt [name] item (entry :: m) =
      (entry.1, if entry.1 = name then mk entry.2.name entry.2.kind entry.2.doc
        (entry.2.members.put item.name item) else entry.2) :: putAt [name] item m := by
  obtain ⟨first, old⟩ := entry
  refine congrArg (· :: putAt [name] item m) ?_
  dsimp only
  split <;> rfl

/-- Where there is no export of the name, nothing changes. -/
theorem putAt_eq_self (h : name ∉ m.names) (item : Item) : putAt [name] item m = m := by
  induction m with
  | nil => rfl
  | cons entry m ih =>
    obtain ⟨hne, hrest⟩ := not_or.1 (mt List.mem_cons.2 h)
    rw [putAt_cons, if_neg (Ne.symm hne), ih hrest]

/-- A member is put into the export of its owner's name. -/
theorem putAt_put (hm : m.names.Nodup) (name : Text) (kind : ItemKind) (doc : DocId)
    (members : OrderedMap Item) (item : Item) :
    putAt [name] item (m.put name (mk name kind doc members)) =
      m.put name (mk name kind doc (members.put item.name item)) := by
  induction m with
  | nil =>
    refine (putAt_cons name item _ []).trans ?_
    rw [if_pos rfl]
    rfl
  | cons entry m ih =>
    obtain ⟨first, old⟩ := entry
    obtain ⟨hfirst, hrest⟩ := List.nodup_cons.1 hm
    simp only [OrderedMap.put]
    split
    · next heq =>
      subst heq
      rw [putAt_cons, if_pos rfl, putAt_eq_self hfirst]
      rfl
    · next hne => rw [putAt_cons, if_neg hne, ih hrest]

end

end Item

namespace Manifest

section
variable {config : Config} {manifest : OrderedMap Json} {w w₁ : Workspace} {v : Json}

/-- If the reading of an item ended well, it was added, and its members were. -/
theorem exists_family_of_readItem (v : Json) {w w₁ : Workspace}
    (h : (readItem v).run w = (.ok (), w₁)) :
    ∃ f : Family Declaration, itemDeclarations v = .ok f.toList ∧ Steps Adds f.toList w w₁ := by
  obtain ⟨e, w₂, hread, hrest⟩ := Reading.exists_of_run_bind h
  obtain ⟨hentry, rfl⟩ := Reading.of_run_ofExcept hread
  obtain ⟨⟨⟩, w₃, hexport, hmembers⟩ := Reading.exists_of_run_bind hrest
  obtain ⟨members, hdecoded, hsteps⟩ :=
    exists_steps_of_forM (exists_adds_of_readMember e.name) hmembers
  exact ⟨⟨⟨none, e.name, e.kind, e.docs⟩, members⟩,
    itemDeclarations_eq_ok_iff.2 ⟨e, members, hentry, hdecoded, rfl⟩,
    .cons (Reading.of_run_perform hexport) hsteps⟩

/-- If the reading of a manifest ended well, one family was added for every entry. -/
theorem exists_families_of_read (hread : read config manifest = (.ok (), some w)) :
    ∃ (base : Workspace) (families : List (Family Declaration)),
      workspace config manifest = .ok base ∧
      List.Forall₂ (fun v f => itemDeclarations v = .ok f.toList) (items manifest) families ∧
      Steps (fun f => Steps Adds f.toList) families base w := by
  unfold read at hread
  cases hbase : workspace config manifest with
  | error e =>
    rw [hbase] at hread
    cases hread
  | ok base =>
    rw [hbase] at hread
    obtain ⟨houtcome, hw⟩ := Prod.mk.inj hread
    obtain ⟨vs, w₂, hitems, hrun⟩ :=
      Reading.exists_of_run_bind (Prod.ext houtcome (Option.some.inj hw))
    obtain ⟨hvs, rfl⟩ := Reading.of_run_ofExcept hitems
    obtain ⟨families, hdecoded, hsteps⟩ := exists_steps_of_forM exists_family_of_readItem hrun
    exact ⟨w₂, families, rfl, eq_items_of_itemsOf hvs ▸ hdecoded, hsteps⟩

/-! ## What stands in the package -/

/-- What stands in a package after some families were added: a documentation for every declaration,
read from its comment, in the order of the declarations; and of the declarations those that are kept
under their names, as items. -/
structure Standing (base : Workspace) (families : List (Family Declaration)) (w : Workspace) :
    Prop where
  quiet : w.Quiet
  surroundings : w.surroundings = base.surroundings
  size : w.documents.size = (Family.all families).length
  parsed : ∀ d x, (Family.all families)[d]? = some x →
    Documentation.parse base.surroundings (some x.title) (Comment.body x.comment) =
      .ok (w.document d)
  exports : w.package.exports = Family.exports (Family.numbered 0 families)

/-- The addition of a declaration reads its comment and puts it in its place. -/
theorem Adds.spec {x : Declaration} (h : Adds x w w₁) (hq : w.Quiet) :
    ∃ d w₂, Documentation.parse w.surroundings (some (w.qualifiedName x.path x.name))
        (Comment.body x.comment) = .ok d ∧
      w.ReportsTo w₂ ∧ w₂.Quiet ∧ w₁ = w₂.register x.path x.name x.kind d := by
  unfold Adds at h
  cases hopen : w.isComplete with
  | true =>
    rw [Action.run_addItem_of_complete hopen] at h
    cases h
  | false =>
    rcases Action.run_addItem_cases hopen x.path x.name x.kind x.comment with
      ⟨e, _, hrun, -, -⟩ | ⟨d, _, -, hparse, -⟩
    · rw [hrun] at h
      cases h
    · obtain ⟨w₂, hrun, hreports, hq₂, -⟩ := Action.run_addItem_of_parse hq hopen x.kind hparse
      rw [hrun] at h
      exact ⟨d, w₂, hparse, hreports, hq₂, (Prod.mk.inj h).2.symm⟩

namespace Standing
variable {base : Workspace} {families families₁ : List (Family Declaration)} {x m : Declaration}
  {members : List Declaration}

/-- One declaration more, wherever the new item is put. -/
theorem add (h : Standing base families w) (hadds : Adds x w w₁)
    (htitle : w.qualifiedName x.path x.name = x.title)
    (hall : Family.all families₁ = Family.all families ++ [x])
    (hexports : Item.putAt x.path (.mk x.name x.kind (Family.all families).length [])
      (Family.exports (Family.numbered 0 families)) =
        Family.exports (Family.numbered 0 families₁)) :
    Standing base families₁ w₁ := by
  obtain ⟨d, w₂, hparse, ⟨log, diagnostics, faults, rfl⟩, hq₂, rfl⟩ := hadds.spec h.quiet
  rw [htitle, h.surroundings] at hparse
  refine ⟨hq₂, h.surroundings, ?_, fun i y hy => ?_, ?_⟩
  · rw [hall, List.length_append, ← h.size]
    exact Array.size_push _
  · rw [hall] at hy
    exact parsed_register h.size h.parsed hparse hy
  · rw [← hexports, ← h.exports, ← h.size]
    rfl

/-- An export more. -/
theorem owner (h : Standing base families w) (hx : x.owner = none) (hadds : Adds x w w₁) :
    Standing base (families ++ [⟨x, []⟩]) w₁ := by
  have hpath : x.path = [] := by rw [Declaration.path, hx]; rfl
  refine h.add hadds ?_ (Family.all_concat _ _) ?_
  · rw [hpath, Declaration.title, hx]
    rfl
  · rw [hpath, Family.exports_concat]
    rfl

/-- A member more of the last export. -/
theorem member (h : Standing base (families ++ [⟨x, members⟩]) w) (hm : m.owner = some x.name)
    (hadds : Adds m w w₁) : Standing base (families ++ [⟨x, members ++ [m]⟩]) w₁ := by
  have hpath : m.path = [x.name] := by rw [Declaration.path, hm]; rfl
  have hall : Family.all (families ++ [⟨x, members ++ [m]⟩]) =
      Family.all (families ++ [⟨x, members⟩]) ++ [m] := by
    rw [Family.all_concat, Family.all_concat, List.append_assoc]
    rfl
  refine h.add hadds ?_ hall ?_
  · obtain ⟨owner, howner, hname⟩ :
        ∃ owner, Item.at? [x.name] w.package.exports = some owner ∧ owner.name = x.name := by
      rw [h.exports, Family.exports_concat]
      exact ⟨_, (OrderedMap.find?_put _ _ _ _).trans (if_pos rfl), rfl⟩
    rw [qualifiedName, hpath, howner, Declaration.title, hm, ← hname]
  · have hlength : (Family.all (families ++ [⟨x, members⟩])).length =
        (Family.all families).length + 1 + members.length := by
      rw [Family.all_concat, List.length_append, Nat.add_assoc, Nat.add_comm 1]
      rfl
    have hnodup : (Family.exports (Family.numbered 0 families)).names.Nodup :=
      OrderedMap.nodup_names_ofEntries _
    rw [hpath, hlength, Family.exports_concat, Family.exports_concat]
    dsimp only
    rw [Item.putAt_put hnodup, List.zipIdx_append, List.map_append]
    exact congrArg (fun members => OrderedMap.put _ (Item.mk _ _ _ members) _)
      (OrderedMap.ofEntries_concat _ (m.name, Item.mk m.name m.kind _ [])).symm

/-- Members one after the other. -/
theorem steps_members (hsteps : Steps Adds members w w₁)
    (howner : ∀ m ∈ members, m.owner = some x.name) {before : List Declaration}
    (h : Standing base (families ++ [⟨x, before⟩]) w) :
    Standing base (families ++ [⟨x, before ++ members⟩]) w₁ := by
  induction hsteps generalizing before with
  | nil => rwa [List.append_nil]
  | cons hadds _ ih =>
    obtain ⟨hfirst, hrest⟩ := List.forall_mem_cons.1 howner
    rw [List.append_cons before]
    exact ih hrest (h.member hfirst hadds)

/-- Families one after the other. -/
theorem steps_families (hsteps : Steps (fun f => Steps Adds f.toList) families w w₁)
    (hgroups : ∀ f ∈ families, Declaration.IsGroup f.toList)
    {before : List (Family Declaration)} (h : Standing base before w) :
    Standing base (before ++ families) w₁ := by
  induction hsteps generalizing before with
  | nil => rwa [List.append_nil]
  | @cons f _ _ _ _ hfamily _ ih =>
    obtain ⟨⟨x, members, hlist, hexport, howner⟩, hrest⟩ := List.forall_mem_cons.1 hgroups
    obtain ⟨rfl, rfl⟩ := List.cons.inj hlist
    rw [List.append_cons before]
    cases hfamily with
    | cons hfirst hmembers =>
      exact ih hrest (steps_members hmembers howner (h.owner hexport hfirst))

end Standing

/-- A workspace in which nothing has been read yet. -/
theorem standing_of_workspace {base : Workspace} (hbase : workspace config manifest = .ok base) :
    Standing base [] base := by
  have hempty (w : Workspace) (hdocuments : w.documents = #[]) (hexports : w.package.exports = [])
      (hfaults : w.faults = []) : Standing w [] w :=
    ⟨quiet_of_faults_eq_nil hfaults, rfl, by rw [hdocuments]; rfl, nofun, hexports⟩
  obtain ⟨_, known, _, -, -, hname, rfl⟩ := of_workspace hbase
  obtain ⟨-, rfl⟩ | ⟨-, _, -, rfl⟩ := eq_of_ofName? hname <;> exact hempty _ rfl rfl rfl

/-- If the reading of a manifest ended well, one family stands in the package for every entry. -/
theorem standing_of_read (hread : read config manifest = (.ok (), some w)) :
    ∃ (base : Workspace) (families : List (Family Declaration)),
      workspace config manifest = .ok base ∧
      List.Forall₂ (fun v f => itemDeclarations v = .ok f.toList) (items manifest) families ∧
      Standing base families w := by
  obtain ⟨base, families, hbase, hdecoded, hsteps⟩ := exists_families_of_read hread
  refine ⟨base, families, hbase, hdecoded, ?_⟩
  refine (standing_of_workspace hbase).steps_families hsteps fun f hf => ?_
  obtain ⟨v, -, hv⟩ := exists_of_forall₂_right hdecoded hf
  exact isGroup_of_itemDeclarations hv

end

end Manifest

end ApiDoc
