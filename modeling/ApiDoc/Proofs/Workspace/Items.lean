import ApiDoc.Proofs.OrderedMap
import ApiDoc.Workspace.Add

/-!
# Items by their names

An item is found by the names that lead to it, and putting a new item below another leaves what
stands elsewhere as it is (`Item.face_at?_putAt`). So an addition changes neither what stands at
another place nor what it is called.
-/

namespace ApiDoc

namespace Item

/-- What is kept of an item while members are added to it. -/
def face (item : Item) : Text × ItemKind × DocId :=
  (item.name, item.kind, item.doc)

theorem at?_cons {path : List Text} (hpath : path ≠ []) (name : Text) (items : OrderedMap Item) :
    at? (name :: path) items =
      (OrderedMap.find? name items).bind fun item => at? path item.members := by
  cases path with
  | nil => exact absurd rfl hpath
  | cons next path => rfl

/-- Nothing stands below an item that is not there. -/
theorem at?_eq_none_of_find? {name : Text} {items : OrderedMap Item}
    (h : OrderedMap.find? name items = none) (path : List Text) :
    at? (name :: path) items = none := by
  cases path with
  | nil => exact h
  | cons next path => rw [at?_cons (List.cons_ne_nil _ _), h, Option.bind_none]

theorem at?_concat_eq_none {path : List Text} {items : OrderedMap Item} (hpath : path ≠ [])
    (h : at? path items = none) (name : Text) : at? (path ++ [name]) items = none := by
  induction path generalizing items with
  | nil => exact absurd rfl hpath
  | cons step path ih =>
    rw [List.cons_append]
    by_cases hrest : path = []
    · subst hrest
      exact at?_eq_none_of_find? h _
    · rw [at?_cons hrest] at h
      rw [at?_cons (List.append_ne_nil_of_left_ne_nil hrest _)]
      cases hfind : OrderedMap.find? step items with
      | none => rfl
      | some owner =>
        rw [hfind, Option.bind_some] at h
        exact ih hrest h

/-- A new item stands at its place, and every other item where it stood. -/
theorem face_at?_putAt (item : Item) (hmembers : item.members = []) {path : List Text}
    {items : OrderedMap Item} (hpath : path = [] ∨ (at? path items).isSome)
    (hfresh : at? (path ++ [item.name]) items = none) (key : List Text) :
    (at? key (putAt path item items)).map face =
      if key = path ++ [item.name] then some item.face else (at? key items).map face := by
  induction path generalizing items key with
  | nil =>
    cases key with
    | nil => rfl
    | cons name key =>
      cases key with
      | nil =>
        simp only [putAt, at?, OrderedMap.find?_put, List.nil_append, List.cons.injEq, and_true]
        split <;> rfl
      | cons next key =>
        have hne := List.cons_ne_nil next key
        rw [if_neg (by simp), at?_cons hne, at?_cons hne, putAt, OrderedMap.find?_put]
        split
        · next heq =>
          subst heq
          have hnone : OrderedMap.find? item.name items = none := hfresh
          rw [hnone, Option.bind_some, hmembers]
          cases key <;> rfl
        · rfl
  | cons step path ih =>
    have hput : ∀ name, OrderedMap.find? name (putAt (step :: path) item items) =
        (OrderedMap.find? name items).map fun owner =>
          if name = step then mk owner.name owner.kind owner.doc (putAt path item owner.members)
          else owner := by
      intro name
      rw [← OrderedMap.find?_map (fun entry => if entry.1 = step then
        mk entry.2.name entry.2.kind entry.2.doc (putAt path item entry.2.members) else entry.2)]
      refine congrArg (OrderedMap.find? name) (List.map_congr_left fun entry _ => ?_)
      dsimp only
      split <;> rfl
    have hlast : path ++ [item.name] ≠ [] :=
      List.append_ne_nil_of_right_ne_nil _ (List.cons_ne_nil _ _)
    have hpath := hpath.resolve_left (List.cons_ne_nil _ _)
    obtain ⟨owner, howner⟩ : ∃ owner, OrderedMap.find? step items = some owner := by
      cases hfind : OrderedMap.find? step items with
      | none =>
        rw [at?_eq_none_of_find? hfind] at hpath
        cases hpath
      | some owner => exact ⟨owner, rfl⟩
    have hbelow : path = [] ∨ (at? path owner.members).isSome := by
      refine or_iff_not_imp_left.2 fun hne => ?_
      rwa [at?_cons hne, howner] at hpath
    rw [List.cons_append, at?_cons hlast, howner] at hfresh
    cases key with
    | nil => rw [if_neg (by simp)]; rfl
    | cons name key =>
      by_cases hkey : key = []
      · subst hkey
        rw [if_neg (by simp)]
        change (OrderedMap.find? name _).map face = (OrderedMap.find? name items).map face
        rw [hput, Option.map_map]
        refine congrArg (fun f => Option.map f _) (funext fun owner => ?_)
        simp only [Function.comp_apply]
        split <;> rfl
      · rw [at?_cons hkey, at?_cons hkey, hput]
        by_cases hname : name = step
        · subst hname
          simp only [howner, Option.map_some, Option.bind_some, if_true, List.cons_append,
            List.cons.injEq, true_and]
          exact ih hbelow hfresh key
        · simp only [hname, if_false, List.cons_append, List.cons.injEq, false_and, Option.map_id']

end Item

namespace Workspace
variable {w : Workspace} {path other : List Text} {key : Text}

/-- What stands at a place after an addition. -/
theorem face_at?_register (kind : ItemKind) (added : Documentation)
    (howner : path = [] ∨ (Item.at? path w.package.exports).isSome)
    (hfresh : Item.at? (path ++ [key]) w.package.exports = none) (place : List Text) :
    (Item.at? place (w.register path key kind added).package.exports).map Item.face =
      if place = path ++ [key] then some (key, kind, w.documents.size)
      else (Item.at? place w.package.exports).map Item.face :=
  Item.face_at?_putAt (.mk key kind w.documents.size []) rfl howner hfresh place

/-- What stands at a place after an addition is the new item, or it stood there before. -/
theorem at?_register_cases {kind : ItemKind} {added : Documentation}
    (howner : path = [] ∨ (Item.at? path w.package.exports).isSome)
    (hfresh : Item.at? (path ++ [key]) w.package.exports = none) {place : List Text} {item : Item}
    (hitem : Item.at? place (w.register path key kind added).package.exports = some item) :
    (place = path ++ [key] ∧ item.face = (key, kind, w.documents.size)) ∨
      ∃ before, Item.at? place w.package.exports = some before ∧ before.face = item.face := by
  have hface := face_at?_register kind added howner hfresh place
  rw [hitem, Option.map_some] at hface
  split at hface
  · next hplace => exact .inl ⟨hplace, Option.some.inj hface⟩
  · exact .inr (Option.map_eq_some_iff.1 hface.symm)

/-- The new item stands at its place. -/
theorem exists_at?_register (kind : ItemKind) (added : Documentation)
    (howner : path = [] ∨ (Item.at? path w.package.exports).isSome)
    (hfresh : Item.at? (path ++ [key]) w.package.exports = none) :
    ∃ item, Item.at? (path ++ [key]) (w.register path key kind added).package.exports =
      some item ∧ item.face = (key, kind, w.documents.size) := by
  have hface := face_at?_register kind added howner hfresh (path ++ [key])
  rw [if_pos rfl] at hface
  exact Option.map_eq_some_iff.1 hface

/-- What stood at a place stands there after an addition. -/
theorem exists_at?_register_of_at? (kind : ItemKind) (added : Documentation)
    (howner : path = [] ∨ (Item.at? path w.package.exports).isSome)
    (hfresh : Item.at? (path ++ [key]) w.package.exports = none) {place : List Text}
    {before : Item} (hbefore : Item.at? place w.package.exports = some before) :
    ∃ item, Item.at? place (w.register path key kind added).package.exports = some item ∧
      item.face = before.face := by
  have hplace : place ≠ path ++ [key] := by
    rintro rfl
    rw [hfresh] at hbefore
    cases hbefore
  have hface := face_at?_register kind added howner hfresh place
  rw [if_neg hplace, hbefore, Option.map_some] at hface
  exact Option.map_eq_some_iff.1 hface

/-- An addition does not change what diagnostics call the items that are there. -/
theorem qualifiedName_register (kind : ItemKind) (added : Documentation)
    (howner : path = [] ∨ (Item.at? path w.package.exports).isSome)
    (hfresh : Item.at? (path ++ [key]) w.package.exports = none) (hother : other ≠ path ++ [key])
    (name : Text) :
    (w.register path key kind added).qualifiedName other name = w.qualifiedName other name := by
  unfold qualifiedName
  cases hitem : Item.at? other w.package.exports with
  | none =>
    have hface := face_at?_register kind added howner hfresh other
    rw [if_neg hother, hitem, Option.map_none, Option.map_eq_none_iff] at hface
    rw [hface]
  | some owner =>
    obtain ⟨owner₁, howner₁, hface⟩ :=
      exists_at?_register_of_at? kind added howner hfresh hitem
    rw [howner₁]
    exact congrArg (· ++ '.' :: name) (congrArg Prod.fst hface)

end Workspace

/-- Where a reference finds an item. -/
theorem Package.find?_eq_at? (package : Package) (exportName memberName : Text) :
    package.find? exportName memberName =
      Item.at? (if memberName.isEmpty then [exportName] else [exportName, memberName])
        package.exports := by
  unfold Package.find?
  split
  · exact Option.bind_fun_some _
  · rfl

end ApiDoc
