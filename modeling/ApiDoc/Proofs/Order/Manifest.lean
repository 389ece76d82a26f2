import ApiDoc.Extraction.Manifest
import ApiDoc.Proofs.Order.Declarations
import ApiDoc.Proofs.Outcome

/-!
# What a manifest declares

The items of a manifest and their members are declarations (`Manifest.declarations`). In a known
package, reading a manifest declares them one after the other, or fails with the first error in them
(`Manifest.read_of_ready`): no comment interrupts the reading.
-/

namespace ApiDoc

open Workspace

namespace Workspace
variable {w : Workspace} {x : Declaration}

theorem Ready.run_addItem (h : w.Ready) (x : Declaration) :
    (Action.addItem x.path x.name x.kind x.comment).run w = (.ok (), w.declare x) := by
  obtain ⟨d, w₁, -, -, hrun, -⟩ :=
    Action.run_addItem_of_ready h x.path x.name x.kind x.comment
  rw [declare, hrun]

theorem Ready.declare (h : w.Ready) (x : Declaration) : (w.declare x).Ready := by
  obtain ⟨d, w₁, -, -, hrun, ⟨log, diagnostics, faults, rfl⟩, hq₁, -⟩ :=
    Action.run_addItem_of_ready h x.path x.name x.kind x.comment
  rw [Workspace.declare, hrun]
  exact ⟨h.known, hq₁, h.isOpen⟩

theorem Ready.declareAll (h : w.Ready) (E : List Declaration) : (w.declareAll E).Ready := by
  induction E generalizing w with
  | nil => exact h
  | cons x E ih => exact ih (h.declare x)

end Workspace

namespace Manifest

/-! ## Decoding -/

/-- The declaration of a member. -/
def memberDeclaration (owner : Text) (v : Json) : Except Error Declaration := do
  let e ← entry (some owner) v
  return { owner := some owner, name := e.name, kind := e.kind, comment := e.docs }

/-- The declarations of an item and of its members. -/
def itemDeclarations (v : Json) : Except Error (List Declaration) := do
  let e ← entry none v
  let members ← e.members.mapM (memberDeclaration e.name)
  return { owner := none, name := e.name, kind := e.kind, comment := e.docs } :: members

/-- What a manifest declares. -/
def declarations (manifest : OrderedMap Json) : Except Error (List Declaration) := do
  let items ← itemsOf (OrderedMap.find? "items".toList manifest)
  return (← items.mapM itemDeclarations).flatten

/-- What an entry says, field by field. -/
theorem entry_eq_ok_iff {owner : Option Text} {fields : List (Text × Json)} {e : Entry} :
    entry owner (.obj fields) = .ok e ↔
      OrderedMap.find? "name".toList fields = some (.str e.name) ∧
      (∃ kind, OrderedMap.find? "kind".toList fields = some kind ∧
        kind.itemKind = .ok e.kind) ∧
      docsOf e.name (OrderedMap.find? "docs".toList fields) = .ok e.docs ∧
      membersOf e.name (OrderedMap.find? "members".toList fields) = .ok e.members ∧
      (owner.isSome → e.members = []) := by
  unfold entry
  simp only [Json.field?]
  generalize OrderedMap.find? "name".toList fields = name
  generalize OrderedMap.find? "kind".toList fields = kind
  generalize OrderedMap.find? "docs".toList fields = docs
  generalize OrderedMap.find? "members".toList fields = members
  constructor
  · intro h
    split at h
    · next name =>
      split at h
      · next kind =>
        split at h
        · next kind' hkind =>
          rw [pure_bind] at h
          split at h
          · next name =>
            obtain ⟨docs', hdocs, h⟩ := exists_of_bind_eq_ok h
            obtain ⟨members', hmembers, h⟩ := exists_of_bind_eq_ok h
            split at h
            · cases h
              exact ⟨rfl, ⟨kind, rfl, hkind⟩, hdocs, hmembers, fun h => absurd h Bool.false_ne_true⟩
            · split at h
              · next hempty =>
                cases h
                exact ⟨rfl, ⟨kind, rfl, hkind⟩, hdocs, hmembers, fun _ => List.isEmpty_iff.1 hempty⟩
              · cases h
          · cases h
        · cases h
      · cases h
    · cases h
  · rintro ⟨rfl, ⟨kind, rfl, hkind⟩, hdocs, hmembers, hnested⟩
    simp only [hkind, pure_bind, hdocs, hmembers]
    cases owner with
    | none => rfl
    | some owner =>
      have hempty : e.members.isEmpty = true := by rw [hnested rfl]; rfl
      exact if_pos hempty

/-! ## Reading -/

section
variable {α β : Type} {w w₁ : Workspace}

theorem Reading.run_bind (x : Reading α) (f : α → Reading β) (w : Workspace) :
    (x >>= f).run w =
      match x.run w with
      | (.ok a, w₁) => (f a).run w₁
      | (.error failure, w₁) => (.error failure, w₁) := by
  change ExceptT.bindCont f (x.run w).1 (x.run w).2 = _
  rcases x.run w with ⟨failure | a, w₁⟩ <;> rfl

theorem Reading.run_bind_ok {x : Reading α} {f : α → Reading β} {a : α}
    (h : x.run w = (.ok a, w₁)) : (x >>= f).run w = (f a).run w₁ := by
  rw [run_bind, h]

theorem Reading.run_bind_error {x : Reading α} {f : α → Reading β} {failure : Failure}
    (h : (x.run w).1 = .error failure) : ((x >>= f).run w).1 = .error failure := by
  rw [run_bind, ← Prod.eta (x.run w), h]

/-- An action as a part of the reading does what it does, and its interruption is a failure. -/
theorem Reading.run_perform (action : Action α) (w : Workspace) :
    (Reading.perform action).run w =
      ((action.run w).1.mapError Failure.interrupted, (action.run w).2) :=
  rfl

theorem Reading.run_perform_ok {action : Action α} {a : α} (h : action.run w = (.ok a, w₁)) :
    (Reading.perform action).run w = (.ok a, w₁) := by
  rw [run_perform, h]
  rfl

theorem Reading.run_perform_error {action : Action α} {i : Interruption}
    (h : action.run w = (.error i, w₁)) :
    (Reading.perform action).run w = (.error (.interrupted i), w₁) := by
  rw [run_perform, h]
  rfl

theorem Reading.run_ofExcept_bind_ok {x : Except Error α} {f : α → Reading β} {a : α}
    (h : x = .ok a) : (Reading.ofExcept x >>= f).run w = (f a).run w := by
  rw [h]
  exact run_bind_ok rfl

theorem Reading.run_ofExcept_bind_error {x : Except Error α} {f : α → Reading β} {e : Error}
    (h : x = .error e) : ((Reading.ofExcept x >>= f).run w).1 = .error (.malformed e) := by
  rw [h]
  exact run_bind_error rfl

/-- In a known package, a reader does with a value what a decoder makes of it, or fails with the
decoder's error. -/
structure Follows (reader : α → Reading Unit) (decode : α → Except Error β)
    (put : Workspace → β → Workspace) : Prop where
  ready : ∀ {w : Workspace}, w.Ready → ∀ b, (put w b).Ready
  ok : ∀ {a b} {w : Workspace}, w.Ready → decode a = .ok b →
    (reader a).run w = (.ok (), put w b)
  error : ∀ {a e} {w : Workspace}, w.Ready → decode a = .error e →
    ((reader a).run w).1 = .error (.malformed e)

/-- A list is read entry by entry. -/
theorem Follows.forM {reader : α → Reading Unit} {decode : α → Except Error β}
    {put : Workspace → β → Workspace} (h : Follows reader decode put) :
    Follows (fun as : List α => as.forM reader) (fun as => as.mapM decode)
      (fun w bs => bs.foldl put w) where
  ready {w} hw bs := by
    induction bs generalizing w with
    | nil => exact hw
    | cons b bs ih => exact ih (h.ready hw b)
  ok {as bs w} hw hdecode := by
    have hdecodes := mapM_eq_ok_iff.1 hdecode
    clear hdecode
    induction hdecodes generalizing w with
    | nil => rfl
    | cons hfirst _ ih => exact (Reading.run_bind_ok (h.ok hw hfirst)).trans (ih (h.ready hw _))
  error {as e w} hw hdecode := by
    induction as generalizing w with
    | nil => cases hdecode
    | cons a as ih =>
      rw [List.mapM_cons] at hdecode
      rcases bind_eq_error hdecode with hfirst | ⟨b, hfirst, hdecode⟩
      · exact Reading.run_bind_error (h.error hw hfirst)
      · rcases bind_eq_error hdecode with hrest | ⟨bs, -, hdecode⟩
        · refine (congrArg Prod.fst (Reading.run_bind_ok (h.ok hw hfirst))).trans ?_
          exact ih (h.ready hw b) hrest
        · cases hdecode

theorem follows_readMember (owner : Text) :
    Follows (readMember owner) (memberDeclaration owner) Workspace.declare where
  ready hw x := hw.declare x
  ok {v x w} hw hdecode := by
    obtain ⟨e, hentry, hx⟩ := exists_of_bind_eq_ok hdecode
    cases hx
    have hmember := hw.run_addItem ⟨some owner, e.name, e.kind, e.docs⟩
    exact (Reading.run_ofExcept_bind_ok hentry).trans (Reading.run_perform_ok hmember)
  error {v e w} hw hdecode := by
    rcases bind_eq_error hdecode with hentry | ⟨e, -, hx⟩
    · exact Reading.run_ofExcept_bind_error hentry
    · cases hx

theorem follows_readItem : Follows readItem itemDeclarations Workspace.declareAll where
  ready hw E := hw.declareAll E
  ok {v E w} hw hdecode := by
    obtain ⟨e, hentry, hdecode⟩ := exists_of_bind_eq_ok hdecode
    obtain ⟨members, hmembers, hE⟩ := exists_of_bind_eq_ok hdecode
    cases hE
    have hexport := Reading.run_perform_ok (hw.run_addItem ⟨none, e.name, e.kind, e.docs⟩)
    refine (Reading.run_ofExcept_bind_ok hentry).trans ((Reading.run_bind_ok hexport).trans ?_)
    exact (follows_readMember e.name).forM.ok (hw.declare _) hmembers
  error {v e w} hw hdecode := by
    rcases bind_eq_error hdecode with hentry | ⟨e, hentry, hdecode⟩
    · exact Reading.run_ofExcept_bind_error hentry
    · rcases bind_eq_error hdecode with hmembers | ⟨members, -, hE⟩
      · have hexport := Reading.run_perform_ok (hw.run_addItem ⟨none, e.name, e.kind, e.docs⟩)
        refine (congrArg Prod.fst ((Reading.run_ofExcept_bind_ok hentry).trans
          (Reading.run_bind_ok hexport))).trans ?_
        exact (follows_readMember e.name).forM.error (hw.declare _) hmembers
      · cases hE

/-- Reading a manifest in a known package declares what stands in it. -/
theorem read_of_ready {config : Config} {manifest : OrderedMap Json} {base : Workspace}
    (hbase : workspace config manifest = .ok base) (hready : base.Ready) {E : List Declaration}
    (hE : declarations manifest = .ok E) :
    read config manifest = (.ok (), some (base.declareAll E)) := by
  obtain ⟨items, hitems, hdecode⟩ := exists_of_bind_eq_ok hE
  obtain ⟨groups, hgroups, hflatten⟩ := exists_of_bind_eq_ok hdecode
  cases hflatten
  have hrun := (Reading.run_ofExcept_bind_ok (w := base) (f := fun items => items.forM readItem)
    hitems).trans (follows_readItem.forM.ok hready hgroups)
  have hdeclare : base.declareAll groups.flatten = groups.foldl Workspace.declareAll base :=
    List.foldl_flatten
  unfold read
  rw [hbase, hdeclare]
  exact congrArg (fun result : Except Failure Unit × Workspace => (result.1, some result.2)) hrun

/-- A manifest that is not ill-formed declares something. -/
theorem exists_declarations {config : Config} {manifest : OrderedMap Json} {base : Workspace}
    (hbase : workspace config manifest = .ok base) (hready : base.Ready)
    (hwell : ∀ e, (read config manifest).1 ≠ .error (.malformed e)) :
    ∃ E, declarations manifest = .ok E := by
  cases hE : declarations manifest with
  | ok E => exact ⟨E, rfl⟩
  | error e =>
    refine absurd ?_ (hwell e)
    unfold read
    rw [hbase]
    rcases bind_eq_error hE with hitems | ⟨items, hitems, hdecode⟩
    · exact Reading.run_ofExcept_bind_error hitems
    · rcases bind_eq_error hdecode with hgroups | ⟨groups, -, hflatten⟩
      · refine (congrArg Prod.fst (Reading.run_ofExcept_bind_ok hitems)).trans ?_
        exact follows_readItem.forM.error hready hgroups
      · cases hflatten

/-! ## Reading that ended well -/

theorem Reading.exists_of_run_bind {x : Reading α} {f : α → Reading β} {b : β} {w₂ : Workspace}
    (h : (x >>= f).run w = (.ok b, w₂)) :
    ∃ a w₁, x.run w = (.ok a, w₁) ∧ (f a).run w₁ = (.ok b, w₂) := by
  rcases hx : x.run w with ⟨failure | a, w₁⟩
  · have herror := Reading.run_bind_error (f := f) (congrArg Prod.fst hx)
    rw [h] at herror
    cases herror
  · exact ⟨a, w₁, rfl, (Reading.run_bind_ok hx).symm.trans h⟩

theorem Reading.of_run_ofExcept {x : Except Error α} {a : α}
    (h : (Reading.ofExcept x).run w = (.ok a, w₁)) : x = .ok a ∧ w₁ = w := by
  cases x with
  | ok b =>
    cases h
    exact ⟨rfl, rfl⟩
  | error e => cases h

theorem Reading.of_run_perform {action : Action α} {a : α}
    (h : (Reading.perform action).run w = (.ok a, w₁)) : action.run w = (.ok a, w₁) := by
  rw [Reading.run_perform] at h
  rcases hrun : action.run w with ⟨i | b, w₂⟩ <;> rw [hrun] at h
  · cases h
  · cases h
    rfl

/-- Some steps one after the other. -/
inductive Steps (step : β → Workspace → Workspace → Prop) : List β → Workspace → Workspace → Prop
  | nil {w : Workspace} : Steps step [] w w
  | cons {b : β} {bs : List β} {w w₁ w₂ : Workspace} (hfirst : step b w w₁)
      (hrest : Steps step bs w₁ w₂) : Steps step (b :: bs) w w₂

/-- If the reading of a list ended well, every entry was decoded, and the steps were taken in their
order. -/
theorem exists_steps_of_forM {reader : α → Reading Unit} {decodes : α → β → Prop}
    {step : β → Workspace → Workspace → Prop}
    (h : ∀ a {w w₁}, (reader a).run w = (.ok (), w₁) → ∃ b, decodes a b ∧ step b w w₁)
    {as : List α} (hrun : (as.forM reader).run w = (.ok (), w₁)) :
    ∃ bs, List.Forall₂ decodes as bs ∧ Steps step bs w w₁ := by
  induction as generalizing w with
  | nil =>
    cases hrun
    exact ⟨[], .nil, .nil⟩
  | cons a as ih =>
    obtain ⟨⟨⟩, w₂, hfirst, hrest⟩ := Reading.exists_of_run_bind (f := fun _ => as.forM reader) hrun
    obtain ⟨b, hdecodes, hstep⟩ := h a hfirst
    obtain ⟨bs, hdecoded, hsteps⟩ := ih hrest
    exact ⟨b :: bs, .cons hdecodes hdecoded, .cons hstep hsteps⟩

/-- A declaration is added. -/
def Adds (x : Declaration) (w w₁ : Workspace) : Prop :=
  (Action.addItem x.path x.name x.kind x.comment).run w = (.ok (), w₁)

theorem exists_adds_of_readMember (owner : Text) (v : Json) {w w₁ : Workspace}
    (h : (readMember owner v).run w = (.ok (), w₁)) :
    ∃ x, memberDeclaration owner v = .ok x ∧ Adds x w w₁ := by
  obtain ⟨e, w₂, hread, hadd⟩ := Reading.exists_of_run_bind h
  obtain ⟨hentry, rfl⟩ := Reading.of_run_ofExcept hread
  refine ⟨⟨some owner, e.name, e.kind, e.docs⟩, ?_, Reading.of_run_perform hadd⟩
  rw [memberDeclaration, hentry]
  rfl

end

end Manifest

end ApiDoc
