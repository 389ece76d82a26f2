import ApiDoc.Proofs.Completion.Calls
import ApiDoc.Proofs.OrderedMap

/-!
# The inheritance graph

A package's documentations are the nodes of a graph; a request to inherit that leads to another
documentation of the package is an edge (`Workspace.Inherits`). A walk follows such requests
(`Workspace.Walk`); with a walk there is one that passes through no documentation twice
(`Workspace.Walk.exists_simple`), and so a request whose target leads back to it lies on a cycle
(`Workspace.Inherits.exists_cycle`).
-/

namespace ApiDoc

theorem Package.mem_items_of_find? {package : Package} {exportName memberName : Text} {item : Item}
    (h : package.find? exportName memberName = some item) : item ∈ package.items := by
  unfold Package.find? at h
  obtain ⟨owner, howner, h⟩ := Option.bind_eq_some_iff.1 h
  refine List.mem_flatMap.2 ⟨owner, OrderedMap.mem_values_of_find? howner, ?_⟩
  split at h
  · cases h
    exact List.mem_cons_self
  · exact List.mem_cons_of_mem _ (OrderedMap.mem_values_of_find? h)

/-- A request to inherit between two documentations. -/
structure Edge where
  /-- The documentation whose comment has the request. -/
  source : DocId
  /-- The content of the request. -/
  content : Text
  /-- The documentation that it leads to. -/
  target : DocId
  deriving DecidableEq, Repr

namespace Workspace

/-- A request is queued and leads to a documentation of the package: it holds no blank, is a
reference, and the reference resolves. -/
structure Inherits (w : Workspace) (e : Edge) : Prop where
  queued : e.content ∈ (w.document e.source).pendingInheritDocs
  noBlank : Text.hasBlank e.content = false
  resolves : ∃ key kind, Reference.parse e.content = .ok key ∧
    w.lookUp key = .found (.own kind e.target)

/-- Requests one after the other, each from the documentation that the one before leads to. -/
inductive Walk (w : Workspace) : DocId → List Edge → DocId → Prop
  | nil {a : DocId} : Walk w a [] a
  | cons {e : Edge} {edges : List Edge} {b : DocId} (hedge : w.Inherits e)
      (hrest : Walk w e.target edges b) : Walk w e.source (e :: edges) b

/-- A walk leads from one documentation to another. -/
def Reaches (w : Workspace) (a b : DocId) : Prop :=
  ∃ edges, w.Walk a edges b

/-- A closed walk that passes through no documentation twice. -/
structure IsCycle (w : Workspace) (edges : List Edge) : Prop where
  nonempty : edges ≠ []
  closed : ∃ a, w.Walk a edges a
  simple : (edges.map Edge.source).Nodup

section
variable {w : Workspace} {a b c : DocId} {content : Text} {edges edges₁ : List Edge}

/-- Where a request leads, in terms of what it amounts to. -/
theorem lead_eq_own_iff {kind : ItemKind} :
    w.lead content = .own kind b ↔ Text.hasBlank content = false ∧
      ∃ key, Reference.parse content = .ok key ∧ w.lookUp key = .found (.own kind b) := by
  constructor
  · intro h
    have hspec := w.lead_spec content
    rwa [h] at hspec
  · rintro ⟨hblank, key, hparse, hlookUp⟩
    simp [lead, hblank, hparse, hlookUp]

theorem inherits_iff {e : Edge} : w.Inherits e ↔
    e.content ∈ (w.document e.source).pendingInheritDocs ∧
      ∃ kind, w.lead e.content = .own kind e.target := by
  constructor
  · rintro ⟨hqueued, hblank, key, kind, hparse, hlookUp⟩
    exact ⟨hqueued, kind, lead_eq_own_iff.2 ⟨hblank, key, hparse, hlookUp⟩⟩
  · rintro ⟨hqueued, kind, hlead⟩
    obtain ⟨hblank, key, hparse, hlookUp⟩ := lead_eq_own_iff.1 hlead
    exact ⟨hqueued, hblank, key, kind, hparse, hlookUp⟩

/-- A request that leads to a documentation of the package leads to that of an item. -/
theorem exists_item_of_lead {kind : ItemKind} (h : w.lead content = .own kind b) :
    ∃ item ∈ w.package.items, item.doc = b := by
  obtain ⟨-, key, -, hlookUp⟩ := lead_eq_own_iff.1 h
  unfold lookUp at hlookUp
  split at hlookUp
  · split at hlookUp
    · next item hfind =>
      injection hlookUp with htarget
      injection htarget with _ hdoc
      exact ⟨item, Package.mem_items_of_find? hfind, hdoc⟩
    · cases hlookUp
  · split at hlookUp
    · cases hlookUp
    · split at hlookUp <;> cases hlookUp

/-- A request that leads to another package leads to an item that is known of it. -/
theorem exists_items_of_lead {item : ResolvedItem} (h : w.lead content = .external item) :
    ∃ items ∈ OrderedMap.values w.external, item ∈ OrderedMap.values items := by
  have hspec := w.lead_spec content
  rw [h] at hspec
  obtain ⟨-, key, -, hlookUp⟩ := hspec
  unfold lookUp at hlookUp
  split at hlookUp
  · split at hlookUp <;> cases hlookUp
  · split at hlookUp
    · cases hlookUp
    · next items hitems =>
      split at hlookUp
      · next found hfound =>
        cases hlookUp
        exact ⟨items, OrderedMap.mem_values_of_find? hitems, OrderedMap.mem_values_of_find? hfound⟩
      · cases hlookUp

theorem Inherits.exists_item {e : Edge} (h : w.Inherits e) :
    ∃ item ∈ w.package.items, item.doc = e.target := by
  obtain ⟨-, kind, hlead⟩ := inherits_iff.1 h
  exact exists_item_of_lead hlead

namespace Walk

theorem append (h : w.Walk a edges b) (h₁ : w.Walk b edges₁ c) : w.Walk a (edges ++ edges₁) c := by
  induction h with
  | nil => exact h₁
  | cons hedge _ ih => exact .cons hedge (ih h₁)

/-- A walk goes on from every documentation that it passes through. -/
theorem exists_suffix (h : w.Walk a edges b) (hc : c ∈ edges.map Edge.source) :
    ∃ rest, w.Walk c rest b ∧ rest <:+ edges := by
  induction h with
  | nil => cases hc
  | @cons e edges b hedge hrest ih =>
    rcases List.mem_cons.1 hc with rfl | hc
    · exact ⟨_, .cons hedge hrest, List.suffix_rfl⟩
    · obtain ⟨rest, hwalk, hsuffix⟩ := ih hc
      exact ⟨rest, hwalk, hsuffix.trans (List.suffix_cons ..)⟩

/-- With a walk there is one that passes through no documentation twice. -/
theorem exists_simple (h : w.Walk a edges b) :
    ∃ edges₁, w.Walk a edges₁ b ∧ (edges₁.map Edge.source ++ [b]).Nodup := by
  induction h with
  | nil => exact ⟨[], .nil, by simp⟩
  | @cons e edges b hedge _ ih =>
    obtain ⟨rest, hwalk, hnodup⟩ := ih
    by_cases hmem : e.source ∈ rest.map Edge.source ++ [b]
    · -- the walk comes back to where it starts: what lies between is left out
      rcases List.mem_append.1 hmem with hmem | hmem
      · obtain ⟨rest₁, hwalk₁, hsuffix⟩ := hwalk.exists_suffix hmem
        refine ⟨rest₁, hwalk₁, hnodup.sublist ?_⟩
        exact (hsuffix.map Edge.source).sublist.append (List.Sublist.refl _)
      · rw [List.mem_singleton.1 hmem]
        exact ⟨[], .nil, by simp⟩
    · refine ⟨e :: rest, .cons hedge hwalk, ?_⟩
      rw [List.map_cons, List.cons_append]
      exact List.nodup_cons.2 ⟨hmem, hnodup⟩

end Walk

/-- A request whose target leads back to it lies on a cycle. -/
theorem Inherits.exists_cycle {e : Edge} (he : w.Inherits e) (hback : w.Reaches e.target e.source) :
    ∃ edges, w.IsCycle (e :: edges) := by
  obtain ⟨_, hwalk⟩ := hback
  obtain ⟨edges, hwalk, hnodup⟩ := hwalk.exists_simple
  refine ⟨edges, List.cons_ne_nil _ _, ⟨e.source, .cons he hwalk⟩, ?_⟩
  rw [List.map_cons]
  exact (List.perm_append_singleton _ _).nodup_iff.1 hnodup

theorem Reaches.refl (a : DocId) : w.Reaches a a :=
  ⟨[], .nil⟩

theorem Reaches.tail {e : Edge} (h : w.Reaches a e.source) (he : w.Inherits e) :
    w.Reaches a e.target := by
  obtain ⟨edges, hwalk⟩ := h
  exact ⟨edges ++ [e], hwalk.append (.cons he .nil)⟩

end

end Workspace

end ApiDoc
