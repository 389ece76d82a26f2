import ApiDoc.Proofs.Inheritance.Visiting
import ApiDoc.Proofs.Text.Blank

/-!
# What requests to inherit mean

What a documentation inherits, as a recursion over the inheritance graph: each request changes the
fields by what its target shows in the end (`Workspace.meaning`), and the requests of a comment do
so in their order, from the fields as the comment has them. Main statement:
`Action.perform_inherits_meaning`, for every documentation from which no cycle is reached the
completion computes this, in whatever order the package is completed.

The invariant says which requests were met so far and what they came to (`Inherited`). It lasts
since the targets of these requests are completed, so that what they show is final.
-/

namespace ApiDoc

open Workspace

/-- The fields of a documentation that requests to inherit change. -/
structure Inheritable where
  /-- The summary. -/
  summary : Block
  /-- The remarks. -/
  remarks : Block
  /-- The descriptions of the parameters, by name. -/
  parameters : OrderedMap Block
  /-- The description of the returned value. -/
  returnsMessage : Block
  /-- Whether something was inherited from a deprecated item. -/
  isInheritedDeprecated : Bool
  deriving DecidableEq, Repr

/-- The fields of a documentation that requests to inherit change. -/
def Documentation.inheritable (d : Documentation) : Inheritable where
  summary := d.content.summary
  remarks := d.content.remarks
  parameters := d.content.parameters
  returnsMessage := d.content.returnsMessage
  isInheritedDeprecated := d.isInheritedDeprecated

/-- The fields after a copy from an item: the summary and the remarks are replaced, and what is said
of the parameters and the returned value if the item is a function, a method or a constructor. -/
def Inheritable.take (source : ResolvedItem) (i : Inheritable) : Inheritable where
  summary := source.content.summary.detach
  remarks := source.content.remarks.detach
  parameters :=
    if source.kind ∈ [ItemKind.function, .method, .constructor] then
      OrderedMap.mapValues Block.detach source.content.parameters
    else i.parameters
  returnsMessage :=
    if source.kind ∈ [ItemKind.function, .method, .constructor] then
      source.content.returnsMessage.detach
    else i.returnsMessage
  isInheritedDeprecated := i.isInheritedDeprecated || !source.content.deprecatedMessage.isEmpty

namespace Workspace

/-- What a request makes of the fields, in a workspace that shows its target as it is in the end. -/
def meaning (w : Workspace) (i : Inheritable) (content : Text) : Inheritable :=
  if Text.hasBlank content then i
  else
    match Reference.parse content with
    | .error _ => i
    | .ok key =>
      match w.lookUp key with
      | .missing _ => { i with summary := [.text ("See documentation for ".toList ++ content)] }
      | .found target => i.take (w.view target)

/-- No cycle is reached from a documentation. -/
def Acyclic (w : Workspace) (d : DocId) : Prop :=
  ∀ e edges, w.IsCycle (e :: edges) → ¬ w.Reaches d e.source

/-- Some requests of a documentation were met in the completion of `w₀` up to `w`: their targets are
completed, and the fields are what they mean. -/
structure Inherited (w₀ w : Workspace) (met : List Text) (id : DocId) : Prop where
  targets : ∀ content ∈ met, ∀ kind source, w₀.lead content = .own kind source →
    (w.document source).state = .done
  fields : (w.document id).inheritable =
    met.foldl w.meaning ((w₀.document id).settleLinks w₀.verdict).inheritable

end Workspace

/-! ## One request -/

theorem Element.ofText_pointer {content : Text} (h : Text.hasBlank content = false) :
    Element.ofText ("See documentation for ".toList ++ content) =
      [.text ("See documentation for ".toList ++ content)] := by
  have hcollapse : Text.collapse ("See documentation for ".toList ++ content) =
      "See documentation for ".toList ++ Text.collapseFrom true content := rfl
  rw [Text.collapseFrom_eq_self h] at hcollapse
  exact congrArg (fun t => [Element.text t]) hcollapse

section
variable {w₀ w w₁ : Workspace} {id source : DocId} {kind : ItemKind} {content : Text}
  {met rest : List Text} {i : Inheritable} {d : Documentation}

theorem Documentation.inheritable_inherit (item : ResolvedItem) (d : Documentation) :
    (d.inherit item).inheritable = d.inheritable.take item := by
  have hdeprecated : item.content.detach.deprecatedMessage.isEmpty =
      item.content.deprecatedMessage.isEmpty := List.isEmpty_map
  unfold Documentation.inherit Inheritable.take Documentation.inheritable
  simp only [hdeprecated]
  cases item.kind <;> rfl

theorem Documentation.inheritable_settleLinks_withState (verdict : ItemKey → LinkStatus)
    (state : CompletionState) (d : Documentation) :
    ((d.withState state).settleLinks verdict).inheritable =
      (d.settleLinks verdict).inheritable := by
  simp only [Documentation.settleLinks, Documentation.settleAll_eq]
  rfl

theorem Documentation.inheritable_conclude (enforced : Bool) (d : Documentation) :
    (d.conclude enforced).inheritable = d.inheritable := by
  unfold Documentation.conclude Documentation.reportIf
  split <;> rfl

/-- What a request means, in terms of what it amounts to. -/
theorem Workspace.meaning_eq (w : Workspace) (i : Inheritable) (content : Text) :
    w.meaning i content =
      match w.lead content with
      | .blank | .malformed _ => i
      | .nowhere _ => { i with summary := [.text ("See documentation for ".toList ++ content)] }
      | .external item => i.take item
      | .own kind source => i.take (w.view (.own kind source)) := by
  have hspec := w.lead_spec content
  unfold Workspace.meaning
  cases hlead : w.lead content with
  | blank =>
    rw [hlead] at hspec
    rw [if_pos hspec]
  | malformed e =>
    rw [hlead] at hspec
    simp [hspec.1, hspec.2]
  | nowhere warning | external item | own kind source =>
    rw [hlead] at hspec
    obtain ⟨hblank, key, hparse, hlookUp⟩ := hspec
    simp [hblank, hparse, hlookUp, view]

theorem Workspace.meaning_own (h : w.lead content = .own kind source) :
    w.meaning i content = i.take (w.view (.own kind source)) := by
  rw [meaning_eq, h]

/-- A request that does not lead to the package is answered with what it means. -/
theorem Documentation.inheritable_answer
    (hown : ∀ kind source, w.lead content ≠ .own kind source) :
    (d.answer content (w.lead content)).inheritable = w.meaning d.inheritable content := by
  rw [w.meaning_eq]
  cases hlead : w.lead content with
  | blank | malformed e => rfl
  | external item => exact d.inheritable_inherit item
  | own kind source => exact absurd hlead (hown kind source)
  | nowhere warning =>
    have hspec := w.lead_spec content
    rw [hlead] at hspec
    have hpointer := Element.ofText_pointer hspec.1
    exact congrArg (fun summary => { d.inheritable with summary }) hpointer

/-- A request means the same later on if its target is completed. -/
theorem Workspace.Preserves.meaning (h : w.Preserves w₁)
    (htarget : ∀ kind source, w.lead content = .own kind source →
      (w.document source).state = .done) : w₁.meaning i content = w.meaning i content := by
  rw [w.meaning_eq, w₁.meaning_eq, h.evolves.lead]
  cases hlead : w.lead content with
  | blank | malformed | nowhere | external => rfl
  | own kind source => simp only [view, h.done source (htarget kind source hlead)]

/-! ## Several requests -/

namespace Workspace.Inherited

/-- The requests that were met mean the same later on. -/
theorem foldl_meaning (h : w₀.Inherited w met id) (hw : w₀.Evolves w)
    (hpreserves : w.Preserves w₁) (i : Inheritable) :
    met.foldl w₁.meaning i = met.foldl w.meaning i := by
  refine List.foldl_rel (r := Eq) rfl fun content hmem i i' heq => ?_
  rw [heq]
  refine hpreserves.meaning fun kind source hlead => ?_
  exact h.targets content hmem kind source (hw.lead content ▸ hlead)

/-- What the requests came to stays so while the fields stay as they are. -/
theorem later (h : w₀.Inherited w met id) (hw : w₀.Evolves w) (hpreserves : w.Preserves w₁)
    (hfields : (w₁.document id).inheritable = (w.document id).inheritable) :
    w₀.Inherited w₁ met id where
  targets content hmem kind source hlead :=
    hpreserves.state_done (h.targets content hmem kind source hlead)
  fields := by rw [hfields, h.fields, h.foldl_meaning hw hpreserves]

/-- One more request is met. -/
theorem step (h : w₀.Inherited w met id) (hw : w₀.Evolves w) (hpreserves : w.Preserves w₁)
    (htarget : ∀ kind source, w₀.lead content = .own kind source →
      (w₁.document source).state = .done)
    (hfields : (w₁.document id).inheritable = w₁.meaning (w.document id).inheritable content) :
    w₀.Inherited w₁ (met ++ [content]) id where
  targets content' hmem kind source hlead := by
    rcases List.mem_append.1 hmem with hmem | hmem
    · exact hpreserves.state_done (h.targets content' hmem kind source hlead)
    · rw [List.mem_singleton.1 hmem] at hlead
      exact htarget kind source hlead
  fields := by
    rw [List.foldl_append, h.foldl_meaning hw hpreserves, ← h.fields, hfields]
    rfl

end Workspace.Inherited

/-! ## Acyclic documentations -/

theorem Workspace.Acyclic.target {e : Edge} (h : w.Acyclic e.source) (he : w.Inherits e) :
    w.Acyclic e.target := by
  intro e₁ edges hcycle hreaches
  obtain ⟨edges₁, hwalk⟩ := hreaches
  exact h e₁ edges hcycle ⟨e :: edges₁, .cons he hwalk⟩

/-- If every request leads to a documentation of a lower rank, no cycle is reached. -/
theorem Workspace.acyclic_of_rank (rank : DocId → Nat)
    (hrank : ∀ e, w.Inherits e → rank e.target < rank e.source) (d : DocId) : w.Acyclic d := by
  have hwalk : ∀ {a edges b}, w.Walk a edges b → rank b ≤ rank a := by
    intro a edges b h
    induction h with
    | nil => exact Nat.le_refl _
    | cons hedge _ ih => exact Nat.le_trans ih (Nat.le_of_lt (hrank _ hedge))
  intro e edges hcycle _
  obtain ⟨a, hclosed⟩ := hcycle.closed
  cases hclosed with
  | cons hedge hrest => exact absurd (hwalk hrest) (Nat.not_le.2 (hrank e hedge))

/-- On an acyclic documentation no request is circular. -/
theorem Visiting.not_own (h : Visiting w₀ w (.drain id)) (hacyclic : w₀.Acyclic id)
    (hpending : (w.document id).pendingInheritDocs = content :: rest)
    (hnow : w.AnswersNow content) (kind : ItemKind) (source : DocId) :
    w.lead content ≠ .own kind source := by
  intro hlead
  obtain ⟨edges, hcycle⟩ := h.exists_cycle hpending hlead (hnow kind source hlead)
  exact hacyclic _ edges hcycle (.refl id)

/-! ## The invariant -/

/-- The requests that are gone from the queue of an acyclic documentation were met. -/
def Workspace.MetInOrder (w₀ w : Workspace) (id : DocId) : Prop :=
  w₀.Acyclic id → ∃ met, w₀.Inherited w met id ∧
    (w₀.document id).pendingInheritDocs = met ++ (w.document id).pendingInheritDocs

/-- All requests of an acyclic documentation were met. -/
def Workspace.MetAll (w₀ w : Workspace) (id : DocId) : Prop :=
  w₀.Acyclic id → w₀.Inherited w (w₀.document id).pendingInheritDocs id

/-- The first request in the queue is met. -/
theorem Workspace.MetInOrder.step (h : w₀.MetInOrder w id) (hw : w₀.Evolves w)
    (hpreserves : w.Preserves w₁)
    (hpending : (w.document id).pendingInheritDocs = content :: rest)
    (hrest : (w₁.document id).pendingInheritDocs = rest)
    (htarget : ∀ kind source, w₀.lead content = .own kind source →
      (w₁.document source).state = .done)
    (hfields : (w₁.document id).inheritable = w₁.meaning (w.document id).inheritable content) :
    w₀.MetInOrder w₁ id := by
  intro hacyclic
  obtain ⟨met, hinherited, hqueue⟩ := h hacyclic
  refine ⟨met ++ [content], hinherited.step hw hpreserves htarget hfields, ?_⟩
  rw [hqueue, hpending, hrest, List.append_assoc]
  rfl

/-- All through a completion, the fields of a documentation are what its requests mean. -/
theorem inherited_invariant (w₀ : Workspace) : Invariant w₀ w₀.MetInOrder w₀.MetAll where
  outside {w d} hw hd := by
    intro _
    rw [document_of_size_le hd]
    refine ⟨nofun, ?_⟩
    rw [document_of_size_le hd, document_of_size_le (hw.size ▸ hd)]
    rfl
  begin {w id} hv hstate := by
    intro _
    refine ⟨[], ⟨nofun, ?_⟩, ?_⟩
    · rw [Visiting.document_begun hstate, hv.untouched id hstate, hv.evolves.verdict]
      exact Documentation.inheritable_settleLinks_withState ..
    · rw [pendingInheritDocs_begun, hv.untouched id hstate]
      rfl
  answer {w id content rest} hv hpending hnow hbegun := by
    intro hacyclic
    have hown := hv.not_own hacyclic hpending hnow
    have hpreserves := (preserves_popped hv.inProgress).trans
      (preserves_answered hv.popped.inProgress content)
    refine hbegun.step hv.evolves hpreserves hpending ?_ ?_ ?_ hacyclic
    · rw [pendingInheritDocs_answered, pendingInheritDocs_popped hpending]
    · intro kind source hlead
      exact absurd (hv.evolves.lead content ▸ hlead) (hown kind source)
    · rw [hv.document_answered, hpreserves.meaning fun kind source hlead =>
        absurd hlead (hown kind source)]
      exact Documentation.inheritable_answer hown
  inherit {w w₁ id content rest kind source} hv hpending hlead hpreserves hsame hstate _
      hbegun := by
    have hactive : (w₁.document id).state = .inProgress := by
      rw [hsame]
      exact hv.popped.inProgress
    have hlater := (preserves_popped hv.inProgress).trans hpreserves
    have hcopied := preserves_copied hactive kind source
    refine hbegun.step hv.evolves (hlater.trans hcopied) hpending ?_ ?_ ?_
    · rw [pendingInheritDocs_copied, hsame, pendingInheritDocs_popped hpending]
    · intro kind' source' hlead'
      rw [← hv.evolves.lead, hlead] at hlead'
      cases hlead'
      exact hcopied.state_done hstate
    · have hlead₁ : w₁.lead content = .own kind source := hlater.evolves.lead content ▸ hlead
      rw [hv.document_copied hsame, Documentation.inheritable_inherit, hcopied.meaning
        fun kind' source' hlead' => ?_, meaning_own hlead₁]
      · rfl
      · rw [hlead₁] at hlead'
        cases hlead'
        exact hstate
  conclude {w id} hv hpending hbegun := by
    intro hacyclic
    obtain ⟨met, hinherited, hqueue⟩ := hbegun hacyclic
    rw [hpending, List.append_nil] at hqueue
    rw [hqueue]
    refine hinherited.later hv.evolves (preserves_concluded hv.inProgress) ?_
    rw [hv.document_concluded]
    exact Documentation.inheritable_conclude ..
  stable {w w₁ d} hw hpreserves hstate hdone := by
    intro hacyclic
    exact (hdone hacyclic).later hw hpreserves (by rw [hpreserves.done d hstate])

/-- Everything that a completed acyclic documentation inherits from is completed. -/
theorem done_of_reaches (hall : Invariant.AllDone w₀.MetAll w) {d b : DocId}
    (hd : (w.document d).state = .done) (hacyclic : w₀.Acyclic d) (hreaches : w₀.Reaches d b) :
    (w.document b).state = .done := by
  obtain ⟨edges, hwalk⟩ := hreaches
  induction hwalk with
  | nil => exact hd
  | @cons e _ _ hedge _ ih =>
    obtain ⟨hqueued, kind, hlead⟩ := inherits_iff.1 hedge
    exact ih ((hall e.source hd hacyclic).targets e.content hqueued kind e.target hlead)
      (hacyclic.target hedge)

end

/-- After calls to complete, every documentation that they name is completed. If no cycle is reached
from a completed one, everything that it inherits from is completed as well, and its fields are what
its requests mean, one after the other, from the fields of the comment with the links looked up. -/
theorem Action.perform_inherits_meaning (w : Workspace) (hw : w.Fresh) (hq : w.Quiet)
    (calls : List Call) :
    ∃ w₁, (perform calls).run w = (.ok (), w₁) ∧
      (∀ d ∈ w.named calls, (w₁.document d).state = .done) ∧
      ∀ d, (w₁.document d).state = .done → w.Acyclic d →
        (∀ b, w.Reaches d b → (w₁.document b).state = .done) ∧
        (w₁.document d).inheritable =
          (w.document d).pendingInheritDocs.foldl w₁.meaning
            ((w.document d).settleLinks w.verdict).inheritable := by
  obtain ⟨w₁, hrun, hcompletes⟩ := run_perform hq calls
  have hall := (inherited_invariant w).of_fresh hw hcompletes
  refine ⟨w₁, hrun, fun d hd => hcompletes.done_of_mem hw hd, fun d hd hacyclic => ⟨?_, ?_⟩⟩
  · exact fun b hreaches => done_of_reaches hall hd hacyclic hreaches
  · exact (hall d hd hacyclic).fields

/-- A function that inherits from another, whose own request leads nowhere. -/
def Workspace.chain : Workspace where
  package := {
    name := some "p".toList
    exports := [("f".toList, .mk "f".toList .function 0 []),
      ("g".toList, .mk "g".toList .function 1 [])] }
  identity := none
  config := {}
  documents := #[{ pendingInheritDocs := ["g".toList] }, { pendingInheritDocs := ["h".toList] }]

theorem Workspace.acyclic_chain (d : DocId) : chain.Acyclic d := by
  refine acyclic_of_rank (2 - ·) (fun e hedge => ?_) d
  obtain ⟨hqueued, kind, hlead⟩ := inherits_iff.1 hedge
  obtain ⟨source, content, target⟩ := e
  match source, hqueued with
  | 0, hqueued =>
    cases List.mem_singleton.1 hqueued
    have htarget : chain.lead "g".toList = .own .function 1 := by decide
    cases htarget.symm.trans hlead
    decide
  | 1, hqueued =>
    cases List.mem_singleton.1 hqueued
    have hnowhere : chain.lead "h".toList = .nowhere none := by decide
    cases hnowhere.symm.trans hlead

theorem Action.perform_chain_inherits_meaning : chain.Fresh ∧ chain.Quiet ∧ chain.Acyclic 0 ∧
    ∃ w₁, (perform [.item 0]).run chain = (.ok (), w₁) ∧ (w₁.document 1).state = .done ∧
      (w₁.document 0).inheritable = ["g".toList].foldl w₁.meaning
        ((chain.document 0).settleLinks chain.verdict).inheritable := by
  have hedge : chain.Inherits (Edge.mk 0 "g".toList 1) :=
    inherits_iff.2 ⟨by decide, .function, by decide⟩
  obtain ⟨w₁, hrun, hnamed, hdone⟩ :=
    perform_inherits_meaning chain (by decide) (by decide) [.item 0]
  obtain ⟨hreached, hfields⟩ := hdone 0 (hnamed 0 (by decide)) (acyclic_chain 0)
  exact ⟨by decide, by decide, acyclic_chain 0, w₁, hrun,
    hreached 1 ⟨[_], .cons hedge .nil⟩, hfields⟩

end ApiDoc
