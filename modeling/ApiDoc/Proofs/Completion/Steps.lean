import ApiDoc.Proofs.Completion.Links

/-!
# The steps of a completion

What one piece of work does while the listener does not fail: it begins a documentation and looks
its links up (`Workspace.begun`), answers a request to inherit on the spot (`Workspace.answered`),
copies from a documentation (`Workspace.copied`), or ends the work (`Workspace.concluded`). What a
request amounts to depends on the setting only (`Lead`, `Workspace.lead`); a request that leads to a
documentation of the package is answered on the spot only if that one is in progress, since then the
request is circular.
-/

namespace ApiDoc

/-- What a request to inherit amounts to. -/
inductive Lead where
  /-- It holds a blank. -/
  | blank
  /-- It is no reference. -/
  | malformed (e : Reference.Error)
  /-- It leads nowhere, and there may be a warning about that. -/
  | nowhere (warning : Option Warning)
  /-- It leads to an item of another package. -/
  | external (item : ResolvedItem)
  /-- It leads to an item of the package, by its kind and its documentation. -/
  | own (kind : ItemKind) (doc : DocId)
  deriving DecidableEq, Repr

/-- What is reported when a request is answered on the spot. -/
def Lead.problems (content : Text) : Lead → List Problem
  | .blank => [.blankInInheritDoc]
  | .malformed e => [.inheritDocReference e, .malformedInheritDoc content]
  | .nowhere _ => []
  | .external _ => []
  | .own _ _ => [.circularInheritDoc content]

namespace Documentation

/-- The documentation after a request was answered on the spot; one that leads to an item of the
package is circular. -/
def answer (content : Text) : Lead → Documentation → Documentation
  | .blank, d => d.report .blankInInheritDoc
  | .malformed e, d => (d.report (.inheritDocReference e)).report (.malformedInheritDoc content)
  | .nowhere _, d => d.pointTo content
  | .external item, d => d.inherit item
  | .own _ _, d => d.report (.circularInheritDoc content)

/-- The documentation after the end of its completion. -/
def conclude (enforced : Bool) (d : Documentation) : Documentation :=
  (d.reportIf (enforced && d.omitsDeprecation) .deprecationNotRestated).withState .done

variable (d : Documentation)

theorem Evolves.inherit (source : ResolvedItem) : d.Evolves (d.inherit source) :=
  { refl d with }

theorem Evolves.withState (state : CompletionState) : d.Evolves (d.withState state) :=
  { refl d with }

theorem Evolves.dropInheritDoc : d.Evolves d.dropInheritDoc :=
  { refl d with requests := List.tail_suffix _ }

theorem Evolves.answer (content : Text) (lead : Lead) : d.Evolves (d.answer content lead) := by
  cases lead with
  | blank => exact .report _ d
  | malformed e => exact (Evolves.report _ d).trans (.report _ _)
  | nowhere warning => exact { refl d with }
  | external item => exact .inherit d item
  | own kind doc => exact .report _ d

@[simp] theorem state_answer (content : Text) (lead : Lead) :
    (d.answer content lead).state = d.state := by
  cases lead <;> rfl

@[simp] theorem pendingInheritDocs_answer (content : Text) (lead : Lead) :
    (d.answer content lead).pendingInheritDocs = d.pendingInheritDocs := by
  cases lead <;> rfl

theorem problems_answer (content : Text) (lead : Lead) :
    (d.answer content lead).problems = d.problems ++ lead.problems content := by
  cases lead with
  | nowhere warning | external item => exact (List.append_nil _).symm
  | blank | own kind doc => rfl
  | malformed e => exact List.append_assoc _ _ _

theorem hasFailed_answer (content : Text) (lead : Lead) :
    (d.answer content lead).hasFailed = (d.hasFailed || !(lead.problems content).isEmpty) := by
  cases lead with
  | nowhere warning | external item => exact (Bool.or_false _).symm
  | blank | own kind doc | malformed e => exact (Bool.or_true _).symm

theorem links_answer (content : Text) (lead : Lead) :
    (d.answer content lead).pendingLinks = d.pendingLinks ∧
      (d.answer content lead).settledLinks = d.settledLinks := by
  cases lead <;> exact ⟨rfl, rfl⟩

theorem links_conclude (enforced : Bool) :
    (d.conclude enforced).pendingLinks = d.pendingLinks ∧
      (d.conclude enforced).settledLinks = d.settledLinks ∧
      (d.conclude enforced).pendingInheritDocs = d.pendingInheritDocs := by
  unfold Documentation.conclude Documentation.reportIf
  split <;> exact ⟨rfl, rfl, rfl⟩

theorem problems_conclude (enforced : Bool) : (d.conclude enforced).problems =
    d.problems ++ if enforced && d.omitsDeprecation then [.deprecationNotRestated] else [] := by
  unfold Documentation.conclude Documentation.reportIf
  split
  · rfl
  · exact (List.append_nil _).symm

theorem hasFailed_conclude (enforced : Bool) :
    (d.conclude enforced).hasFailed = (d.hasFailed || !(if enforced && d.omitsDeprecation then
      [Problem.deprecationNotRestated] else []).isEmpty) := by
  unfold Documentation.conclude Documentation.reportIf
  split
  · exact (Bool.or_true _).symm
  · exact (Bool.or_false _).symm

theorem Evolves.conclude (enforced : Bool) : d.Evolves (d.conclude enforced) :=
  (Evolves.reportIf _ _ d).trans (.withState _ _)

theorem Evolves.begin (verdict : ItemKey → LinkStatus) :
    d.Evolves ((d.withState .inProgress).settleLinks verdict) :=
  (Evolves.withState d _).trans (.settleAll _ _ _)

end Documentation

namespace Workspace

/-- What a request to inherit amounts to in a workspace. -/
def lead (w : Workspace) (content : Text) : Lead :=
  if Text.hasBlank content then .blank
  else
    match Reference.parse content with
    | .error e => .malformed e
    | .ok key =>
      match w.lookUp key with
      | .missing warning => .nowhere warning
      | .found (.external item) => .external item
      | .found (.own kind doc) => .own kind doc

/-- What a request amounts to says what was found about it. -/
theorem lead_spec (w : Workspace) (content : Text) :
    match w.lead content with
    | .blank => Text.hasBlank content = true
    | .malformed e => Text.hasBlank content = false ∧ Reference.parse content = .error e
    | .nowhere warning => Text.hasBlank content = false ∧
      ∃ key, Reference.parse content = .ok key ∧ w.lookUp key = .missing warning
    | .external item => Text.hasBlank content = false ∧
      ∃ key, Reference.parse content = .ok key ∧ w.lookUp key = .found (.external item)
    | .own kind doc => Text.hasBlank content = false ∧
      ∃ key, Reference.parse content = .ok key ∧ w.lookUp key = .found (.own kind doc) := by
  unfold lead
  cases hblank : Text.hasBlank content with
  | true => rfl
  | false =>
    simp only [Bool.false_eq_true, if_false]
    cases hparse : Reference.parse content with
    | error e => exact ⟨trivial, rfl⟩
    | ok key =>
      simp only
      cases hlookUp : w.lookUp key with
      | missing warning => exact ⟨trivial, key, rfl, hlookUp⟩
      | found target =>
        cases target with
        | external item => exact ⟨trivial, key, rfl, hlookUp⟩
        | own kind doc => exact ⟨trivial, key, rfl, hlookUp⟩

/-- The workspace after a documentation was begun and its links were looked up. -/
def begun (id : DocId) (w : Workspace) : Workspace :=
  (w.updateDocument id (Documentation.withState .inProgress)).linksLookedUp id

/-- The workspace after the first request of a documentation was taken off its queue. -/
def popped (id : DocId) (w : Workspace) : Workspace :=
  w.updateDocument id Documentation.dropInheritDoc

/-- The workspace after a request was answered on the spot. -/
def answered (id : DocId) (content : Text) (w : Workspace) : Workspace :=
  match w.lead content with
  | .blank => w.reported id .blankInInheritDoc
  | .malformed e =>
    (w.reported id (.inheritDocReference e)).reported id (.malformedInheritDoc content)
  | .nowhere warning => (w.warned warning).updateDocument id (Documentation.pointTo content)
  | .external item => w.updateDocument id (Documentation.inherit item)
  | .own _ _ =>
    (w.logged (.circular (w.document id).itemName content)).reported id
      (.circularInheritDoc content)

/-- The workspace after a documentation inherited from another. -/
def copied (id : DocId) (kind : ItemKind) (source : DocId) (w : Workspace) : Workspace :=
  w.updateDocument id (Documentation.inherit (w.view (.own kind source)))

/-- The workspace after the end of the work on a documentation. -/
def concluded (id : DocId) (w : Workspace) : Workspace :=
  let w₁ :=
    if w.config.enforceInheritedDeprecation && (w.document id).omitsDeprecation then
      w.reported id .deprecationNotRestated
    else w
  w₁.updateDocument id (Documentation.withState .done)

/-- A request is answered on the spot: if it leads to a documentation of the package, that one is
in progress. -/
def AnswersNow (w : Workspace) (content : Text) : Prop :=
  ∀ kind source, w.lead content = .own kind source → (w.document source).state = .inProgress

section
variable (w : Workspace) (id : DocId)

/-- A request is answered on the spot, or leads to a documentation that is not begun, or to one
that is completed. -/
theorem answersNow_or (content : Text) :
    w.AnswersNow content ∨ ∃ kind source, w.lead content = .own kind source ∧
      ((w.document source).state = .unvisited ∨ (w.document source).state = .done) := by
  cases hlead : w.lead content with
  | own kind source =>
    cases hstate : (w.document source).state with
    | unvisited => exact .inr ⟨kind, source, rfl, .inl hstate⟩
    | done => exact .inr ⟨kind, source, rfl, .inr hstate⟩
    | inProgress =>
      refine .inl fun kind' source' hlead' => ?_
      rw [hlead] at hlead'
      cases hlead'
      exact hstate
  | blank | malformed | nowhere | external =>
    refine .inl fun kind source hlead' => ?_
    rw [hlead] at hlead'
    cases hlead'

theorem Evolves.lead {w w₁ : Workspace} (h : w.Evolves w₁) (content : Text) :
    w₁.lead content = w.lead content := by
  unfold Workspace.lead
  simp only [h.lookUp]

theorem touches_begun :
    Touches id (fun d => (d.withState .inProgress).settleLinks w.verdict) w (w.begun id) := by
  have hbegin := touches_update id (Documentation.withState .inProgress) w
  have hlinks :=
    touches_linksLookedUp id (w.updateDocument id (Documentation.withState .inProgress))
  rw [(hbegin.evolves fun d => .withState d _).verdict] at hlinks
  exact hbegin.trans hlinks

theorem touches_popped : Touches id Documentation.dropInheritDoc w (w.popped id) :=
  touches_update id _ w

theorem touches_answered (content : Text) :
    Touches id (Documentation.answer content (w.lead content)) w (w.answered id content) := by
  unfold answered
  cases w.lead content with
  | blank => exact touches_reported id _ w
  | malformed e => exact (touches_reported id _ w).trans (touches_reported id _ _)
  | nowhere warning =>
    exact (touches_warned id warning w).trans (touches_update id (Documentation.pointTo content) _)
  | external item => exact touches_update id _ w
  | own kind source => exact (touches_logged id _ w).trans (touches_reported id _ _)

theorem touches_copied (kind : ItemKind) (source : DocId) :
    Touches id (Documentation.inherit (w.view (.own kind source))) w (w.copied id kind source) :=
  touches_update id _ w

theorem touches_concluded :
    Touches id (Documentation.conclude w.config.enforceInheritedDeprecation) w
      (w.concluded id) := by
  unfold concluded
  split
  · next homits =>
    refine ((touches_reported id _ w).trans (touches_update id _ _)).congr ?_
    simp only [Function.comp_apply, Documentation.conclude, Documentation.reportIf, homits]
    rfl
  · next homits =>
    refine (touches_update id _ w).congr ?_
    simp only [Documentation.conclude, Documentation.reportIf, homits]
    rfl

theorem evolves_begun : w.Evolves (w.begun id) :=
  (touches_begun w id).evolves fun d => .begin d _

theorem evolves_popped : w.Evolves (w.popped id) :=
  (touches_popped w id).evolves .dropInheritDoc

theorem evolves_answered (content : Text) : w.Evolves (w.answered id content) :=
  (touches_answered w id content).evolves fun d => .answer d _ _

theorem evolves_copied (kind : ItemKind) (source : DocId) : w.Evolves (w.copied id kind source) :=
  (touches_copied w id kind source).evolves fun d => .inherit d _

theorem evolves_concluded : w.Evolves (w.concluded id) :=
  (touches_concluded w id).evolves fun d => .conclude d _

/-! ## States and queues -/

@[simp] theorem state_popped (d : DocId) :
    ((w.popped id).document d).state = (w.document d).state :=
  (touches_popped w id).document_keeps (fun _ => rfl) d

@[simp] theorem state_answered (content : Text) (d : DocId) :
    ((w.answered id content).document d).state = (w.document d).state :=
  (touches_answered w id content).document_keeps (fun d => d.state_answer content _) d

@[simp] theorem state_copied (kind : ItemKind) (source d : DocId) :
    ((w.copied id kind source).document d).state = (w.document d).state :=
  (touches_copied w id kind source).document_keeps (fun _ => rfl) d

theorem state_begun {w : Workspace} {id : DocId} (hstate : (w.document id).state = .unvisited) :
    ((w.begun id).document id).state = .inProgress := by
  rw [(touches_begun w id).document_self (lt_size_of_state_ne (by rw [hstate]; decide))]
  exact Documentation.state_settleAll ..

@[simp] theorem pendingInheritDocs_begun (d : DocId) :
    ((w.begun id).document d).pendingInheritDocs = (w.document d).pendingInheritDocs :=
  (touches_begun w id).document_keeps (fun _ => Documentation.pendingInheritDocs_settleAll ..) d

@[simp] theorem pendingInheritDocs_answered (content : Text) (d : DocId) :
    ((w.answered id content).document d).pendingInheritDocs = (w.document d).pendingInheritDocs :=
  (touches_answered w id content).document_keeps
    (fun d => d.pendingInheritDocs_answer content _) d

@[simp] theorem pendingInheritDocs_copied (kind : ItemKind) (source d : DocId) :
    ((w.copied id kind source).document d).pendingInheritDocs =
      (w.document d).pendingInheritDocs :=
  (touches_copied w id kind source).document_keeps (fun _ => rfl) d

theorem pendingInheritDocs_popped {w : Workspace} {id : DocId} {content : Text} {rest : List Text}
    (hpending : (w.document id).pendingInheritDocs = content :: rest) :
    ((w.popped id).document id).pendingInheritDocs = rest := by
  rw [(touches_popped w id).document_self (lt_size_of_pending hpending)]
  simp [Documentation.dropInheritDoc, hpending]

end

end Workspace

namespace Action
variable {w : Workspace}

theorem run_conclude (hq : w.Quiet) (id : DocId) :
    (conclude id).run w = (.ok (), w.concluded id) := by
  unfold conclude Workspace.concluded
  rw [run_bind_ok (run_get _)]
  split
  · rw [run_bind_ok (run_report hq _ _)]
    exact run_update ..
  · exact run_update ..

/-- What meeting a request comes to. -/
theorem run_meet (hq : w.Quiet) (id : DocId) (content : Text) :
    (meet id content).run w =
      match w.lead content with
      | .own kind source =>
        match (w.document source).state with
        | .inProgress => (.ok [.drain id], w.answered id content)
        | .unvisited => (.ok [.enter source, .copy id kind source], w)
        | .done => (.ok [.copy id kind source], w)
      | _ => (.ok [.drain id], w.answered id content) := by
  have hspec := w.lead_spec content
  unfold meet
  cases hlead : w.lead content with
  | blank =>
    rw [hlead] at hspec
    simp only [hspec, if_true, Workspace.answered, hlead]
    rw [run_bind_ok (run_report hq _ _)]
    rfl
  | malformed e =>
    rw [hlead] at hspec
    obtain ⟨hblank, hparse⟩ := hspec
    simp only [hblank, hparse, Bool.false_eq_true, if_false, Workspace.answered, hlead]
    rw [run_bind_ok (run_report hq _ _),
      run_bind_ok (run_report ((Workspace.touches_reported id _ w).quiet hq) _ _)]
    rfl
  | nowhere warning =>
    rw [hlead] at hspec
    obtain ⟨hblank, key, hparse, hlookUp⟩ := hspec
    have hresolve := run_resolve key w
    rw [hlookUp] at hresolve
    simp only [hblank, hparse, Bool.false_eq_true, if_false, Workspace.answered, hlead]
    rw [run_bind_ok hresolve]
    rfl
  | external item =>
    rw [hlead] at hspec
    obtain ⟨hblank, key, hparse, hlookUp⟩ := hspec
    have hresolve := run_resolve key w
    rw [hlookUp] at hresolve
    simp only [hblank, hparse, Bool.false_eq_true, if_false, Workspace.answered, hlead]
    rw [run_bind_ok hresolve]
    rfl
  | own kind source =>
    rw [hlead] at hspec
    obtain ⟨hblank, key, hparse, hlookUp⟩ := hspec
    have hresolve := run_resolve key w
    rw [hlookUp] at hresolve
    simp only [hblank, hparse, Bool.false_eq_true, if_false, Workspace.answered, hlead]
    rw [run_bind_ok hresolve]
    simp only
    rw [run_bind_ok (run_document ..)]
    cases (w.document source).state with
    | unvisited | done => rfl
    | inProgress =>
      simp only
      rw [run_bind_ok (run_document ..), run_bind_ok (run_log ..),
        run_bind_ok (run_report (w := w.logged _) hq _ _)]
      rfl

end Action

end ApiDoc
