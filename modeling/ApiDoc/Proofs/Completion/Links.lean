import ApiDoc.Proofs.Completion.Evolution

/-!
# Looking links up

What becomes of the links of a documentation when it is completed. The verdict on a link depends on
its target only (`Workspace.verdict`), and since stages of support stay as they are, it is the same
all through the completion (`Workspace.Evolves.verdict`). So the links of a documentation are looked
up by one function of that documentation (`Documentation.settleLinks`, `Action.run_completeLinks`).
-/

namespace ApiDoc

namespace Workspace

/-- What a link to an item of a key comes to: its target is missing, or will be left out of the
documentation, or is there. -/
def verdict (w : Workspace) (key : ItemKey) : LinkStatus :=
  match w.lookUp key with
  | .missing _ => .unresolved
  | .found target =>
    if w.config.restrictedTags.contains (w.view target).releaseTag then .restricted else .resolved

/-- The workspace after a link was looked up. -/
def linkLookedUp (id : DocId) (w : Workspace) (link : PendingLink) : Workspace :=
  let w₁ := w.updateDocument id Documentation.dropLink
  match w₁.lookUp link.target with
  | .missing warning =>
    (w₁.warned warning).updateDocument id (Documentation.settle link .unresolved)
  | .found target =>
    if w₁.config.restrictedTags.contains (w₁.view target).releaseTag then
      (w₁.reported id .restrictedLink).updateDocument id (Documentation.settle link .restricted)
    else w₁.updateDocument id (Documentation.settle link .resolved)

/-- The workspace after the pending links of a documentation were looked up. -/
def linksLookedUp (id : DocId) (w : Workspace) : Workspace :=
  (w.document id).pendingLinks.foldl (linkLookedUp id) w

end Workspace

namespace Documentation

/-- The documentation after a link was looked up with a verdict. -/
def settleLink (verdict : LinkStatus) (link : PendingLink) (d : Documentation) : Documentation :=
  (d.dropLink.reportIf (verdict = .restricted) .restrictedLink).settle link verdict

/-- The documentation after some links were looked up. -/
def settleAll (verdict : ItemKey → LinkStatus) (links : List PendingLink) (d : Documentation) :
    Documentation :=
  links.foldl (fun d link => d.settleLink (verdict link.target) link) d

/-- The documentation after its pending links were looked up. -/
def settleLinks (verdict : ItemKey → LinkStatus) (d : Documentation) : Documentation :=
  d.settleAll verdict d.pendingLinks

section
variable (verdict : ItemKey → LinkStatus) (links : List PendingLink) (d : Documentation)

/-- What looking a link up changes. -/
theorem settleLink_eq (status : LinkStatus) (link : PendingLink) : d.settleLink status link =
    { d with
      content := d.content.settle link.place status
      problems := d.problems ++ List.replicate (if status = .restricted then 1 else 0)
        .restrictedLink
      hasFailed := d.hasFailed || status = .restricted
      pendingLinks := d.pendingLinks.tail
      settledLinks := d.settledLinks ++ [(link, status)] } := by
  by_cases hstatus : status = .restricted <;>
    simp [settleLink, reportIf, hstatus, settle, report, dropLink]

theorem settleAll_cons (link : PendingLink) : d.settleAll verdict (link :: links) =
    (d.settleLink (verdict link.target) link).settleAll verdict links :=
  rfl

/-- What looking links up changes: each is settled wherever it is shown, and each whose target will
be left out is reported. -/
theorem settleAll_eq : d.settleAll verdict links =
    { d with
      content := links.foldl (fun c link => c.settle link.place (verdict link.target)) d.content
      problems := d.problems ++
        List.replicate (links.countP fun link => verdict link.target = .restricted) .restrictedLink
      hasFailed := d.hasFailed || links.any fun link => verdict link.target = .restricted
      pendingLinks := d.pendingLinks.drop links.length
      settledLinks := d.settledLinks ++ links.map fun link => (link, verdict link.target) } := by
  induction links generalizing d with
  | nil => simp [settleAll]
  | cons link links ih =>
    rw [settleAll_cons, ih, settleLink_eq]
    simp [List.countP_cons, Nat.add_comm, Bool.or_assoc]

@[simp] theorem state_settleAll : (d.settleAll verdict links).state = d.state := by
  rw [settleAll_eq]

@[simp] theorem pendingInheritDocs_settleAll :
    (d.settleAll verdict links).pendingInheritDocs = d.pendingInheritDocs := by
  rw [settleAll_eq]

theorem problems_settleAll : (d.settleAll verdict links).problems = d.problems ++
    List.replicate (links.countP fun link => verdict link.target = .restricted)
      .restrictedLink := by
  rw [settleAll_eq]

theorem Evolves.dropLink : d.Evolves d.dropLink :=
  { refl d with links := List.tail_suffix _ }

theorem Evolves.settleLink (status : LinkStatus) (link : PendingLink) :
    d.Evolves (d.settleLink status link) := by
  have h := Evolves.reportIf (status = .restricted) .restrictedLink d.dropLink
  exact ⟨h.itemName, h.releaseTag, h.flags, h.isInherited, h.problems,
    h.links.trans (List.tail_suffix _), h.requests⟩

theorem Evolves.settleAll : d.Evolves (d.settleAll verdict links) := by
  induction links generalizing d with
  | nil => exact .refl d
  | cons link links ih => exact (settleLink d _ _).trans (ih _)

end

end Documentation

namespace Workspace
variable {w w₁ : Workspace} {id : DocId}

/-- What a target shows of its stage of support stays the same. -/
theorem Evolves.releaseTag_view (h : w.Evolves w₁) (target : Target) :
    (w₁.view target).releaseTag = (w.view target).releaseTag := by
  cases target with
  | own kind doc => exact (h.documents doc).releaseTag
  | external item => rfl

/-- The verdict on a link is the same all through the completion. -/
theorem Evolves.verdict (h : w.Evolves w₁) : w₁.verdict = w.verdict := by
  funext key
  unfold Workspace.verdict
  rw [h.lookUp, h.config]
  cases w.lookUp key with
  | found target => simp only [h.releaseTag_view]
  | missing warning => rfl

theorem touches_linkLookedUp (id : DocId) (w : Workspace) (link : PendingLink) :
    Touches id (Documentation.settleLink (w.verdict link.target) link) w
      (w.linkLookedUp id link) := by
  have hdrop := touches_update id Documentation.dropLink w
  have hevolves : w.Evolves _ := hdrop.evolves .dropLink
  unfold linkLookedUp
  rw [← hevolves.verdict]
  simp only [verdict]
  generalize w.updateDocument id Documentation.dropLink = w₁ at hdrop ⊢
  split
  · next warning _ =>
    exact (hdrop.trans (touches_warned id warning w₁)).trans
      (touches_update id (Documentation.settle link .unresolved) _)
  · next target _ =>
    split
    · exact (hdrop.trans (touches_reported id .restrictedLink w₁)).trans
        (touches_update id (Documentation.settle link .restricted) _)
    · exact hdrop.trans (touches_update id (Documentation.settle link .resolved) w₁)

theorem touches_foldl_linkLookedUp (id : DocId) (links : List PendingLink) (w : Workspace) :
    Touches id (Documentation.settleAll w.verdict links) w (links.foldl (linkLookedUp id) w) := by
  induction links generalizing w with
  | nil => exact touches_of_documents_eq id rfl rfl rfl
  | cons link links ih =>
    have hlink := touches_linkLookedUp id w link
    have hlinks := ih (w.linkLookedUp id link)
    rw [(hlink.evolves fun d => .settleLink d _ link).verdict] at hlinks
    exact hlink.trans hlinks

/-- Looking the links of a documentation up settles them by the verdicts. -/
theorem touches_linksLookedUp (id : DocId) (w : Workspace) :
    Touches id (Documentation.settleLinks w.verdict) w (w.linksLookedUp id) :=
  (touches_foldl_linkLookedUp id _ w).congr rfl

end Workspace

namespace Action
variable {w : Workspace}

theorem run_completeLink (hq : w.Quiet) (id : DocId) (link : PendingLink) :
    (completeLink id link).run w = (.ok (), w.linkLookedUp id link) := by
  unfold completeLink
  rw [run_bind_ok (run_update ..)]
  unfold Workspace.linkLookedUp
  have hq₁ : (w.updateDocument id Documentation.dropLink).Quiet := hq
  generalize w.updateDocument id Documentation.dropLink = w₁ at hq₁ ⊢
  have hresolve := run_resolve link.target w₁
  cases hlookUp : w₁.lookUp link.target with
  | missing warning =>
    rw [hlookUp] at hresolve
    rw [run_bind_ok hresolve]
    simp only [hlookUp]
    exact run_update ..
  | found target =>
    rw [hlookUp] at hresolve
    rw [run_bind_ok hresolve]
    simp only [hlookUp]
    rw [run_bind_ok (run_get _)]
    split
    · rw [run_bind_ok (run_report hq₁ _ _)]
      exact run_update ..
    · exact run_update ..

theorem run_completeLinks (hq : w.Quiet) (id : DocId) :
    (completeLinks id).run w = (.ok (), w.linksLookedUp id) := by
  unfold completeLinks
  rw [run_bind_ok (run_document ..)]
  have hlink : ∀ {w : Workspace}, w.Quiet → ∀ link, _ ∧ (w.linkLookedUp id link).Quiet :=
    fun hq link => ⟨run_completeLink hq id link,
      (Workspace.touches_linkLookedUp id _ link).quiet hq⟩
  exact (run_forM_ok hlink hq _).1

end Action

end ApiDoc
