import ApiDoc.Proofs.Completion.Calls

/-!
# What the steps of a completion make known

A completion goes step by step, and each step is about one documentation: it finds problems of that
documentation, which are diagnostics at once, and it warns of what the documentation has taken off
its queues (`Workspace.Records`). Main statement: `Completes.recorded`. However the work is nested,
a completion is a sequence of such steps. So what each of them keeps, a completion keeps
(`Completes.keeps`).
-/

namespace ApiDoc

open Workspace

/-- The warnings that the lookup of a reference brings. -/
def Resolution.warnings : Resolution → List Warning
  | .found _ => []
  | .missing warning => warning.toList

/-- The warnings that meeting a request brings. -/
def Lead.warnings : Lead → List Warning
  | .nowhere warning => warning.toList
  | .blank | .malformed _ | .external _ | .own _ _ => []

theorem Documentation.diagnostic_eq {d d₁ : Documentation} (h : d₁.itemName = d.itemName) :
    d₁.diagnostic = d.diagnostic := by
  funext p
  rw [diagnostic, diagnostic, h]

namespace Workspace

/-- The warnings that the queues of a documentation will bring. -/
def owed (w : Workspace) (d : Documentation) : Multiset Warning :=
  ↑(d.pendingLinks.flatMap fun link => (w.lookUp link.target).warnings) +
    ↑(d.pendingInheritDocs.flatMap fun content => (w.lead content).warnings)

/-- A step that changes one documentation by `f`. The new problems become diagnostics in their
order, and the new warnings are those that the documentation owes no more. -/
structure Records (id : DocId) (f : Documentation → Documentation) (new : List Problem)
    (due : List Warning) (w w₁ : Workspace) : Prop extends Touches id f w w₁ where
  inside : id < w.documents.size
  itemName : (f (w.document id)).itemName = (w.document id).itemName
  problems : (f (w.document id)).problems = (w.document id).problems ++ new
  hasFailed : (f (w.document id)).hasFailed = ((w.document id).hasFailed || !new.isEmpty)
  owed : w.owed (w.document id) = w.owed (f (w.document id)) + due
  diagnostics : w₁.diagnostics = w.diagnostics ++ new.map (w.document id).diagnostic
  warnings : w₁.warnings = w.warnings ++ due

/-- A step of a completion. -/
inductive Recorded : Workspace → Workspace → Prop
  /-- Something happens to one documentation. -/
  | step {id : DocId} {f : Documentation → Documentation} {new : List Problem}
      {due : List Warning} {w w₁ : Workspace} (h : Records id f new due w w₁) : Recorded w w₁
  /-- The package is declared complete. -/
  | close (w : Workspace) : Recorded w { w with isComplete := true }

section
variable {w w₁ : Workspace} {id : DocId}

theorem lead_congr (h : w₁.setting = w.setting) (content : Text) :
    w₁.lead content = w.lead content := by
  unfold lead
  simp only [lookUp_congr h]

/-- What a documentation owes depends on its queues only. -/
theorem owed_eq {d d₁ : Documentation} (hlinks : d₁.pendingLinks = d.pendingLinks)
    (hrequests : d₁.pendingInheritDocs = d.pendingInheritDocs) : w.owed d₁ = w.owed d := by
  rw [Workspace.owed, Workspace.owed, hlinks, hrequests]

theorem owed_congr (h : w₁.setting = w.setting) : w₁.owed = w.owed := by
  funext d
  unfold Workspace.owed
  simp only [lookUp_congr h, lead_congr h]

/-- A change in which nothing is made known. -/
theorem records_of_silent {f : Documentation → Documentation} (h : Touches id f w w₁)
    (hid : id < w.documents.size)
    (hname : (f (w.document id)).itemName = (w.document id).itemName)
    (hproblems : (f (w.document id)).problems = (w.document id).problems)
    (hfailed : (f (w.document id)).hasFailed = (w.document id).hasFailed)
    (howed : w.owed (f (w.document id)) = w.owed (w.document id))
    (hdiagnostics : w₁.diagnostics = w.diagnostics) (hwarnings : w₁.warnings = w.warnings) :
    Records id f [] [] w w₁ where
  toTouches := h
  inside := hid
  itemName := hname
  problems := hproblems.trans (List.append_nil _).symm
  hasFailed := hfailed.trans (Bool.or_false _).symm
  owed := howed.symm.trans (add_zero _).symm
  diagnostics := hdiagnostics.trans (List.append_nil _).symm
  warnings := hwarnings.trans (List.append_nil _).symm

theorem diagnostics_reported (id : DocId) (p : Problem) (w : Workspace) :
    (w.reported id p).diagnostics = w.diagnostics ++ [(w.document id).diagnostic p] := by
  have hname : ((w.updateDocument id (Documentation.report p)).document id).itemName =
      (w.document id).itemName :=
    (touches_update id (Documentation.report p) w).document_keeps (fun _ => rfl) id
  exact congrArg (fun itemName => w.diagnostics ++ [{ problem := p, itemName }]) hname

theorem known_warned (warning : Option Warning) (w : Workspace) :
    (w.warned warning).diagnostics = w.diagnostics ∧
      (w.warned warning).warnings = w.warnings ++ warning.toList := by
  cases warning with
  | none => exact ⟨rfl, (List.append_nil _).symm⟩
  | some warning => exact ⟨rfl, rfl⟩

/-! ## Links -/

/-- What looking a link up makes known. -/
theorem known_linkLookedUp (id : DocId) (w : Workspace) (link : PendingLink) :
    (w.linkLookedUp id link).diagnostics = w.diagnostics ++
      (List.replicate (if w.verdict link.target = .restricted then 1 else 0)
        Problem.restrictedLink).map (w.document id).diagnostic ∧
    (w.linkLookedUp id link).warnings = w.warnings ++ (w.lookUp link.target).warnings := by
  have hdrop := touches_update id Documentation.dropLink w
  have hevolves : w.Evolves _ := hdrop.evolves .dropLink
  have hdiagnostic := Documentation.diagnostic_eq (hevolves.documents id).itemName
  have hsame : (w.updateDocument id Documentation.dropLink).diagnostics = w.diagnostics ∧
      (w.updateDocument id Documentation.dropLink).warnings = w.warnings := ⟨rfl, rfl⟩
  unfold linkLookedUp
  rw [← hevolves.verdict, ← hevolves.lookUp, ← hdiagnostic, ← hsame.1, ← hsame.2]
  generalize w.updateDocument id Documentation.dropLink = w₁
  cases hlookUp : w₁.lookUp link.target with
  | missing warning =>
    have hverdict : w₁.verdict link.target = .unresolved := by simp only [verdict, hlookUp]
    obtain ⟨hdiagnostics, hwarnings⟩ := known_warned warning w₁
    simp only [hlookUp, hverdict]
    exact ⟨hdiagnostics.trans (List.append_nil _).symm, hwarnings⟩
  | found target =>
    by_cases hrestricted : w₁.config.restrictedTags.contains (w₁.view target).releaseTag = true
    · have hverdict : w₁.verdict link.target = .restricted := by
        simp only [verdict, hlookUp, hrestricted, if_true]
      simp only [hlookUp, hverdict, hrestricted, if_true]
      exact ⟨diagnostics_reported id _ w₁, (List.append_nil _).symm⟩
    · have hverdict : w₁.verdict link.target = .resolved := by
        simp only [verdict, hlookUp, hrestricted, Bool.false_eq_true, if_false]
      simp only [hlookUp, hverdict, hrestricted, Bool.false_eq_true, if_false]
      exact ⟨(List.append_nil _).symm, (List.append_nil _).symm⟩

theorem records_linkLookedUp {link : PendingLink} {rest : List PendingLink}
    (hid : id < w.documents.size) (hpending : (w.document id).pendingLinks = link :: rest) :
    Records id (Documentation.settleLink (w.verdict link.target) link)
      (List.replicate (if w.verdict link.target = .restricted then 1 else 0) .restrictedLink)
      (w.lookUp link.target).warnings w (w.linkLookedUp id link) where
  toTouches := touches_linkLookedUp id w link
  inside := hid
  itemName := by rw [Documentation.settleLink_eq]
  problems := by rw [Documentation.settleLink_eq]
  hasFailed := by
    rw [Documentation.settleLink_eq]
    by_cases hrestricted : w.verdict link.target = .restricted <;> simp [hrestricted]
  owed := by
    rw [Documentation.settleLink_eq, Workspace.owed, Workspace.owed, hpending, List.flatMap_cons,
      ← Multiset.coe_add, add_assoc, add_comm]
    rfl
  diagnostics := (known_linkLookedUp id w link).1
  warnings := (known_linkLookedUp id w link).2

/-- The links of a documentation are looked up one by one. -/
theorem recorded_linksLookedUp (hid : id < w.documents.size) :
    Relation.ReflTransGen Recorded w (w.linksLookedUp id) := by
  unfold linksLookedUp
  generalize hlinks : (w.document id).pendingLinks = links
  induction links generalizing w with
  | nil => exact .refl
  | cons link links ih =>
    have hstep := records_linkLookedUp hid hlinks
    refine .head (.step hstep) (ih (hstep.size ▸ hid) ?_)
    rw [hstep.document_self hid, Documentation.settleLink_eq, hlinks]
    rfl

theorem recorded_begun (hid : id < w.documents.size) :
    Relation.ReflTransGen Recorded w (w.begun id) := by
  have hstate := records_of_silent (touches_update id (Documentation.withState .inProgress) w) hid
    rfl rfl rfl rfl rfl rfl
  exact .head (.step hstate) (recorded_linksLookedUp (hstate.size ▸ hid))

/-! ## Requests -/

/-- What an answer on the spot makes known. -/
theorem known_answered (id : DocId) (content : Text) (w : Workspace) :
    (w.answered id content).diagnostics = w.diagnostics ++
      ((w.lead content).problems content).map (w.document id).diagnostic ∧
    (w.answered id content).warnings = w.warnings ++ (w.lead content).warnings := by
  unfold answered
  cases w.lead content with
  | blank => exact ⟨diagnostics_reported id _ w, (List.append_nil _).symm⟩
  | malformed e =>
    have hfirst := diagnostics_reported id (.inheritDocReference e) w
    have hsecond := diagnostics_reported id (.malformedInheritDoc content)
      (w.reported id (.inheritDocReference e))
    have hname : ((w.reported id (.inheritDocReference e)).document id).itemName =
        (w.document id).itemName :=
      (touches_reported id (.inheritDocReference e) w).document_keeps (fun _ => rfl) id
    rw [hfirst, List.append_assoc, Documentation.diagnostic_eq hname] at hsecond
    exact ⟨hsecond, (List.append_nil _).symm⟩
  | nowhere warning =>
    obtain ⟨hdiagnostics, hwarnings⟩ := known_warned warning w
    exact ⟨hdiagnostics.trans (List.append_nil _).symm, hwarnings⟩
  | external item => exact ⟨(List.append_nil _).symm, (List.append_nil _).symm⟩
  | own kind source =>
    exact ⟨diagnostics_reported id _ (w.logged _), (List.append_nil _).symm⟩

/-- What a documentation still owes before and after its first request is taken off. -/
theorem owed_dropInheritDoc {d : Documentation} {content : Text} {rest : List Text}
    (hpending : d.pendingInheritDocs = content :: rest) :
    w.owed d = w.owed d.dropInheritDoc + (w.lead content).warnings := by
  have hrest : d.dropInheritDoc.pendingInheritDocs = rest := by
    rw [Documentation.dropInheritDoc, hpending]
    rfl
  rw [Workspace.owed, Workspace.owed, hpending, hrest, List.flatMap_cons, ← Multiset.coe_add,
    add_comm ((w.lead content).warnings : Multiset Warning), ← add_assoc]
  rfl

theorem records_answered {content : Text} {rest : List Text}
    (hpending : (w.document id).pendingInheritDocs = content :: rest) :
    Records id (Documentation.answer content (w.lead content) ∘ Documentation.dropInheritDoc)
      ((w.lead content).problems content) (w.lead content).warnings w
      ((w.popped id).answered id content) := by
  have hid := lt_size_of_pending hpending
  have hlead : (w.popped id).lead content = w.lead content := lead_congr rfl content
  have htouches := (touches_popped w id).trans (touches_answered (w.popped id) id content)
  obtain ⟨hdiagnostics, hwarnings⟩ := known_answered id content (w.popped id)
  rw [hlead] at htouches hdiagnostics hwarnings
  rw [(touches_popped w id).document_self hid] at hdiagnostics
  exact {
    toTouches := htouches
    inside := hid
    itemName := (Documentation.Evolves.answer _ content _).itemName
    problems := Documentation.problems_answer _ content _
    hasFailed := Documentation.hasFailed_answer _ content _
    owed := by
      refine (owed_dropInheritDoc hpending).trans (congrArg (· + _) ?_)
      refine (owed_eq ?_ ?_).symm
      · exact (Documentation.links_answer _ content _).1
      · exact Documentation.pendingInheritDocs_answer _ content _
    diagnostics := hdiagnostics
    warnings := hwarnings }

/-- A request that leads to the package is taken off its queue without a warning. -/
theorem records_popped {content : Text} {rest : List Text} {kind : ItemKind} {source : DocId}
    (hpending : (w.document id).pendingInheritDocs = content :: rest)
    (hlead : (w.popped id).lead content = .own kind source) :
    Records id Documentation.dropInheritDoc [] [] w (w.popped id) := by
  have howed := owed_dropInheritDoc (w := w) hpending
  have hsame : (w.popped id).lead content = w.lead content := lead_congr rfl content
  rw [← hsame, hlead] at howed
  exact records_of_silent (touches_popped w id) (lt_size_of_pending hpending) rfl rfl rfl
    (howed.trans (add_zero _)).symm rfl rfl

theorem records_copied (hid : id < w.documents.size) (kind : ItemKind) (source : DocId) :
    Records id (Documentation.inherit (w.view (.own kind source))) [] [] w
      (w.copied id kind source) :=
  records_of_silent (touches_copied w id kind source) hid rfl rfl rfl rfl rfl rfl

theorem records_concluded (hid : id < w.documents.size) :
    Records id (Documentation.conclude w.config.enforceInheritedDeprecation)
      (if w.config.enforceInheritedDeprecation && (w.document id).omitsDeprecation then
        [.deprecationNotRestated] else []) [] w (w.concluded id) where
  toTouches := touches_concluded w id
  inside := hid
  itemName := (Documentation.Evolves.conclude _ _).itemName
  problems := Documentation.problems_conclude _ _
  hasFailed := Documentation.hasFailed_conclude _ _
  owed := by
    have hlinks := (w.document id).links_conclude w.config.enforceInheritedDeprecation
    exact (owed_eq hlinks.1 hlinks.2.2).symm.trans (add_zero _).symm
  diagnostics := by
    unfold concluded
    split
    · exact diagnostics_reported id _ w
    · exact (List.append_nil _).symm
  warnings := by
    unfold concluded
    split <;> exact (List.append_nil _).symm

end

end Workspace

/-! ## The completion -/

section
variable {frame : Frame} {w w₁ : Workspace} {ids : List DocId} {id : DocId}

theorem Performs.lt_size (h : Performs (.enter id) w w₁) : id < w.documents.size := by
  cases h with
  | enter hstate _ => exact lt_size_of_state_ne (by rw [hstate]; decide)

/-- Work goes step by step. -/
theorem Performs.recorded (h : Performs frame w w₁) (hframe : frame.document < w.documents.size) :
    Relation.ReflTransGen Recorded w w₁ := by
  induction h with
  | @enter id w w₁ _ _ ih =>
    exact (recorded_begun hframe).trans (ih ((touches_begun w id).size ▸ hframe))
  | conclude _ => exact .single (.step (records_concluded hframe))
  | @answer id content rest w w₁ hpending _ _ ih =>
    have hstep := records_answered hpending
    exact .head (.step hstep) (ih (hstep.size ▸ hframe))
  | @force id content rest kind source w w₁ w₂ hpending hlead henter _ ihenter ihcopy =>
    have hstep := records_popped hpending hlead
    exact .head (.step hstep)
      ((ihenter henter.lt_size).trans (ihcopy (henter.evolves.size.trans hstep.size ▸ hframe)))
  | @reuse id content rest kind source w w₁ hpending hlead _ _ ih =>
    have hstep := records_popped hpending hlead
    exact .head (.step hstep) (ih (hstep.size ▸ hframe))
  | @copy id kind source w w₁ _ ih =>
    have hstep := records_copied hframe kind source
    exact .head (.step hstep) (ih (hstep.size ▸ hframe))

/-- Calls to complete go step by step. -/
theorem Completes.recorded (h : Completes ids w w₁) : Relation.ReflTransGen Recorded w w₁ := by
  induction h with
  | nil => exact .refl
  | enter hperforms _ ih => exact (hperforms.recorded hperforms.lt_size).trans ih
  | skip _ _ ih => exact ih
  | @close _ w _ _ ih => exact .head (.close w) ih

/-- What every step keeps, a completion keeps. -/
theorem Completes.keeps {P : Workspace → Prop}
    (hstep : ∀ {w w₁ : Workspace}, Recorded w w₁ → P w → P w₁) (h : Completes ids w w₁)
    (hw : P w) : P w₁ := by
  have hsteps := h.recorded
  clear h
  induction hsteps with
  | refl => exact hw
  | tail _ hlast ih => exact hstep hlast ih

end

end ApiDoc
