import ApiDoc.Proofs.Stack.Once
import ApiDoc.Proofs.Completion.Records
import ApiDoc.Proofs.Links.Pending
import ApiDoc.Proofs.Links.Unqualified
import ApiDoc.Proofs.Links.Verdict

/-!
# What is warned about

A completion warns of the references that lead nowhere, and of each once. Which these are can be
read off the comments: the links that end unresolved, whatever package they name, and the requests
to inherit that name a package and lead nowhere (`Workspace.misses`). A link always names a package,
since the one at hand is put in where it is left out (`Link.isQualified_of_itemLink?`); a request
may leave it out and is not warned about then.

The warnings of different documentations come in an order that depends on who asks for whom first.
Those that the steps on one documentation bring come in the order of its comment, links before
requests. The proof is an account: what the queues of a documentation will bring is what the steps
have brought and what is left (`Trace.Warns`). Links may not wait when requests are met, which holds
since they are looked up when the documentation is entered (`Workspace.Drained`). Main statement:
`Action.perform_warns_once`.
-/

namespace ApiDoc

open Workspace

/-- The warnings that a step makes known. -/
def Step.warnings (step : Step) : List Warning :=
  ((Action.advance step.frame).run step.before).2.warnings.drop step.before.warnings.length

/-- The warnings that the steps on a documentation make known, in order. -/
def Trace.warnings (steps : Trace) (d : DocId) : List Warning :=
  (steps.filter fun step => step.frame.document = d).flatMap Step.warnings

namespace Workspace

/-- The warning about a key that leads nowhere: its package is unknown, or else its item is. -/
def missWarning (w : Workspace) (key : ItemKey) : Warning :=
  if w.isOwnKey key || (OrderedMap.find? key.fullPackageName w.external).isSome then
    .unresolved key
  else .unknownPackage key

/-- The warnings about the links of a documentation that ended unresolved. -/
def linkMisses (w : Workspace) (d : Documentation) : List Warning :=
  (d.settledLinks.filter fun settled => settled.2 = .unresolved).map fun settled =>
    w.missWarning settled.1.target

/-- The warning about a request that is well formed, names a package, and leads nowhere. -/
def requestMiss? (w : Workspace) (content : Text) : Option Warning :=
  match Reference.parse content with
  | .error _ => none
  | .ok key =>
    match w.lookUp key with
    | .found _ => none
    | .missing _ => if key.isQualified then some (w.missWarning key) else none

/-- The warnings about a documentation from its queues before and its links afterwards: one for each
link that ended unresolved, and then one for each request to be warned about. -/
def misses (w w₁ : Workspace) (d : DocId) : List Warning :=
  w.linkMisses (w₁.document d) ++ (w.document d).pendingInheritDocs.filterMap w.requestMiss?

/-- The warnings that the queues of a documentation will bring, in order. -/
def dues (w : Workspace) (d : Documentation) : List Warning :=
  (d.pendingLinks.flatMap fun link => (w.lookUp link.target).warnings) ++
    d.pendingInheritDocs.flatMap fun content => (w.lead content).warnings

/-- The links of every documentation in progress were looked up. -/
def Drained (w : Workspace) : Prop :=
  ∀ d, (w.document d).state = .inProgress → (w.document d).pendingLinks = []

/-- What some calls warn of a documentation with a comment of these tokens. If it is completed, each
link of the comment was looked up, and the steps on the documentation warned of those that ended
unresolved and then of the requests to be warned about, both in the order of the comment. -/
structure WarnsInOrder (w : Workspace) (steps : Trace) (w₁ : Workspace) (d : DocId)
    (tokens : List Token) : Prop where
  queued : (w.document d).pendingLinks = ((Token.contents .link tokens).filterMap
    (Link.itemLink? w.identity)).mapIdx ItemLink.pending
  requests : (w.document d).pendingInheritDocs = Token.contents .inheritDoc tokens
  settled : (w₁.document d).state = .done →
    (w₁.document d).settledLinks.map Prod.fst = (w.document d).pendingLinks
  warnings : steps.warnings d = if (w₁.document d).state = .done then w.misses w₁ d else []

end Workspace

/-- A step on a documentation brings some warnings: its queues will not bring them any more, and its
links were looked up. -/
structure Workspace.Brings (id : DocId) (due : List Warning) (w w₁ : Workspace) : Prop where
  warnings : w₁.warnings = w.warnings ++ due
  dues : w.dues (w.document id) = due ++ w.dues (w₁.document id)
  drained : (w₁.document id).pendingLinks = []

/-- What some steps between two workspaces warn of. -/
structure Trace.Warns (steps : Trace) (w w₁ : Workspace) : Prop where
  setting : w₁.setting = w.setting
  size : w₁.documents.size = w.documents.size
  inside : ∀ step ∈ steps, step.frame.document < w.documents.size
  /-- What is warned of is what the steps warn of. -/
  warnings : w₁.warnings = w.warnings ++ steps.flatMap Step.warnings
  /-- What the queues of a documentation will bring is brought by the steps on it, or later. -/
  dues : ∀ d, w.dues (w.document d) = steps.warnings d ++ w₁.dues (w₁.document d)

section
variable {w w₁ w₂ : Workspace} {id d : DocId} {key : ItemKey} {content : Text}
  {warning : Option Warning} {frame : Frame} {stack next left : List Frame}
  {steps steps₁ : Trace} {ids : List DocId} {calls : List Call}

/-! ## Which references are warned about -/

namespace Link

/-- A link to an item names its package, or the one at hand was put in. -/
theorem isQualified_of_ofAddress {package : PackageName} {address : Text} {display : List Text}
    {link : ItemLink} (hname : package.name ≠ [])
    (h : ofAddress (some package) address display = .link (.itemLink link)) :
    link.target.isQualified = true := by
  unfold ofAddress at h
  split at h
  · split at h <;> cases h
  · split at h
    · cases h
    · next key _ =>
      dsimp only at h
      split at h
      · next hqualified =>
        cases h
        exact hqualified
      · cases h
        simpa [ItemKey.isQualified] using hname

theorem isQualified_of_itemLink? {package : PackageName} {link : ItemLink}
    (hname : package.name ≠ []) (h : itemLink? (some package) content = some link) :
    link.target.isQualified = true := by
  obtain ⟨address, display, -, hparse⟩ | ⟨e, -, hparse⟩ := parse_cases (some package) content
  · unfold itemLink? at h
    split at h
    · next e he =>
      cases e with
      | itemLink written =>
        cases h
        exact isQualified_of_ofAddress hname (hparse.symm.trans he)
      | text | paragraph | htmlTag | webLink => cases h
    · cases h
    · cases h
  · rw [itemLink?, hparse] at h
    cases h

end Link

namespace Workspace

theorem fullPackageName_ne_nil (h : key.isQualified = true) : key.fullPackageName ≠ [] :=
  key.package.full_ne_nil (by simpa [ItemKey.isQualified] using h)

theorem fullPackageName_eq_nil (hparse : Reference.parse content = .ok key)
    (h : key.isQualified = false) : key.fullPackageName = [] := by
  cases Reference.parse_eq_ok_iff.1 hparse with
  | unqualified _ => rfl
  | qualified hpackage _ =>
    refine absurd h ?_
    simpa [ItemKey.isQualified] using hpackage.full_eq.2

/-- Of a key that names a package it is warned. -/
theorem lookUp_eq_missing (h : key.isQualified = true)
    (hmissing : w.lookUp key = .missing warning) : warning = some (w.missWarning key) := by
  have hfull : key.fullPackageName.isEmpty = false := by
    simpa using fullPackageName_ne_nil h
  unfold lookUp at hmissing
  unfold missWarning
  cases hown : w.isOwnKey key with
  | true =>
    rw [hown, if_pos rfl] at hmissing
    split at hmissing <;> cases hmissing
    simp [hfull]
  | false =>
    rw [hown, if_neg Bool.false_ne_true] at hmissing
    cases hfind : OrderedMap.find? key.fullPackageName w.external with
    | none =>
      rw [hfind] at hmissing
      cases hmissing
      rfl
    | some items =>
      rw [hfind] at hmissing
      dsimp only at hmissing
      split at hmissing <;> cases hmissing
      rfl

/-- Of a key without a package it is not. -/
theorem lookUp_eq_missing_of_unqualified (h : key.fullPackageName = [])
    (hmissing : w.lookUp key = .missing warning) : warning = none := by
  have hown : w.isOwnKey key = true := by simp [isOwnKey, h]
  unfold lookUp at hmissing
  rw [hown, if_pos rfl] at hmissing
  split at hmissing <;> cases hmissing
  simp [h]

/-- The lookup of a link that names a package brings a warning if it ends unresolved. -/
theorem warnings_lookUp (h : key.isQualified = true) : (w.lookUp key).warnings =
    if w.verdict key = .unresolved then [w.missWarning key] else [] := by
  unfold verdict
  cases hlookUp : w.lookUp key with
  | missing warning =>
    rw [lookUp_eq_missing h hlookUp]
    rfl
  | found target =>
    dsimp only
    split <;> rfl

/-- What meeting a request brings. -/
theorem warnings_lead (w : Workspace) (content : Text) :
    (w.lead content).warnings = (w.requestMiss? content).toList := by
  unfold lead requestMiss?
  cases hparse : Reference.parse content with
  | error e => split <;> rfl
  | ok key =>
    have hblank : Text.hasBlank content = false := by
      refine Bool.eq_false_iff.2 fun hblank => ?_
      rw [Reference.parse, hblank, Bool.or_true, if_pos rfl] at hparse
      cases hparse
    rw [hblank, if_neg Bool.false_ne_true]
    cases hlookUp : w.lookUp key with
    | found target => cases target <;> simp [hlookUp, Lead.warnings]
    | missing warning =>
      cases hqualified : key.isQualified with
      | true => simp [hlookUp, Lead.warnings, hqualified, lookUp_eq_missing hqualified hlookUp]
      | false =>
        have hfull := fullPackageName_eq_nil hparse hqualified
        simp [hlookUp, Lead.warnings, hqualified, lookUp_eq_missing_of_unqualified hfull hlookUp]

/-! ## What a step warns of -/

theorem warnings_foldl_linkLookedUp (id : DocId) (links : List PendingLink) (w : Workspace) :
    (links.foldl (linkLookedUp id) w).warnings =
      w.warnings ++ links.flatMap fun link => (w.lookUp link.target).warnings := by
  induction links generalizing w with
  | nil => exact (List.append_nil _).symm
  | cons link links ih =>
    have hevolves := (touches_linkLookedUp id w link).evolves fun d => .settleLink d _ link
    refine (ih (w.linkLookedUp id link)).trans ?_
    rw [(known_linkLookedUp id w link).2, List.flatMap_cons, List.append_assoc]
    simp only [hevolves.lookUp]

theorem warnings_begun (id : DocId) (w : Workspace) : (w.begun id).warnings =
    w.warnings ++ (w.document id).pendingLinks.flatMap fun link =>
      (w.lookUp link.target).warnings := by
  have hbegin := touches_update id (Documentation.withState .inProgress) w
  have hlinks : ((w.updateDocument id (Documentation.withState .inProgress)).document
      id).pendingLinks = (w.document id).pendingLinks :=
    hbegin.document_keeps (fun _ => rfl) id
  rw [begun, linksLookedUp, warnings_foldl_linkLookedUp, hlinks]
  rfl

theorem dues_congr (h : w₁.setting = w.setting) : w₁.dues = w.dues := by
  funext d
  unfold dues
  simp only [lookUp_congr h, lead_congr h]

theorem dues_eq {d d₁ : Documentation} (hlinks : d₁.pendingLinks = d.pendingLinks)
    (hrequests : d₁.pendingInheritDocs = d.pendingInheritDocs) : w.dues d₁ = w.dues d := by
  rw [dues, dues, hlinks, hrequests]

/-- Once the links were looked up, the first request is warned of first. -/
theorem dues_dropInheritDoc {d : Documentation} {rest : List Text} (hlinks : d.pendingLinks = [])
    (hrequests : d.pendingInheritDocs = content :: rest) :
    w.dues d = (w.lead content).warnings ++ w.dues d.dropInheritDoc := by
  have hlinks₁ : d.dropInheritDoc.pendingLinks = [] := hlinks
  have hrequests₁ : d.dropInheritDoc.pendingInheritDocs = rest := congrArg List.tail hrequests
  rw [dues, dues, hlinks, hlinks₁, hrequests, hrequests₁]
  rfl

theorem brings_begun (hid : id < w.documents.size) :
    Brings id ((w.document id).pendingLinks.flatMap fun link => (w.lookUp link.target).warnings) w
      (w.begun id) := by
  have hdrained : ((w.begun id).document id).pendingLinks = [] := by
    rw [(touches_begun w id).document_self hid, Documentation.settleLinks,
      Documentation.settleAll_eq]
    exact List.drop_length
  refine ⟨warnings_begun id w, ?_, hdrained⟩
  rw [dues, dues, hdrained, pendingInheritDocs_begun]
  rfl

theorem brings_answered {rest : List Text} (hlinks : (w.document id).pendingLinks = [])
    (hrequests : (w.document id).pendingInheritDocs = content :: rest) :
    Brings id (w.lead content).warnings w ((w.popped id).answered id content) := by
  have hstep := records_answered hrequests
  have hanswer := (w.document id).dropInheritDoc.links_answer content (w.lead content)
  refine ⟨hstep.warnings, ?_, ?_⟩ <;> rw [hstep.document_self hstep.inside, Function.comp_apply]
  · rw [dues_eq hanswer.1 (Documentation.pendingInheritDocs_answer ..)]
    exact dues_dropInheritDoc hlinks hrequests
  · exact hanswer.1.trans hlinks

theorem brings_popped {rest : List Text} {kind : ItemKind} {source : DocId}
    (hlinks : (w.document id).pendingLinks = [])
    (hrequests : (w.document id).pendingInheritDocs = content :: rest)
    (hlead : (w.popped id).lead content = .own kind source) : Brings id [] w (w.popped id) := by
  have hstep := records_popped hrequests hlead
  have hsame : (w.popped id).lead content = w.lead content := lead_congr rfl content
  have hdues := dues_dropInheritDoc (w := w) hlinks hrequests
  rw [← hsame, hlead] at hdues
  refine ⟨hstep.warnings, ?_, ?_⟩ <;> rw [hstep.document_self hstep.inside]
  · exact hdues
  · exact hlinks

theorem brings_copied (hid : id < w.documents.size) (hlinks : (w.document id).pendingLinks = [])
    (kind : ItemKind) (source : DocId) : Brings id [] w (w.copied id kind source) := by
  have hcopied := touches_copied w id kind source
  refine ⟨(List.append_nil _).symm, ?_, ?_⟩ <;> rw [hcopied.document_self hid]
  · rfl
  · exact hlinks

theorem brings_concluded (hid : id < w.documents.size)
    (hlinks : (w.document id).pendingLinks = []) : Brings id [] w (w.concluded id) := by
  have hstep := records_concluded hid
  obtain ⟨hlinks₁, -, hrequests₁⟩ :=
    (w.document id).links_conclude w.config.enforceInheritedDeprecation
  refine ⟨hstep.warnings, ?_, ?_⟩ <;> rw [hstep.document_self hid]
  · exact (dues_eq hlinks₁ hrequests₁).symm
  · exact hlinks₁.trans hlinks

end Workspace

/-- A step on a documentation that is entered, or whose links were looked up. -/
theorem Action.advance_brings (hq : w.Quiet)
    (hstate : (w.document frame.document).state = frame.state)
    (hdrained : frame.state = .inProgress → (w.document frame.document).pendingLinks = [])
    (hrun : (advance frame).run w = (.ok next, w₁)) :
    ∃ due, Brings frame.document due w w₁ := by
  have hid := Frame.lt_size hstate
  cases frame with
  | enter id =>
    cases hrun.symm.trans (run_advance_enter hq id)
    exact ⟨_, brings_begun hid⟩
  | drain id =>
    have hlinks := hdrained rfl
    cases hrequests : (w.document id).pendingInheritDocs with
    | nil =>
      cases hrun.symm.trans (run_advance_drain_nil hq hrequests)
      exact ⟨_, brings_concluded hid hlinks⟩
    | cons content rest =>
      rw [run_advance_drain_cons hrequests] at hrun
      rcases (w.popped id).answersNow_or content with hnow | ⟨kind, source, hlead, hsource⟩
      · cases hrun.symm.trans (run_meet_answer (w := w.popped id) hq hnow id)
        exact ⟨_, brings_answered hlinks hrequests⟩
      · rw [run_meet (w := w.popped id) hq, hlead] at hrun
        rcases hsource with hsource | hsource <;> simp only [hsource] at hrun <;> cases hrun <;>
          exact ⟨_, brings_popped hlinks hrequests hlead⟩
  | copy id kind source =>
    cases hrun.symm.trans (run_advance_copy id kind source w)
    exact ⟨_, brings_copied hid (hdrained rfl) kind source⟩

/-! ## What a run warns of -/

theorem Step.warnings_eq {due : List Warning}
    (hrun : (Action.advance frame).run w = (.ok next, w₁)) (h : Brings id due w w₁) :
    Step.warnings ⟨frame, w⟩ = due := by
  rw [Step.warnings, hrun, h.warnings, List.drop_left]

namespace Trace

@[simp] theorem warnings_nil (d : DocId) : warnings [] d = [] :=
  rfl

theorem warnings_append (steps steps₁ : Trace) (d : DocId) :
    warnings (steps ++ steps₁) d = warnings steps d ++ warnings steps₁ d := by
  rw [warnings, List.filter_append, List.flatMap_append]
  rfl

theorem warnings_cons (step : Step) (steps : Trace) (d : DocId) :
    warnings (step :: steps) d =
      (if step.frame.document = d then step.warnings else []) ++ warnings steps d := by
  rw [warnings, List.filter_cons]
  by_cases hd : step.frame.document = d <;> simp [hd, warnings]

namespace Warns

theorem refl (w : Workspace) : Warns [] w w where
  setting := rfl
  size := rfl
  inside := nofun
  warnings := (List.append_nil _).symm
  dues _ := rfl

theorem trans (h : steps.Warns w w₁) (h₁ : steps₁.Warns w₁ w₂) : Warns (steps ++ steps₁) w w₂ where
  setting := h₁.setting.trans h.setting
  size := h₁.size.trans h.size
  inside := List.forall_mem_append.2 ⟨h.inside, h.size ▸ h₁.inside⟩
  warnings := by rw [h₁.warnings, h.warnings, List.flatMap_append, List.append_assoc]
  dues d := by rw [h.dues, h₁.dues, warnings_append, List.append_assoc]

/-- A step warns of what it brings. -/
theorem single {due : List Warning} (hrun : (Action.advance frame).run w = (.ok next, w₁))
    (hid : frame.document < w.documents.size) (hacts : Acts frame w w₁)
    (h : Brings frame.document due w w₁) : Warns [⟨frame, w⟩] w w₁ where
  setting := hacts.touches.setting
  size := hacts.touches.size
  inside := List.forall_mem_singleton.2 hid
  warnings := by rw [List.flatMap_singleton, Step.warnings_eq hrun h, h.warnings]
  dues d := by
    rw [warnings_cons, warnings_nil, List.append_nil, Step.warnings_eq hrun h,
      dues_congr hacts.touches.setting]
    by_cases hd : d = frame.document
    · subst hd
      rw [if_pos rfl]
      exact h.dues
    · rw [if_neg (Ne.symm hd), hacts.touches.document_ne hd]
      rfl

end Warns

/-- What steps on documentations of a workspace warn of is what they warn of for each of these. -/
theorem sum_warnings {n : Nat} (h : ∀ step ∈ steps, step.frame.document < n) :
    (↑(steps.flatMap Step.warnings) : Multiset Warning) =
      ∑ d ∈ Finset.range n, (↑(steps.warnings d) : Multiset Warning) := by
  induction steps with
  | nil => exact (Finset.sum_eq_zero fun _ _ => rfl).symm
  | cons step steps ih =>
    obtain ⟨hstep, hsteps⟩ := List.forall_mem_cons.1 h
    have hown : (∑ d ∈ Finset.range n,
        (↑(if step.frame.document = d then step.warnings else []) : Multiset Warning)) =
        ↑step.warnings := by
      simp only [apply_ite (fun warnings : List Warning => (↑warnings : Multiset Warning)),
        Multiset.coe_nil]
      rw [Finset.sum_ite_eq, if_pos (Finset.mem_range.2 hstep)]
    simp only [warnings_cons, ← Multiset.coe_add, Finset.sum_add_distrib]
    rw [List.flatMap_cons, ← Multiset.coe_add, hown, ih hsteps]

end Trace

theorem Workspace.Idle.drained (h : w.Idle) : w.Drained := fun d hd =>
  absurd hd (h d)

theorem Runs.warns (h : Runs stack w steps left w₁) (hstacked : w.Stacked stack) (hq : w.Quiet)
    (hdrained : w.Drained) : steps.Warns w w₁ := by
  induction h with
  | done => exact .refl _
  | broken hrun => exact absurd hq (hstacked.breaks hrun).loud
  | @step frame next stack left w w₁ w₂ steps hrun _ ih =>
    have hadvances := hstacked.advances hrun
    have hid := Frame.lt_size hstacked.top
    obtain ⟨due, hbrings⟩ := Action.advance_brings hq hstacked.top
      (fun hactive => hdrained _ (hstacked.top.trans hactive)) hrun
    refine (Trace.Warns.single hrun hid hadvances.toActs hbrings).trans
      (ih (hstacked.goesOn hadvances) (hadvances.touches.quiet hq) fun d hd => ?_)
    by_cases hne : d = frame.document
    · exact hne ▸ hbrings.drained
    · rw [hadvances.touches.document_ne hne] at hd ⊢
      exact hdrained d hd

theorem RunsThrough.warns (h : RunsThrough ids w steps left w₁) (hidle : w.Idle) (hq : w.Quiet) :
    steps.Warns w w₁ := by
  induction h with
  | nil => exact .refl _
  | skip _ _ ih => exact ih hidle hq
  | enter hstate hruns _ ih =>
    have hstacked := hidle.stacked hstate
    exact (hruns.warns hstacked hq hidle.drained).trans
      (ih (hruns.idle hstacked) (hruns.quiet hstacked hq))
  | broken hstate hruns _ => exact hruns.warns (hidle.stacked hstate) hq hidle.drained

theorem RunsCalls.warns (h : RunsCalls calls w steps w₁) (hidle : w.Idle) (hq : w.Quiet) :
    steps.Warns w w₁ := by
  induction h with
  | nil => exact .refl _
  | @cons call _ _ w₁ _ _ _ hcall _ ih =>
    have hrest := ih ((hcall.idle hidle).finish call) ((hcall.quiet hidle hq).finish call)
    refine (hcall.warns hidle hq).trans ?_
    cases call <;> exact { hrest with }

/-! ## What calls warn of -/

namespace Workspace

/-- The links that a comment leaves in the queue name a package. -/
theorem Collected.isQualified_of_mem (h : w.Collected) {package : PackageName}
    (hname : package.name ≠ []) (hidentity : w.identity = some package)
    (hd : d < w.documents.size) {link : PendingLink} (hlink : link ∈ (w.document d).pendingLinks) :
    link.target.isQualified = true := by
  obtain ⟨itemName, body, hparse⟩ := h.parsed hd
  have hqueued := (Documentation.Queued.of_parse hparse).pendingLinks
  have hpackage : w.surroundings.package = some package := hidentity
  rw [hpackage] at hqueued
  rw [hqueued] at hlink
  obtain ⟨place, hplace, rfl⟩ := List.mem_mapIdx.1 hlink
  obtain ⟨content, -, hcontent⟩ := List.mem_filterMap.1 (List.getElem_mem hplace)
  exact Link.isQualified_of_itemLink? hname hcontent

/-- What the queues of a comment will bring are its misses, once the links have their verdicts. -/
theorem dues_eq_misses
    (hqualified : ∀ link ∈ (w.document d).pendingLinks, link.target.isQualified = true)
    (hsettled : (w₁.document d).settledLinks =
      (w.document d).pendingLinks.map fun link => (link, w.verdict link.target)) :
    w.dues (w.document d) = w.misses w₁ d := by
  unfold dues misses linkMisses
  rw [hsettled]
  congr 1
  · clear hsettled
    generalize (w.document d).pendingLinks = links at hqualified
    induction links with
    | nil => rfl
    | cons link links ih =>
      obtain ⟨hlink, hlinks⟩ := List.forall_mem_cons.1 hqualified
      rw [List.flatMap_cons, ih hlinks, warnings_lookUp hlink, List.map_cons, List.filter_cons]
      by_cases hverdict : w.verdict link.target = .unresolved <;> simp [hverdict]
  · rw [List.filterMap_eq_flatMap_toList]
    simp only [warnings_lead]

/-- What the queues of a comment brought is what it had, if it was completed. -/
theorem Collected.warnsInOrder (hw : w.Collected) {package : PackageName}
    (hname : package.name ≠ []) (hidentity : w.identity = some package)
    (hcompletes : Completes ids w w₁) (hwarns : steps.Warns w w₁) (hd : d < w.documents.size)
    {itemName : Option Text} {body : Text}
    (hparse : Documentation.parse w.surroundings itemName body = .ok (w.document d)) :
    w.WarnsInOrder steps w₁ d (Token.tokenize body) := by
  have hqueued := Documentation.Queued.of_parse hparse
  have hdues := hwarns.dues d
  rw [dues_congr hwarns.setting] at hdues
  rcases hcompletes.state_of_fresh hw.fresh d with hstate | hstate
  · rw [hcompletes.document_eq_of_unvisited hstate, List.self_eq_append_left] at hdues
    refine ⟨hqueued.pendingLinks, hqueued.pendingInheritDocs, ?_, ?_⟩
    · rw [hstate]
      nofun
    · rw [hdues, hstate]
      rfl
  · obtain ⟨hlinks, hrequests⟩ := (drained_invariant w).of_fresh hw.fresh hcompletes d hstate
    have hsettled := hlinks.settled
    rw [(hw.wellRead hd).unsettled, List.nil_append] at hsettled
    refine ⟨hqueued.pendingLinks, hqueued.pendingInheritDocs, fun _ => ?_, ?_⟩
    · rw [hsettled, List.map_map]
      exact List.map_id _
    · have hpaid : w.dues (w₁.document d) = [] := by
        rw [dues, hlinks.drained, hrequests]
        rfl
      rw [hpaid, List.append_nil, dues_eq_misses (fun _ hlink =>
        hw.isQualified_of_mem hname hidentity hd hlink) hsettled] at hdues
      rw [if_pos hstate, hdues]

end Workspace

/-- Calls to complete a package whose name is known warn of the references that lead nowhere, of
each once. Altogether they warn of what the completed documentations miss: for each link that ended
unresolved there is one warning, and one for each request that is well formed, names a package and
leads nowhere. The steps on one documentation warn of its links first and then of its requests, both
in the order of the comment. -/
theorem Action.perform_warns_once (w : Workspace) (hw : w.Collected) {name : Text}
    {package : PackageName} (hname : PackageName.parse? name = some package)
    (hidentity : w.identity = some package) (hq : w.Quiet) (calls : List Call) :
    ∃ w₁ steps, (perform calls).run w = (.ok (), w₁) ∧ RunsCalls calls w steps w₁ ∧
      (∀ d ∈ w.named calls, (w₁.document d).state = .done) ∧
      w₁.warnings = w.warnings ++ steps.flatMap Step.warnings ∧
      (↑(steps.flatMap Step.warnings) : Multiset Warning) =
        ∑ d ∈ Finset.range w.documents.size with (w₁.document d).state = .done,
          (↑(w.misses w₁ d) : Multiset Warning) ∧
      ∀ d < w.documents.size, ∃ itemName body,
        Documentation.parse w.surroundings itemName body = .ok (w.document d) ∧
        w.WarnsInOrder steps w₁ d (Token.tokenize body) := by
  have hpart : package.name ≠ [] := (PackageName.full_of_ofFull? hname).2
  obtain ⟨w₁, hrun, hcompletes⟩ := run_perform hq calls
  obtain ⟨steps, w₁', hcalls, hrun'⟩ := exists_runsCalls hw.fresh.idle hq calls
  cases hrun.symm.trans hrun'
  have hwarns := hcalls.warns hw.fresh.idle hq
  have horder (d : DocId) (hd : d < w.documents.size) : ∃ itemName body,
      Documentation.parse w.surroundings itemName body = .ok (w.document d) ∧
      w.WarnsInOrder steps w₁ d (Token.tokenize body) := by
    obtain ⟨itemName, body, hparse⟩ := hw.parsed hd
    exact ⟨itemName, body, hparse, hw.warnsInOrder hpart hidentity hcompletes hwarns hd hparse⟩
  refine ⟨w₁, steps, hrun, hcalls, fun d hd => hcompletes.done_of_mem hw.fresh hd,
    hwarns.warnings, ?_, horder⟩
  rw [Trace.sum_warnings hwarns.inside, Finset.sum_filter]
  refine Finset.sum_congr rfl fun d hd => ?_
  obtain ⟨_, _, -, hwarned⟩ := horder d (Finset.mem_range.1 hd)
  rw [hwarned.warnings]
  split <;> rfl

/-- Two functions with a link each that leads nowhere. The first asks to inherit from the second,
then from an item that is not there, and then from a package of which nothing is known. -/
def Workspace.strayingPair : Workspace :=
  let w : Workspace :=
    { package := { name := some "p".toList }
      identity := some { scope := [], name := "p".toList }
      config := {} }
  let requests := "\x7b@inheritdoc g\x7d\x7b@inheritdoc y\x7d\x7b@inheritdoc q:z\x7d"
  let w₁ := ((Action.addItem [] "f".toList .function
    (requests ++ "\n@remarks \x7b@link x\x7d").toList).run w).2
  ((Action.addItem [] "g".toList .function "See \x7b@link u\x7d.".toList).run w₁).2

/-- The link of the second function is warned about between the link and the last request of the
first one. -/
theorem Action.perform_strayingPair_warns_once : strayingPair.Collected ∧ strayingPair.Quiet ∧
    strayingPair.identity = PackageName.parse? "p".toList ∧
    ∃ w₁ steps, (perform [.all]).run strayingPair = (.ok (), w₁) ∧
      RunsCalls [.all] strayingPair steps w₁ ∧
      w₁.warnings = [.unresolved ⟨⟨[], "p".toList⟩, "x".toList, []⟩,
        .unresolved ⟨⟨[], "p".toList⟩, "u".toList, []⟩,
        .unknownPackage ⟨⟨[], "q".toList⟩, "z".toList, []⟩] ∧
      steps.warnings 0 = [.unresolved ⟨⟨[], "p".toList⟩, "x".toList, []⟩,
        .unknownPackage ⟨⟨[], "q".toList⟩, "z".toList, []⟩] ∧
      steps.warnings 1 = [.unresolved ⟨⟨[], "p".toList⟩, "u".toList, []⟩] := by
  have hcollected : strayingPair.Collected := ((Collected.start rfl rfl).item ..).item ..
  have hidentity : strayingPair.identity = PackageName.parse? "p".toList := by cbv
  have hname : PackageName.parse? "p".toList = some { scope := [], name := "p".toList } := by cbv
  have hq : strayingPair.Quiet := quiet_of_faults_eq_nil (by cbv)
  obtain ⟨w₁, steps, hrun, hcalls, hdone, -, -, horder⟩ :=
    perform_warns_once strayingPair hcollected hname (hidentity.trans hname) hq [.all]
  have hw₁ : ((perform [.all]).run strayingPair).2 = w₁ := by rw [hrun]
  have hnamed : strayingPair.named [.all] = [0, 1] := by cbv
  have hsize : strayingPair.documents.size = 2 := by cbv
  rw [hnamed] at hdone
  rw [hsize] at horder
  obtain ⟨_, _, -, hfirst⟩ := horder 0 (by decide)
  obtain ⟨_, _, -, hsecond⟩ := horder 1 (by decide)
  have hwarnings₀ := hfirst.warnings
  have hwarnings₁ := hsecond.warnings
  rw [if_pos (hdone 0 (by decide)), ← hw₁] at hwarnings₀
  rw [if_pos (hdone 1 (by decide)), ← hw₁] at hwarnings₁
  refine ⟨hcollected, hq, hidentity, w₁, steps, hrun, hcalls, ?_, hwarnings₀.trans ?_,
    hwarnings₁.trans ?_⟩
  · rw [← hw₁]
    cbv
  · cbv
  · cbv

end

end ApiDoc
