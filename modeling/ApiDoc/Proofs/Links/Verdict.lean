import ApiDoc.Proofs.Inheritance.Visiting
import ApiDoc.Proofs.Links.Queue
import ApiDoc.Proofs.Workspace.Collected

/-!
# The verdicts on links

What becomes of the links of a package. A completed documentation shows no link without a status,
neither of its own comment nor inherited; every link of its comment got the verdict on its target,
shown or not, and was reported if it is restricted (`Documentation.LinksSettled`). Main statement:
`Action.perform_settles_links`, for every package that was put together by adding items, and every
order in which it is completed.

The invariant is that of a documentation at hand and of a completed one alike. The links of the own
comment are settled before anything is inherited, and what is inherited comes from a completed
documentation or from another package, as a copy that no longer follows a comment.
-/

namespace ApiDoc

open Workspace

/-- A link is settled: it has a status, and if it stands in the own comment, it is one of the queue
and has the verdict on its target. -/
structure ItemLink.Settled (queue : List PendingLink) (verdict : ItemKey → LinkStatus)
    (link : ItemLink) : Prop where
  complete : link.status ≠ .incomplete
  own : ∀ place, link.place = some place →
    { place, target := link.target } ∈ queue ∧ link.status = verdict link.target

/-- The links of a documentation are settled, from the queue that its comment left: those that it
shows, and in the order of the comment all of the queue. The restricted ones are reported, each
once. -/
structure Documentation.LinksSettled (queue : List PendingLink) (verdict : ItemKey → LinkStatus)
    (d : Documentation) : Prop where
  shown : d.content.AllLinks (ItemLink.Settled queue verdict)
  drained : d.pendingLinks = []
  settled : d.settledLinks = queue.map fun link => (link, verdict link.target)
  reported : d.problems.count .restrictedLink =
    d.settledLinks.countP fun entry => entry.2 = .restricted

/-- No link in what is known of other packages is without a status. -/
def Workspace.ExternalComplete (w : Workspace) : Prop :=
  ∀ items ∈ OrderedMap.values w.external, ∀ item ∈ OrderedMap.values items,
    item.content.AllLinks fun link => link.status ≠ .incomplete

section
variable {queue rest : List PendingLink} {verdict : ItemKey → LinkStatus} {link : ItemLink}
  {d : Documentation} {w₀ w : Workspace} {id : DocId} {content : Text}

/-! ## Settling a queue -/

theorem Workspace.verdict_ne_incomplete (w : Workspace) (key : ItemKey) :
    w.verdict key ≠ .incomplete := by
  unfold Workspace.verdict
  split
  · nofun
  · split <;> nofun

/-- A link that stands in the queue is still to be settled, or has its verdict. -/
def ItemLink.Awaits (queue : List PendingLink) (verdict : ItemKey → LinkStatus)
    (rest : List PendingLink) (link : ItemLink) : Prop :=
  ∃ place, link.place = some place ∧ { place, target := link.target } ∈ queue ∧
    ({ place, target := link.target } ∈ rest ∨ link.status = verdict link.target)

/-- One more link of the queue is settled. -/
theorem ItemLink.Awaits.settle (hqueue : InOrder queue) {q : PendingLink} (hq : q ∈ queue)
    (h : link.Awaits queue verdict (q :: rest)) :
    (link.settle q.place (verdict q.target)).Awaits queue verdict rest := by
  obtain ⟨place, hplace, hmem, hstatus⟩ := h
  unfold ItemLink.settle
  split
  · next hsame =>
    have hplace' : q.place = place := Option.some.inj (hsame.symm.trans hplace)
    have hentry := hqueue.unique hq hmem hplace'
    exact ⟨place, hplace, hmem, .inr (by rw [hentry])⟩
  · next hother =>
    refine ⟨place, hplace, hmem, hstatus.imp_left fun hrest => ?_⟩
    refine (List.mem_cons.1 hrest).resolve_left fun heq => hother ?_
    rw [hplace, ← heq]

/-- Settling the queue settles every link in it that is shown. -/
theorem Content.AllLinks.foldl_settle {c : Content} (hqueue : InOrder queue) (hrest : rest ⊆ queue)
    (h : c.AllLinks (ItemLink.Awaits queue verdict rest)) :
    (rest.foldl (fun c q => c.settle q.place (verdict q.target)) c).AllLinks
      (ItemLink.Awaits queue verdict []) := by
  induction rest generalizing c with
  | nil => exact h
  | cons q rest ih =>
    obtain ⟨hq, hrest⟩ := List.cons_subset.1 hrest
    exact ih hrest (h.settle fun _ hlink => hlink.settle hqueue hq)

namespace Documentation

/-- After the links of a comment were looked up, they are settled. -/
theorem WellRead.linksSettled (h : d.WellRead) (hverdict : ∀ key, verdict key ≠ .incomplete)
    (state : CompletionState) :
    ((d.withState state).settleLinks verdict).LinksSettled d.pendingLinks verdict := by
  rw [settleLinks, settleAll_eq]
  refine ⟨?_, List.drop_length, ?_, ?_⟩
  · have hqueued : d.content.AllLinks (ItemLink.Awaits d.pendingLinks verdict d.pendingLinks) := by
      refine h.shown.mono fun link hlink => ?_
      obtain ⟨place, hplace, hmem⟩ := hlink
      exact ⟨place, hplace, hmem, .inl hmem⟩
    refine (hqueued.foldl_settle h.order (List.Subset.refl _)).mono fun link hlink => ?_
    obtain ⟨place, hplace, hmem, hstatus⟩ := hlink
    have hstatus := hstatus.resolve_left List.not_mem_nil
    refine ⟨hstatus ▸ hverdict link.target, fun place' hplace' => ?_⟩
    rw [hplace'] at hplace
    cases hplace
    exact ⟨hmem, hstatus⟩
  · change d.settledLinks ++ _ = _
    rw [h.unsettled]
    rfl
  · change (d.problems ++ _).count _ = (d.settledLinks ++ _).countP _
    rw [h.unsettled, List.nil_append, List.countP_map, List.count_append,
      List.count_eq_zero.2 h.unreported, List.count_replicate_self, Nat.zero_add]
    rfl

/-! ## What comes after -/

namespace LinksSettled

theorem report (h : d.LinksSettled queue verdict) {p : Problem} (hp : p ≠ .restrictedLink) :
    (d.report p).LinksSettled queue verdict :=
  { h with
    reported := by
      have hother : .restrictedLink ∉ [p] := by simpa using hp.symm
      change (d.problems ++ [p]).count _ = d.settledLinks.countP _
      rw [List.count_append, List.count_eq_zero.2 hother, h.reported, Nat.add_zero] }

/-- What is inherited is a copy of settled links. -/
theorem inherit (h : d.LinksSettled queue verdict) {source : ResolvedItem}
    (hsource : source.content.AllLinks fun link => link.status ≠ .incomplete) :
    (d.inherit source).LinksSettled queue verdict := by
  have hcopy : source.content.detach.AllLinks (ItemLink.Settled queue verdict) :=
    hsource.detach fun _ hstatus => ⟨hstatus, nofun⟩
  refine { h with shown := ?_ }
  unfold Documentation.inherit
  dsimp only
  split
  · exact { hcopy with deprecatedMessage := h.shown.deprecatedMessage }
  · exact { h.shown with summary := hcopy.summary, remarks := hcopy.remarks }

theorem pointTo (h : d.LinksSettled queue verdict) (content : Text) :
    (d.pointTo content).LinksSettled queue verdict :=
  { h with
    shown := { h.shown with summary := .of_links_nil (Prose.links_ofText _) } }

theorem dropInheritDoc (h : d.LinksSettled queue verdict) :
    d.dropInheritDoc.LinksSettled queue verdict :=
  { h with }

/-- An answer on the spot adds no link without a status. -/
theorem answer (h : d.LinksSettled queue verdict) (content : Text) {lead : Lead}
    (hexternal : ∀ item, lead = .external item →
      item.content.AllLinks fun link => link.status ≠ .incomplete) :
    (d.answer content lead).LinksSettled queue verdict := by
  cases lead with
  | blank | own kind source => exact h.report nofun
  | malformed e => exact (h.report (p := .inheritDocReference e) nofun).report nofun
  | nowhere warning => exact h.pointTo content
  | external item => exact h.inherit (hexternal item rfl)

theorem conclude (h : d.LinksSettled queue verdict) (enforced : Bool) :
    (d.conclude enforced).LinksSettled queue verdict := by
  unfold Documentation.conclude Documentation.reportIf
  split
  · exact { h.report (p := .deprecationNotRestated) nofun with }
  · exact { h with }

end LinksSettled

end Documentation

/-! ## The invariant -/

theorem Workspace.ExternalComplete.of_lead (h : w.ExternalComplete) {item : ResolvedItem}
    (hlead : w.lead content = .external item) :
    item.content.AllLinks fun link => link.status ≠ .incomplete := by
  obtain ⟨items, hitems, hitem⟩ := exists_items_of_lead hlead
  exact h items hitems item hitem

/-- The links of a documentation are settled at a stage of the completion of `w₀`. -/
def Workspace.SettlesLinks (w₀ w : Workspace) (id : DocId) : Prop :=
  (w.document id).LinksSettled (w₀.document id).pendingLinks w₀.verdict

/-- All through a completion, the links of what is begun are settled. -/
theorem settlesLinks_invariant (hread : ∀ d < w₀.documents.size, (w₀.document d).WellRead)
    (hexternal : w₀.ExternalComplete) : Invariant w₀ w₀.SettlesLinks w₀.SettlesLinks where
  outside {w d} hw hd := by
    unfold Workspace.SettlesLinks
    rw [document_of_size_le hd, document_of_size_le (hw.size ▸ hd)]
    exact ⟨⟨nofun, nofun, nofun, nofun, nofun⟩, rfl, rfl, rfl⟩
  begin {w id} hv hstate := by
    have hid : id < w₀.documents.size := by
      rw [← hv.evolves.size]
      exact lt_size_of_state_ne (by rw [hstate]; decide)
    unfold Workspace.SettlesLinks
    rw [Visiting.document_begun hstate, hv.untouched id hstate, hv.evolves.verdict]
    exact (hread id hid).linksSettled w₀.verdict_ne_incomplete _
  answer {w id content rest} hv _ _ hbegun := by
    unfold Workspace.SettlesLinks
    rw [hv.document_answered, hv.evolves.lead]
    exact hbegun.dropInheritDoc.answer content fun item hlead => hexternal.of_lead hlead
  inherit {w w₁ id content rest kind source} hv _ _ _ hsame _ hsource hbegun := by
    unfold Workspace.SettlesLinks
    rw [hv.document_copied hsame]
    exact hbegun.dropInheritDoc.inherit (hsource.shown.mono fun _ hlink => hlink.complete)
  conclude {w id} hv _ hbegun := by
    unfold Workspace.SettlesLinks
    rw [hv.document_concluded]
    exact hbegun.conclude _
  stable {w w₁ d} _ hpreserves hstate hdone := by
    unfold Workspace.SettlesLinks
    rw [hpreserves.done d hstate]
    exact hdone

end

theorem Workspace.Collected.wellRead {w : Workspace} (h : w.Collected) {d : DocId}
    (hd : d < w.documents.size) : (w.document d).WellRead := by
  obtain ⟨around, itemName, body, hparse⟩ := h.exists_parse hd
  exact Documentation.wellRead_of_parse hparse

/-- In a package that was not completed nothing is begun. -/
theorem Workspace.Collected.fresh {w : Workspace} (h : w.Collected) : w.Fresh :=
  fun _ hd => (h.wellRead hd).unvisited

/-- Calls that complete every item settle the links of every item: none that an item shows is left
without a status, and each of its own comment has the verdict on its target. -/
theorem Action.perform_settles_links (w : Workspace) (hw : w.Collected)
    (hexternal : w.ExternalComplete) (hq : w.Quiet) (calls : List Call)
    (hcalls : ∀ item ∈ w.package.items, item.doc ∈ w.named calls) :
    ∃ w₁, (perform calls).run w = (.ok (), w₁) ∧ ∀ item ∈ w.package.items,
      (w₁.document item.doc).LinksSettled (w.document item.doc).pendingLinks w.verdict := by
  obtain ⟨w₁, hrun, hcompletes⟩ := run_perform hq calls
  refine ⟨w₁, hrun, fun item hitem => ?_⟩
  have hinvariant := settlesLinks_invariant (fun _ hd => hw.wellRead hd) hexternal
  exact hinvariant.of_fresh hw.fresh hcompletes item.doc
    (hcompletes.done_of_mem hw.fresh (hcalls item hitem))

/-- A function with a link to another one that is internal. -/
def Workspace.linkedPair : Workspace :=
  let w : Workspace :=
    { package := { name := some "p".toList }
      identity := some { scope := [], name := "p".toList }
      config := {} }
  let w₁ := ((Action.addItem [] "f".toList .function "See \x7b@link p:g\x7d.".toList).run w).2
  ((Action.addItem [] "g".toList .function "@internal".toList).run w₁).2

theorem Action.perform_linkedPair_settles_links :
    linkedPair.Collected ∧ linkedPair.ExternalComplete ∧ linkedPair.Quiet ∧
    (∀ item ∈ linkedPair.package.items, item.doc ∈ linkedPair.named [.all]) ∧
    ∃ w₁, (perform [.all]).run linkedPair = (.ok (), w₁) ∧
      (w₁.document 0).settledLinks.map Prod.snd = [.restricted] ∧
      (w₁.document 0).problems.count .restrictedLink = 1 := by
  have hcollected : linkedPair.Collected := ((Collected.start rfl rfl).item ..).item ..
  have hexternal : linkedPair.ExternalComplete := by
    have hempty : linkedPair.external = [] := by cbv
    intro items hitems
    rw [hempty] at hitems
    cases hitems
  have hq : linkedPair.Quiet := by
    have hempty : linkedPair.faults = [] := by cbv
    unfold Workspace.Quiet
    rw [hempty]
    exact List.not_mem_nil
  have hcalls : ∀ item ∈ linkedPair.package.items, item.doc ∈ linkedPair.named [.all] :=
    fun _ hitem => mem_named_of_all (by decide) hitem
  obtain ⟨w₁, hrun, hitems⟩ :=
    perform_settles_links linkedPair hcollected hexternal hq [.all] hcalls
  have hitem : .mk "f".toList .function 0 [] ∈ linkedPair.package.items := by
    have hall : linkedPair.package.items =
        [.mk "f".toList .function 0 [], .mk "g".toList .function 1 []] := by cbv
    rw [hall]
    exact List.mem_cons_self
  have hsettled : (w₁.document 0).LinksSettled (linkedPair.document 0).pendingLinks
      linkedPair.verdict := hitems _ hitem
  have hverdicts : (linkedPair.document 0).pendingLinks.map (linkedPair.verdict ·.target) =
      [.restricted] := by cbv
  have hlinks : (w₁.document 0).settledLinks.map Prod.snd = [.restricted] := by
    rw [← hverdicts, hsettled.settled, List.map_map]
    rfl
  refine ⟨hcollected, hexternal, hq, hcalls, w₁, hrun, hlinks, ?_⟩
  have hcount : ((w₁.document 0).settledLinks.map Prod.snd).countP (· = .restricted) = 1 := by
    rw [hlinks]
    rfl
  rw [List.countP_map] at hcount
  exact hsettled.reported.trans hcount

end ApiDoc
