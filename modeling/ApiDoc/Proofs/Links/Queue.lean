import ApiDoc.Proofs.Completion.Calls
import ApiDoc.Proofs.Links.Shown
import ApiDoc.Proofs.OrderedMap
import ApiDoc.Proofs.Sections.Complaints

/-!
# Links as comments leave them

What the reading of a comment guarantees about its links: they are numbered in the order in which
they stand in the queue, and whatever link the documentation shows stands in the queue at its
number, with its target (`Documentation.WellRead`). A link may stand in the queue and not be shown,
since a later section replaced its block or its section is left out. Main statement:
`Documentation.wellRead_of_parse`.
-/

namespace ApiDoc

/-- The links of a queue are numbered in their order. -/
def InOrder (queue : List PendingLink) : Prop :=
  ∀ i (h : i < queue.length), queue[i].place = i

/-- A link stands in a queue, at its number and with its target. -/
def ItemLink.QueuedIn (queue : List PendingLink) (link : ItemLink) : Prop :=
  ∃ place, link.place = some place ∧ { place, target := link.target } ∈ queue

/-- A documentation counts as failed if and only if it has problems. -/
def Documentation.FailsByProblems (d : Documentation) : Prop :=
  d.hasFailed = true ↔ d.problems ≠ []

/-- A documentation as the reading of its comment leaves it. -/
structure Documentation.WellRead (d : Documentation) : Prop where
  order : InOrder d.pendingLinks
  shown : d.content.AllLinks (ItemLink.QueuedIn d.pendingLinks)
  failed : d.FailsByProblems
  unreported : .restrictedLink ∉ d.problems
  unsettled : d.settledLinks = []
  unvisited : d.state = .unvisited

section
variable {queue : List PendingLink} {link : ItemLink} {d d₁ : Documentation}
  {elements elements₁ : Block}

/-- Links at the same place of a queue are the same. -/
theorem InOrder.unique (h : InOrder queue) {p q : PendingLink} (hp : p ∈ queue) (hq : q ∈ queue)
    (hplace : p.place = q.place) : p = q := by
  obtain ⟨i, hi, rfl⟩ := List.getElem_of_mem hp
  obtain ⟨j, hj, rfl⟩ := List.getElem_of_mem hq
  rw [h i hi, h j hj] at hplace
  subst hplace
  rfl

/-- The next link of a queue has its length for a number. -/
theorem InOrder.push (h : InOrder queue) (target : ItemKey) :
    InOrder (queue ++ [{ place := queue.length, target }]) := by
  intro i hi
  rw [List.getElem_append]
  split
  · next hlt => exact h i hlt
  · next hge =>
    simp only [List.length_append, List.length_singleton] at hi
    simp only [List.getElem_singleton]
    omega

theorem ItemLink.QueuedIn.push (h : link.QueuedIn queue) (q : PendingLink) :
    link.QueuedIn (queue ++ [q]) := by
  obtain ⟨place, hplace, hmem⟩ := h
  exact ⟨place, hplace, List.mem_append_left _ hmem⟩

/-! ## Reading a run -/

namespace Documentation

theorem failsByProblems_report (p : Problem) (d : Documentation) : (d.report p).FailsByProblems :=
  iff_of_true rfl (List.append_ne_nil_of_right_ne_nil _ (List.cons_ne_nil _ _))

theorem WellRead.report (h : d.WellRead) {p : Problem} (hp : p ≠ .restrictedLink) :
    (d.report p).WellRead :=
  { h with
    failed := failsByProblems_report p d
    unreported := by
      intro hmem
      rcases List.mem_append.1 hmem with hmem | hmem
      · exact h.unreported hmem
      · exact hp (List.mem_singleton.1 hmem).symm }

theorem WellRead.reportIf (h : d.WellRead) (condition : Bool) {p : Problem}
    (hp : p ≠ .restrictedLink) : (d.reportIf condition p).WellRead := by
  unfold Documentation.reportIf
  split
  · exact h.report hp
  · exact h

@[simp] theorem pendingLinks_reportIf (condition : Bool) (p : Problem) (d : Documentation) :
    (d.reportIf condition p).pendingLinks = d.pendingLinks := by
  unfold Documentation.reportIf
  split <;> rfl

/-- A documentation and the elements of a run so far, whose links stand in the queue too. -/
def ReadSoFar (p : Block × Documentation) : Prop :=
  p.2.WellRead ∧ Block.AllLinks (ItemLink.QueuedIn p.2.pendingLinks) p.1

/-- The link of an element gets a place in the queue. -/
theorem WellRead.enqueueLink (h : d.WellRead)
    (helements : Block.AllLinks (ItemLink.QueuedIn d.pendingLinks) elements) (e : Element) :
    ReadSoFar (elements ++ [(d.enqueueLink e).1], (d.enqueueLink e).2) := by
  cases e with
  | itemLink link =>
    refine ⟨{ h with
      order := h.order.push link.target
      shown := h.shown.mono fun _ hqueued => hqueued.push _ }, ?_⟩
    refine (helements.mono fun _ hqueued => hqueued.push _).append ?_
    intro shown hmem
    cases List.mem_singleton.1 hmem
    exact ⟨d.pendingLinks.length, rfl, List.mem_append_right _ List.mem_cons_self⟩
  | text | paragraph | htmlTag | webLink =>
    exact ⟨h, helements.append (.of_links_nil rfl)⟩

theorem ReadSoFar.readPiece {package : Option PackageName} {p p₁ : Block × Documentation}
    (h : ReadSoFar p) (piece : Piece) (hread : Documentation.readPiece package p piece = .ok p₁) :
    ReadSoFar p₁ := by
  obtain ⟨elements, d⟩ := p
  obtain ⟨hd, helements⟩ := h
  cases piece with
  | text chars =>
    cases hread
    exact ⟨hd, helements.append (.of_links_nil (Prose.links_parse chars))⟩
  | inheritDoc content =>
    cases hread
    have hreported := hd.reportIf (Block.hasContent elements || Block.hasContent d.content.summary)
      (p := .summaryNotAllowed) (by decide)
    refine ⟨{ hreported with }, ?_⟩
    change Block.AllLinks (ItemLink.QueuedIn (d.reportIf _ _).pendingLinks) elements
    rw [pendingLinks_reportIf]
    exact helements
  | link content =>
    simp only [Documentation.readPiece] at hread
    split at hread
    · cases hread
      exact hd.enqueueLink helements _
    · cases hread
      exact ⟨hd.report Problem.noConfusion, helements⟩
    · cases hread

end Documentation

namespace Documentation

theorem WellRead.readRun (h : d.WellRead) {package : Option PackageName} {run : Run}
    {p : Block × Documentation} (hread : Documentation.readRun package d run = .ok p) :
    ReadSoFar p := by
  refine foldlM_keeps (fun piece _ _ _ hp hpiece => hp.readPiece piece hpiece) ?_ hread
  exact ⟨h, .of_links_nil rfl⟩

/-! ## Reading a section -/

/-- The blocks may be replaced by others whose links stand in the queue. -/
theorem WellRead.withContent (h : d.WellRead) {c : Content}
    (hc : c.AllLinks (ItemLink.QueuedIn d.pendingLinks)) : WellRead { d with content := c } :=
  { h with shown := hc }

theorem WellRead.checkSection (h : d.WellRead) (tag : BlockTag) : (d.checkSection tag).WellRead :=
  h.reportIf _ nofun

theorem tagProblem_ne_restrictedLink (token : Token) : tagProblem token ≠ .restrictedLink := by
  unfold tagProblem
  dsimp only
  split <;> nofun

/-- The documentation that an action on a run gives, from the run's elements. -/
theorem WellRead.readRun_bind (h : d.WellRead) {package : Option PackageName} {run : Run}
    {f : Block × Documentation → Except MissingPackage Documentation}
    (hf : ∀ p, ReadSoFar p → f p = .ok d₁ → d₁.WellRead)
    (hread : (Documentation.readRun package d run >>= f) = .ok d₁) : d₁.WellRead := by
  obtain ⟨p, hrun, hok⟩ := exists_of_bind_eq_ok hread
  exact hf p (h.readRun hrun) hok

theorem WellRead.readSection (h : d.WellRead) {around : Surroundings} {s : Section}
    (hs : s ≠ .badParam .restrictedLink) (hread : Documentation.readSection around d s = .ok d₁) :
    d₁.WellRead := by
  cases s with
  | remarks run =>
    refine (h.checkSection .remarks).readRun_bind (fun p hp hok => ?_) hread
    cases hok
    exact hp.1.withContent { hp.1.shown with remarks := hp.2.normalize }
  | returns run =>
    refine (h.checkSection .returns).readRun_bind (fun p hp hok => ?_) hread
    cases hok
    exact hp.1.withContent { hp.1.shown with returnsMessage := hp.2.normalize }
  | param name lead run =>
    refine (h.checkSection .param).readRun_bind (fun p hp hok => ?_) hread
    cases hok
    refine hp.1.withContent { hp.1.shown with parameters := fun b hb => ?_ }
    rcases OrderedMap.mem_values_put hb with rfl | hb
    · exact ((Block.AllLinks.of_links_nil (Prose.links_parse lead)).append hp.2).normalize
    · exact hp.1.shown.parameters b hb
  | badParam problem =>
    cases hread
    refine (h.checkSection .param).report ?_
    rintro rfl
    exact hs rfl
  | deprecated run =>
    refine h.readRun_bind (fun p hp hok => ?_) hread
    cases hok
    refine WellRead.reportIf ?_ _ nofun
    exact hp.1.withContent { hp.1.shown with deprecatedMessage := hp.2.normalize }
  | internalRemarks run | stray run =>
    refine h.readRun_bind (fun p hp hok => ?_) hread
    cases hok
    exact hp.1
  | release tag | flag f =>
    cases hread
    exact { h with }
  | unsupported token =>
    cases hread
    exact h.report (tagProblem_ne_restrictedLink token)
  | strayText chars =>
    cases hread
    exact h.reportIf _ nofun

/-! ## Reading a comment -/

theorem WellRead.finish (h : d.WellRead) (releaseTags : Nat) : (d.finish releaseTags).WellRead := by
  have hd : ((d.reportIf d.omitsDeprecation .deprecationNotRestated).reportIf (1 < releaseTags)
      .manyReleaseTags).WellRead := by
    refine WellRead.reportIf (p := .manyReleaseTags) ?_ _ nofun
    exact h.reportIf _ nofun
  unfold Documentation.finish
  dsimp only
  refine WellRead.reportIf (p := .virtualAndOverride) ?_ _ nofun
  refine WellRead.reportIf (p := .sealedAndVirtual) ?_ _ nofun
  split
  · exact { hd.report (p := .preapprovedNotInternal) nofun with }
  · exact hd

end Documentation

namespace Documentation

theorem wellRead_start (itemName : Option Text) (badBraces : Nat) :
    WellRead (opened itemName badBraces) := by
  refine ⟨nofun, ⟨nofun, nofun, nofun, nofun, nofun⟩, ?_, fun hmem => ?_, rfl, rfl⟩
  · simp [FailsByProblems, opened, Nat.pos_iff_ne_zero]
  · cases List.eq_of_mem_replicate hmem

/-- A comment is well read. -/
theorem wellRead_of_parse {around : Surroundings} {itemName : Option Text} {body : Text}
    (hparse : Documentation.parse around itemName body = .ok d) : d.WellRead := by
  unfold Documentation.parse Documentation.ofOutline at hparse
  refine (wellRead_start itemName (Token.badBraces body)).readRun_bind (fun p hp hok => ?_) hparse
  have hsummary : WellRead { p.2 with content.summary := Block.normalize p.1 } :=
    hp.1.withContent { hp.1.shown with summary := hp.2.normalize }
  obtain ⟨d₁, hsections, hok⟩ := exists_of_bind_eq_ok hok
  cases hok
  refine WellRead.finish ?_ _
  refine foldlM_keeps (fun s hs _ _ hd hread => hd.readSection ?_ hread) hsummary hsections
  rintro rfl
  cases Section.isOfParam_of_mem hs

end Documentation

end

end ApiDoc
