import ApiDoc.Proofs.Sections.Inline
import ApiDoc.Proofs.Workspace.Reading

/-!
# What the queues of a comment hold

After its reading a comment has two queues, for the work that concerns other items. The links are
those that its link tags write to items, and the requests are the contents of its tags that ask to
inherit, each once and in the order of the comment, wherever it stands and whatever becomes of the
text around it. A link that is shown is one of these, at its place.

The proof follows the runs of the comment: what was read so far is one long run, each piece adds its
entry (`Documentation.QueuedSoFar.readPiece`), and a section adds its run. Main statement:
`Documentation.queues_of_parse`.
-/

namespace ApiDoc

/-- The link to an item that the content of a link tag writes, if it writes one. -/
def Link.itemLink? (package : Option PackageName) (content : Text) : Option ItemLink :=
  match parse package content with
  | .link e => e.link?
  | .malformed _ | .missingPackage => none

/-- The links to items that a run writes. -/
def Run.itemLinks (package : Option PackageName) (run : Run) : List ItemLink :=
  (run.contents .link).filterMap (Link.itemLink? package)

/-- A link as it waits in the queue, at its place there. -/
def ItemLink.pending (place : Nat) (link : ItemLink) : PendingLink where
  place := place
  target := link.target

/-- A link is one of some links, and has its number for a place. -/
def ItemLink.PlacedIn (links : List ItemLink) (link : ItemLink) : Prop :=
  ∃ (place : Nat) (written : ItemLink),
    links[place]? = some written ∧ link = { written with place := some place }

namespace Documentation

/-- The queues of a documentation hold some links and some requests, and only such links are
shown. -/
structure Queued (links : List ItemLink) (requests : List Text) (d : Documentation) : Prop where
  pendingLinks : d.pendingLinks = links.mapIdx ItemLink.pending
  pendingInheritDocs : d.pendingInheritDocs = requests
  isInherited : d.isInherited = true ↔ requests ≠ []
  shown : d.content.AllLinks (ItemLink.PlacedIn links)

/-- The queues hold what a run has written, and of the block that is put together it is so too. -/
def QueuedSoFar (package : Option PackageName) (run : Run) (r : Block × Documentation) : Prop :=
  Queued (run.itemLinks package) (run.contents .inheritDoc) r.2 ∧
    r.1.AllLinks (ItemLink.PlacedIn (run.itemLinks package))

end Documentation

section
variable {links : List ItemLink} {link : ItemLink} {package : Option PackageName}
  {run read : Run} {d d₁ : Documentation} {requests : List Text}

/-! ## Links and their places -/

theorem ItemLink.PlacedIn.append (h : link.PlacedIn links) (more : List ItemLink) :
    link.PlacedIn (links ++ more) := by
  obtain ⟨place, written, hplace, rfl⟩ := h
  refine ⟨place, written, ?_, rfl⟩
  rw [List.getElem?_append_left (List.getElem?_eq_some_iff.1 hplace).1, hplace]

theorem ItemLink.placedIn_last (links : List ItemLink) (link : ItemLink) :
    PlacedIn (links ++ [link]) { link with place := some links.length } :=
  ⟨links.length, link, List.getElem?_concat_length, rfl⟩

theorem Run.contents_concat (tag : InlineTag) (run : Run) (piece : Piece) :
    contents tag (run ++ [piece]) = contents tag run ++ (piece.content? tag).toList := by
  rw [contents_append, contents_cons]
  exact congrArg (_ ++ ·) (List.append_nil _)

theorem Run.itemLinks_concat (run : Run) (piece : Piece) :
    itemLinks package (run ++ [piece]) = itemLinks package run ++
      ((piece.content? .link).bind (Link.itemLink? package)).toList := by
  rw [itemLinks, contents_concat, List.filterMap_append]
  cases piece.content? .link with
  | none => rfl
  | some content =>
    rw [Option.toList_some, List.filterMap_cons, Option.bind_some]
    cases Link.itemLink? package content <;> rfl

/-! ## Reading -/

namespace Documentation

/-- What does not concern the queues keeps what they hold. -/
theorem Queued.of_eq (h : d.Queued links requests) (hlinks : d₁.pendingLinks = d.pendingLinks)
    (hrequests : d₁.pendingInheritDocs = d.pendingInheritDocs)
    (hinherited : d₁.isInherited = d.isInherited)
    (hshown : d₁.content.AllLinks (ItemLink.PlacedIn links)) : d₁.Queued links requests where
  pendingLinks := hlinks.trans h.pendingLinks
  pendingInheritDocs := hrequests.trans h.pendingInheritDocs
  isInherited := hinherited ▸ h.isInherited
  shown := hshown

theorem Queued.reportIf (h : d.Queued links requests) (condition : Bool) (p : Problem) :
    (d.reportIf condition p).Queued links requests := by
  obtain ⟨problems, hasFailed, heq⟩ := exists_reportIf_eq condition p d
  rw [heq]
  exact { h with }

/-- One more request. -/
theorem Queued.ask (h : d.Queued links requests) (content : Text) :
    Queued links (requests ++ [content]) { d with
      pendingInheritDocs := d.pendingInheritDocs ++ [content]
      isInherited := true } where
  pendingLinks := h.pendingLinks
  pendingInheritDocs := congrArg (· ++ [content]) h.pendingInheritDocs
  isInherited := by simp
  shown := h.shown

/-- One more link to an item. -/
theorem Queued.push (h : d.Queued links requests) (link : ItemLink) :
    Queued (links ++ [link]) requests (d.enqueueLink (.itemLink link)).2 where
  pendingLinks := by
    have hlength : d.pendingLinks.length = links.length := by
      rw [h.pendingLinks, List.length_mapIdx]
    rw [List.mapIdx_concat, ← h.pendingLinks, ← hlength]
    rfl
  pendingInheritDocs := h.pendingInheritDocs
  isInherited := h.isInherited
  shown := h.shown.mono fun _ hplaced => hplaced.append [link]

/-- A piece adds what it writes. -/
theorem QueuedSoFar.readPiece {r r₁ : Block × Documentation} (h : QueuedSoFar package read r)
    {piece : Piece} (hread : Documentation.readPiece package r piece = .ok r₁) :
    QueuedSoFar package (read ++ [piece]) r₁ := by
  obtain ⟨elements, d⟩ := r
  obtain ⟨hd, helements⟩ := h
  rw [QueuedSoFar, Run.itemLinks_concat, Run.contents_concat]
  cases piece with
  | text chars =>
    cases hread
    simp only [Piece.content?, Option.bind_none, Option.toList_none, List.append_nil]
    exact ⟨hd, helements.append (.of_links_nil (Prose.links_parse chars))⟩
  | inheritDoc content =>
    cases hread
    simp only [Piece.content?, reduceCtorEq, if_false, if_true, Option.bind_none,
      Option.toList_none, List.append_nil]
    exact ⟨(hd.reportIf _ _).ask content, helements⟩
  | link content =>
    simp only [Piece.content?, reduceCtorEq, if_false, if_true, Option.bind_some,
      Option.toList_none, List.append_nil]
    simp only [Documentation.readPiece] at hread
    split at hread
    · next e he =>
      cases hread
      rw [Link.itemLink?, he]
      cases e with
      | itemLink link =>
        have hlength : d.pendingLinks.length = (read.itemLinks package).length := by
          rw [hd.pendingLinks, List.length_mapIdx]
        refine ⟨hd.push link, (helements.mono fun _ h => h.append [link]).append ?_⟩
        intro shown hmem
        cases List.mem_singleton.1 hmem
        rw [hlength]
        exact ItemLink.placedIn_last _ link
      | text | paragraph | htmlTag | webLink =>
        simp only [Element.link?, Option.toList_none, List.append_nil]
        exact ⟨hd, helements.append (.of_links_nil rfl)⟩
    · next e he =>
      cases hread
      rw [Link.itemLink?, he]
      simp only [Option.toList_none, List.append_nil]
      exact ⟨hd.reportIf true (.link e), helements⟩
    · cases hread

/-- A run adds what it writes. -/
theorem Queued.readRun (h : d.Queued (read.itemLinks package) (read.contents .inheritDoc))
    {r : Block × Documentation} (hread : Documentation.readRun package d run = .ok r) :
    QueuedSoFar package (read ++ run) r := by
  have hcollects := foldlM_collects (g := fun piece => [piece]) (P := QueuedSoFar package)
    (fun hr hpiece => hr.readPiece hpiece) ⟨h, .of_links_nil rfl⟩ hread
  rwa [List.flatMap_singleton'] at hcollects

/-- A section adds what its run writes. -/
theorem Queued.readSection {around : Surroundings} {s : Section}
    (h : d.Queued (read.itemLinks around.package) (read.contents .inheritDoc))
    (hread : Documentation.readSection around d s = .ok d₁) :
    d₁.Queued ((read ++ s.run).itemLinks around.package)
      ((read ++ s.run).contents .inheritDoc) := by
  obtain ⟨problems, hasFailed, put, hput, heq⟩ := exists_readSection_eq around d s
  have hproblems : Queued (read.itemLinks around.package) (read.contents .inheritDoc)
      { d with problems, hasFailed } := { h with }
  rw [heq] at hread
  cases hrun : Documentation.readRun around.package { d with problems, hasFailed } s.run with
  | error e =>
    rw [hrun] at hread
    cases hread
  | ok r =>
    rw [hrun] at hread
    cases hread
    obtain ⟨hd, helements⟩ := hproblems.readRun hrun
    exact hd.of_eq (hput.pendingLinks r) (hput.pendingInheritDocs r) (hput.isInherited r)
      (hput.shown _ r hd.shown helements)

theorem Queued.finish (h : d.Queued links requests) (releaseTags : Nat) :
    (d.finish releaseTags).Queued links requests := by
  unfold Documentation.finish
  dsimp only
  refine Queued.reportIf (Queued.reportIf ?_ _ _) _ _
  have hchecked := (h.reportIf d.omitsDeprecation .deprecationNotRestated).reportIf
    (1 < releaseTags) .manyReleaseTags
  split
  · exact { hchecked.reportIf true .preapprovedNotInternal with }
  · exact hchecked

/-- What was read of a comment is all of its runs. -/
theorem Queued.of_parse {around : Surroundings} {itemName : Option Text} {body : Text}
    (hparse : parse around itemName body = .ok d) :
    d.Queued ((Token.contents .link (Token.tokenize body)).filterMap
      (Link.itemLink? around.package)) (Token.contents .inheritDoc (Token.tokenize body)) := by
  obtain ⟨r, hsummary, hparse⟩ := exists_of_bind_eq_ok hparse
  obtain ⟨d₁, hsections, hok⟩ := exists_of_bind_eq_ok hparse
  cases hok
  have hstart : Queued (Run.itemLinks around.package []) (Run.contents .inheritDoc [])
      (opened itemName (Token.badBraces body)) :=
    ⟨rfl, rfl, by simp [Run.contents, opened], ⟨nofun, nofun, nofun, nofun, nofun⟩⟩
  obtain ⟨hd, helements⟩ := hstart.readRun hsummary
  have hread : Queued _ _ { r.2 with content.summary := Block.normalize r.1 } :=
    hd.of_eq rfl rfl rfl { hd.shown with summary := helements.normalize }
  have hall := foldlM_collects (g := Section.run)
    (P := fun run d => Queued (Run.itemLinks around.package run) (Run.contents .inheritDoc run) d)
    (fun hd hsection => hd.readSection hsection) hread hsections
  rw [← Outline.contents_ofTokens, ← Outline.contents_ofTokens]
  exact hall.finish _

/-- Where the package is known, a comment is read. Afterwards the queue of links holds the links to
items that its link tags write, each at its place, and the queue of requests holds the contents of
its tags that ask to inherit, in the order of the tokens. The documentation is inherited if and only
if there is such a tag, and whatever link it shows is the one that stands in the queue at the
link's place. -/
theorem queues_of_parse (package : PackageName) (config : Config) (itemName : Option Text)
    (body : Text) :
    let links := (Token.contents .link (Token.tokenize body)).filterMap
      (Link.itemLink? (some package))
    let requests := Token.contents .inheritDoc (Token.tokenize body)
    ∃ d, parse { package := some package, config } itemName body = .ok d ∧
      d.pendingLinks = links.mapIdx ItemLink.pending ∧ d.pendingInheritDocs = requests ∧
      (d.isInherited = true ↔ requests ≠ []) ∧
      d.content.AllLinks (ItemLink.PlacedIn links) := by
  intro links requests
  have hknown : (Surroundings.mk (some package) config).package = some package := rfl
  obtain ⟨d, hparse, -⟩ := exists_parse hknown itemName body
  have hqueued := Queued.of_parse hparse
  exact ⟨d, hparse, hqueued.pendingLinks, hqueued.pendingInheritDocs, hqueued.isInherited,
    hqueued.shown⟩

end Documentation

end

end ApiDoc
