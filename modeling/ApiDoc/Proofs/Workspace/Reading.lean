import ApiDoc.Proofs.Sections.Complaints
import ApiDoc.Proofs.Workspace.Collected

/-!
# Comments in a known package

A comment is read under the name of its item (`Documentation.itemName_of_parse`). Where the package
is known, every comment can be read: only a link that leaves its package out stops the reading, and
only if there is no package to put in (`Documentation.exists_parse`). So an item can be added to an
open package as long as the listener is patient, and what the addition comes to is known
(`Workspace.Ready`, `Action.run_addItem_of_ready`).
-/

namespace ApiDoc

/-- Where a package is known, it is never missing. -/
theorem Link.parse_ne_missingPackage (package : PackageName) (content : Text) :
    Link.parse (some package) content ≠ .missingPackage := by
  have haddress (address : Text) (display : List Text) :
      ofAddress (some package) address display ≠ .missingPackage := by
    unfold ofAddress
    split
    · split <;> rintro ⟨⟩
    · split
      · rintro ⟨⟩
      · dsimp only
        split <;> rintro ⟨⟩
  unfold parse
  split
  · rintro ⟨⟩
  · split
    · exact haddress _ _
    · split
      · exact haddress _ _
      · split
        · rintro ⟨⟩
        · exact haddress _ _
    · rintro ⟨⟩

namespace Documentation

@[simp] theorem itemName_reportIf (condition : Bool) (p : Problem) (d : Documentation) :
    (d.reportIf condition p).itemName = d.itemName :=
  (Evolves.reportIf condition p d).itemName

theorem itemName_finish (releaseTags : Nat) (d : Documentation) :
    (d.finish releaseTags).itemName = d.itemName := by
  unfold finish
  simp only [itemName_reportIf]
  split
  · exact (itemName_reportIf _ _ _).trans (itemName_reportIf _ _ _)
  · exact (itemName_reportIf _ _ _).trans (itemName_reportIf _ _ _)

section
variable {package : PackageName} {around : Surroundings} {d d₁ : Documentation} {s : Section}

theorem itemName_readRun {package : Option PackageName} {run : Run} {r : Block × Documentation}
    (hread : readRun package d run = .ok r) : r.2.itemName = d.itemName :=
  readRun_keeps (fun _ _ => rfl) (fun _ _ => rfl) (fun _ _ => rfl) hread

theorem itemName_readSection (hread : readSection around d s = .ok d₁) :
    d₁.itemName = d.itemName := by
  cases s with
  | remarks run | returns run | param name lead run =>
    obtain ⟨r, hrun, hok⟩ := exists_of_bind_eq_ok hread
    cases hok
    exact (itemName_readRun hrun).trans (itemName_reportIf _ _ d)
  | deprecated run =>
    obtain ⟨r, hrun, hok⟩ := exists_of_bind_eq_ok hread
    cases hok
    exact (itemName_reportIf _ _ _).trans (itemName_readRun hrun)
  | internalRemarks run | stray run =>
    obtain ⟨r, hrun, hok⟩ := exists_of_bind_eq_ok hread
    cases hok
    exact itemName_readRun hrun
  | badParam problem =>
    cases hread
    exact itemName_reportIf _ _ d
  | strayText chars =>
    cases hread
    exact itemName_reportIf _ _ d
  | release | flag | unsupported =>
    cases hread
    rfl

/-- A comment is read under the name of its item. -/
theorem itemName_of_parse {itemName : Option Text} {body : Text}
    (hparse : parse around itemName body = .ok d) : d.itemName = itemName := by
  obtain ⟨r, hsummary, hparse⟩ := exists_of_bind_eq_ok hparse
  obtain ⟨d₁, hsections, hok⟩ := exists_of_bind_eq_ok hparse
  cases hok
  rw [itemName_finish]
  refine foldlM_keeps (P := fun d : Documentation => d.itemName = itemName)
    (fun s _ _ _ hd hread => (itemName_readSection hread).trans hd) ?_ hsections
  exact itemName_readRun hsummary

/-! ## Nothing stops the reading -/

/-- In a known package every piece of a run can be read. -/
theorem exists_readPiece (package : PackageName) (r : Block × Documentation) (piece : Piece) :
    ∃ r₁, readPiece (some package) r piece = .ok r₁ := by
  obtain ⟨elements, d⟩ := r
  cases piece with
  | text chars | inheritDoc content => exact ⟨_, rfl⟩
  | link content =>
    simp only [readPiece]
    cases hlink : Link.parse (some package) content with
    | link e | malformed e => exact ⟨_, rfl⟩
    | missingPackage => exact absurd hlink (Link.parse_ne_missingPackage package content)

theorem exists_readRun (package : PackageName) (d : Documentation) (run : Run) :
    ∃ r, readRun (some package) d run = .ok r :=
  exists_foldlM_ok (exists_readPiece package) run ([], d)

/-- In a known package every section can be read. -/
theorem exists_readSection (hpackage : around.package = some package) (d : Documentation)
    (s : Section) : ∃ d₁, readSection around d s = .ok d₁ := by
  have hrun (d₀ : Documentation) (run : Run) (f : Block × Documentation → Documentation) :
      ∃ d₁, (do return f (← readRun around.package d₀ run)) =
        (.ok d₁ : Except MissingPackage _) := by
    obtain ⟨r, hread⟩ := exists_readRun package d₀ run
    rw [hpackage, hread]
    exact ⟨f r, rfl⟩
  cases s with
  | remarks run | returns run | param name lead run | deprecated run | internalRemarks run
  | stray run => exact hrun _ run _
  | badParam | release | flag | unsupported | strayText => exact ⟨_, rfl⟩

/-- In a known package every comment can be read, and gives a documentation of the item's name. -/
theorem exists_parse (hpackage : around.package = some package) (itemName : Option Text)
    (body : Text) : ∃ d, parse around itemName body = .ok d ∧ d.itemName = itemName := by
  have hparse : ∃ d, parse around itemName body = .ok d := by
    unfold parse ofOutline
    generalize Outline.ofTokens (Token.tokenize body) = outline
    obtain ⟨r, hsummary⟩ := exists_readRun package
      (opened itemName (Token.badBraces body)) outline.summary
    obtain ⟨d, hsections⟩ := exists_foldlM_ok (exists_readSection hpackage) outline.sections
      { r.2 with content.summary := Block.normalize r.1 }
    refine ⟨d.finish (outline.sections.countP Section.isRelease), ?_⟩
    dsimp only
    rw [hpackage, hsummary]
    change (outline.sections.foldlM (readSection around) _ >>= _) = _
    rw [hsections]
    rfl
  obtain ⟨d, hparse⟩ := hparse
  exact ⟨d, hparse, itemName_of_parse hparse⟩

end

end Documentation

/-! ## Adding an item -/

/-- Items can be added: the package is known and not declared complete, and the listener does not
fail. -/
structure Workspace.Ready (w : Workspace) : Prop where
  known : ∃ package, w.identity = some package
  quiet : w.Quiet
  isOpen : w.isComplete = false

namespace Action
variable {w : Workspace}

/-- The reports of some problems, one after the other. -/
theorem diagnostics_foldl_announced (f : Problem → Diagnostic) (problems : List Problem)
    (w : Workspace) : (problems.foldl (fun w p => w.announced (f p)) w).diagnostics =
      w.diagnostics ++ problems.map f := by
  induction problems generalizing w with
  | nil => exact (List.append_nil _).symm
  | cons p problems ih => exact (ih _).trans (List.append_assoc _ _ _)

/-- The problems of a comment are made known. -/
theorem run_forM_announce (hq : w.Quiet) (itemName : Option Text) (problems : List Problem) :
    ∃ w₁, (problems.forM fun problem => announce { problem, itemName }).run w = (.ok (), w₁) ∧
      w₁.Quiet ∧ w₁.diagnostics =
        w.diagnostics ++ problems.map fun problem => ({ problem, itemName } : Diagnostic) := by
  have hannounce : ∀ {w : Workspace}, w.Quiet → ∀ p : Problem,
      (announce { problem := p, itemName }).run w =
        (.ok (), w.announced { problem := p, itemName }) ∧
      (w.announced { problem := p, itemName }).Quiet :=
    fun hq p => ⟨run_announce hq _, fun hmem => hq (List.mem_of_mem_tail hmem)⟩
  obtain ⟨hrun, hq₁⟩ := run_forM_ok hannounce hq problems
  exact ⟨_, hrun, hq₁, diagnostics_foldl_announced _ _ w⟩

/-- A comment that can be read is read, and its problems are made known. -/
theorem run_read_of_parse (hq : w.Quiet) {itemName : Option Text} {body : Text} {d : Documentation}
    (hparse : Documentation.parse w.surroundings itemName body = .ok d) :
    ∃ w₁, (read itemName body).run w = (.ok d, w₁) ∧ w₁.Quiet ∧
      w₁.diagnostics =
        w.diagnostics ++ d.problems.map fun problem => ({ problem, itemName } : Diagnostic) := by
  obtain ⟨w₁, hrun, hq₁, hdiagnostics⟩ := run_forM_announce hq itemName d.problems
  refine ⟨w₁, ?_, hq₁, hdiagnostics⟩
  unfold read
  rw [run_bind_ok (run_get w)]
  simp only [hparse]
  rw [run_bind_ok hrun]
  rfl

/-- Of a comment that cannot be read, the problems up to there are made known. -/
theorem run_read_of_error (hq : w.Quiet) {itemName : Option Text} {body : Text} {e : MissingPackage}
    (hparse : Documentation.parse w.surroundings itemName body = .error e) :
    ∃ w₁, (read itemName body).run w = (.error .missingPackage, w₁) ∧ w₁.Quiet ∧
      w₁.diagnostics =
        w.diagnostics ++ e.problems.map fun problem => ({ problem, itemName } : Diagnostic) := by
  obtain ⟨w₁, hrun, hq₁, hdiagnostics⟩ := run_forM_announce hq itemName e.problems
  refine ⟨w₁, ?_, hq₁, hdiagnostics⟩
  unfold read
  rw [run_bind_ok (run_get w)]
  simp only [hparse]
  rw [run_bind_ok hrun]
  rfl

/-- The addition of an item whose comment can be read makes the comment's problems known and
registers the item. -/
theorem run_addItem_of_parse (hq : w.Quiet) (hopen : w.isComplete = false) {path : List Text}
    {name : Text} (kind : ItemKind) {comment : Text} {d : Documentation}
    (hparse : Documentation.parse w.surroundings (some (w.qualifiedName path name))
      (Comment.body comment) = .ok d) :
    ∃ w₁, (addItem path name kind comment).run w = (.ok (), w₁.register path name kind d) ∧
      w.ReportsTo w₁ ∧ w₁.Quiet ∧
      w₁.diagnostics = w.diagnostics ++ d.problems.map fun problem =>
        ({ problem, itemName := some (w.qualifiedName path name) } : Diagnostic) := by
  obtain ⟨w₁, hread, hq₁, hdiagnostics⟩ := run_read_of_parse hq hparse
  have hreports := (OnlyReports.read (some (w.qualifiedName path name))
    (Comment.body comment) w).1
  rw [hread] at hreports
  refine ⟨w₁, ?_, hreports, hq₁, hdiagnostics⟩
  unfold addItem
  rw [run_bind_ok (run_get w), if_neg (by rw [hopen]; decide), run_bind_ok hread]
  rfl

/-- The addition of an item whose comment cannot be read makes the problems up to there known and is
interrupted. -/
theorem run_addItem_of_error (hq : w.Quiet) (hopen : w.isComplete = false) {path : List Text}
    {name : Text} (kind : ItemKind) {comment : Text} {e : MissingPackage}
    (hparse : Documentation.parse w.surroundings (some (w.qualifiedName path name))
      (Comment.body comment) = .error e) :
    ∃ w₁, (addItem path name kind comment).run w = (.error .missingPackage, w₁) ∧
      w.ReportsTo w₁ ∧ w₁.Quiet ∧
      w₁.diagnostics = w.diagnostics ++ e.problems.map fun problem =>
        ({ problem, itemName := some (w.qualifiedName path name) } : Diagnostic) := by
  obtain ⟨w₁, hread, hq₁, hdiagnostics⟩ := run_read_of_error hq hparse
  have hreports := (OnlyReports.read (some (w.qualifiedName path name))
    (Comment.body comment) w).1
  rw [hread] at hreports
  refine ⟨w₁, ?_, hreports, hq₁, hdiagnostics⟩
  unfold addItem
  rw [run_bind_ok (run_get w), if_neg (by rw [hopen]; decide), run_bind, hread]

/-- While the listener is patient, the addition of an item is refused and only reports, or reads the
comment, makes its problems known and registers the item. -/
theorem run_addItem_cases_of_quiet (hq : w.Quiet) (path : List Text) (name : Text) (kind : ItemKind)
    (comment : Text) :
    (∃ e w₁, (addItem path name kind comment).run w = (.error e, w₁) ∧ w.ReportsTo w₁ ∧
      w₁.Quiet ∧ w.diagnostics <+: w₁.diagnostics) ∨
    ∃ d w₁, (addItem path name kind comment).run w = (.ok (), w₁.register path name kind d) ∧
      Documentation.parse w.surroundings (some (w.qualifiedName path name))
        (Comment.body comment) = .ok d ∧ w.ReportsTo w₁ ∧ w₁.Quiet ∧
      w₁.diagnostics = w.diagnostics ++ d.problems.map fun problem =>
        ({ problem, itemName := some (w.qualifiedName path name) } : Diagnostic) := by
  cases hcomplete : w.isComplete with
  | true =>
    exact .inl ⟨_, w, run_addItem_of_complete hcomplete path name kind comment, ⟨_, _, _, rfl⟩, hq,
      List.prefix_rfl⟩
  | false =>
    cases hparse : Documentation.parse w.surroundings (some (w.qualifiedName path name))
        (Comment.body comment) with
    | ok d =>
      obtain ⟨w₁, hrun, hreports, hq₁, hdiagnostics⟩ :=
        run_addItem_of_parse hq hcomplete kind hparse
      exact .inr ⟨d, w₁, hrun, rfl, hreports, hq₁, hdiagnostics⟩
    | error e =>
      obtain ⟨w₁, hrun, hreports, hq₁, hdiagnostics⟩ :=
        run_addItem_of_error hq hcomplete kind hparse
      exact .inl ⟨_, w₁, hrun, hreports, hq₁, hdiagnostics ▸ List.prefix_append _ _⟩

/-- In a known package, the addition of an item reads its comment, makes its problems known and
registers it. -/
theorem run_addItem_of_ready (h : w.Ready) (path : List Text) (name : Text) (kind : ItemKind)
    (comment : Text) :
    ∃ d w₁, Documentation.parse w.surroundings (some (w.qualifiedName path name))
        (Comment.body comment) = .ok d ∧ d.itemName = some (w.qualifiedName path name) ∧
      (addItem path name kind comment).run w = (.ok (), w₁.register path name kind d) ∧
      w.ReportsTo w₁ ∧ w₁.Quiet ∧
      w₁.diagnostics = w.diagnostics ++ d.problems.map d.diagnostic := by
  obtain ⟨package, hpackage⟩ := h.known
  have hknown : w.surroundings.package = some package := hpackage
  obtain ⟨d, hparse, hname⟩ := Documentation.exists_parse hknown
    (some (w.qualifiedName path name)) (Comment.body comment)
  obtain ⟨w₁, hrun, hreports, hq₁, hdiagnostics⟩ :=
    run_addItem_of_parse h.quiet h.isOpen kind hparse
  refine ⟨d, w₁, hparse, hname, hrun, hreports, hq₁, ?_⟩
  rw [hdiagnostics, ← hname]
  rfl

end Action

end ApiDoc
