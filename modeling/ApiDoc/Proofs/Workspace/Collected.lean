import ApiDoc.Proofs.Completion.Calls
import ApiDoc.Workspace.Add

/-!
# Packages put together by adding items

A package before its completion: items were added one after the other, in any order, and items of
other packages were made known in between (`Workspace.Collected`). An addition that is interrupted
counts as well; it adds no documentation. Main statement: `Workspace.Collected.exists_parse`, every
documentation of such a package is a comment as it was read.
-/

namespace ApiDoc

/-- A package that items were added to and that was not completed. -/
inductive Workspace.Collected : Workspace → Prop
  /-- A package without items. -/
  | start {w : Workspace} (hdocuments : w.documents = #[]) (hexports : w.package.exports = []) :
      Collected w
  /-- An item is added, or its addition is interrupted. -/
  | item {w : Workspace} (h : Collected w) (path : List Text) (name : Text) (kind : ItemKind)
      (comment : Text) : Collected ((Action.addItem path name kind comment).run w).2
  /-- Items of another package are made known. -/
  | external {w : Workspace} (h : Collected w) (package : Text) (items : OrderedMap ResolvedItem) :
      Collected ((Action.addExternal package items).run w).2

/-- A workspace after some reports: nothing but the log, the diagnostics and what is known of the
listener may differ. -/
def Workspace.ReportsTo (w w₁ : Workspace) : Prop :=
  ∃ log diagnostics faults, w₁ = { w with log, diagnostics, faults }

theorem Workspace.ReportsTo.documents_eq {w w₁ : Workspace} (h : w.ReportsTo w₁) :
    w₁.documents = w.documents := by
  obtain ⟨_, _, _, rfl⟩ := h
  rfl

/-- The documentation of a new item gets the first number that was not given out. -/
theorem Workspace.document_register (path : List Text) (name : Text) (kind : ItemKind)
    (added : Documentation) (w : Workspace) (d : DocId) :
    (w.register path name kind added).document d =
      if d = w.documents.size then added else w.document d := by
  simp only [register, document, Array.getD_eq_getD_getElem?, Array.getElem?_push]
  split <;> rfl

/-- An action that makes reports only, whether it is interrupted or not. It does not ask whether the
package is complete. -/
def Action.OnlyReports {α : Type} (x : Action α) : Prop :=
  ∀ w, w.ReportsTo (x.run w).2 ∧ (x.run w).1 ≠ .error .alreadyComplete

namespace Action

section
variable {α β : Type} {w : Workspace}

theorem run_bind (x : Action α) (f : α → Action β) (w : Workspace) :
    (x >>= f).run w =
      match x.run w with
      | (.ok a, w₁) => (f a).run w₁
      | (.error e, w₁) => (.error e, w₁) := by
  change ExceptT.bindCont f (x.run w).1 (x.run w).2 = _
  rcases x.run w with ⟨e | a, w₁⟩ <;> rfl

namespace OnlyReports

theorem pure (a : α) : OnlyReports (pure a : Action α) :=
  fun _ => ⟨⟨_, _, _, rfl⟩, nofun⟩

theorem throw {e : Interruption} (he : e ≠ .alreadyComplete) : OnlyReports (throw e : Action α) :=
  fun _ => ⟨⟨_, _, _, rfl⟩, fun heq => he (Except.error.inj heq)⟩

theorem bind {x : Action α} {f : α → Action β} (hx : OnlyReports x)
    (hf : ∀ a, OnlyReports (f a)) : OnlyReports (x >>= f) := by
  intro w
  obtain ⟨hreports, hopen⟩ := hx w
  rw [run_bind]
  rcases hrun : x.run w with ⟨e | a, w₁⟩ <;> rw [hrun] at hreports hopen
  · exact ⟨hreports, fun heq => hopen (congrArg _ (Except.error.inj heq))⟩
  · obtain ⟨log, diagnostics, faults, rfl⟩ := hreports
    obtain ⟨⟨log₁, diagnostics₁, faults₁, heq⟩, hopen₁⟩ := hf a _
    exact ⟨⟨log₁, diagnostics₁, faults₁, heq⟩, hopen₁⟩

theorem modify {f : Workspace → Workspace} (hf : ∀ w, Workspace.ReportsTo w (f w)) :
    OnlyReports (modify f : Action Unit) :=
  fun w => ⟨hf w, nofun⟩

theorem listen : OnlyReports Action.listen := by
  intro w
  unfold Action.listen
  rw [run_bind_ok (run_get w)]
  cases w.faults.head?.getD false <;> exact ⟨⟨_, _, _, rfl⟩, nofun⟩

theorem announce (d : Diagnostic) : OnlyReports (Action.announce d) :=
  .bind (.modify fun _ => ⟨_, _, _, rfl⟩) fun _ =>
    .bind (.modify fun _ => ⟨_, _, _, rfl⟩) fun _ => .listen

theorem forM {f : α → Action Unit} (hf : ∀ a, OnlyReports (f a)) (as : List α) :
    OnlyReports (as.forM f) := by
  induction as with
  | nil => exact .pure ()
  | cons a as ih => exact .bind (hf a) fun _ => ih

/-- Reading a comment changes nothing else yet. -/
theorem read (itemName : Option Text) (body : Text) :
    OnlyReports (Action.read itemName body) := by
  have hannounce (problems : List Problem) :=
    OnlyReports.forM (fun problem => .announce { problem, itemName }) problems
  refine .bind (fun _ => ⟨⟨_, _, _, rfl⟩, nofun⟩) fun w => ?_
  split
  · exact .bind (hannounce _) fun _ => .pure _
  · exact .bind (hannounce _) fun _ => .throw nofun

end OnlyReports

/-- What the reading of a comment gives is that comment read. -/
theorem exists_parse_of_run_read {itemName : Option Text} {body : Text} {d : Documentation}
    {w₁ : Workspace} (h : (read itemName body).run w = (.ok d, w₁)) :
    Documentation.parse w.surroundings itemName body = .ok d := by
  unfold read at h
  rw [run_bind_ok (run_get w)] at h
  cases hparse : Documentation.parse w.surroundings itemName body with
  | ok d₁ =>
    simp only [hparse] at h
    rw [run_bind] at h
    split at h
    · cases h
      rfl
    · cases h
  | error e =>
    simp only [hparse] at h
    rw [run_bind] at h
    split at h <;> cases h

/-- No item is added to a package that is declared complete. -/
theorem run_addItem_of_complete (hcomplete : w.isComplete = true) (path : List Text) (name : Text)
    (kind : ItemKind) (comment : Text) :
    (addItem path name kind comment).run w = (.error .alreadyComplete, w) := by
  unfold addItem
  rw [run_bind_ok (run_get w), if_pos hcomplete]
  rfl

/-- The addition of an item to a package that is not declared complete reads its comment and
registers it, or is interrupted on the way. -/
theorem run_addItem_cases (hopen : w.isComplete = false) (path : List Text) (name : Text)
    (kind : ItemKind) (comment : Text) :
    (∃ e w₁, (addItem path name kind comment).run w = (.error e, w₁) ∧ e ≠ .alreadyComplete ∧
      w.ReportsTo w₁) ∨
    ∃ d w₁, (addItem path name kind comment).run w = (.ok (), w₁.register path name kind d) ∧
      Documentation.parse w.surroundings (some (w.qualifiedName path name))
        (Comment.body comment) = .ok d ∧ w.ReportsTo w₁ := by
  have hreports := OnlyReports.read (some (w.qualifiedName path name)) (Comment.body comment) w
  unfold addItem
  rw [run_bind_ok (run_get w), if_neg (by rw [hopen]; decide), run_bind]
  rcases hread : (read (some (w.qualifiedName path name)) (Comment.body comment)).run w with
    ⟨e | d, w₁⟩ <;> rw [hread] at hreports
  · exact .inl ⟨e, w₁, rfl, fun heq => hreports.2 (congrArg _ heq), hreports.1⟩
  · exact .inr ⟨d, w₁, rfl, exists_parse_of_run_read hread, hreports.1⟩

/-- The addition of an item adds its comment as it was read, or nothing if it is interrupted, and
further comments are read as before. -/
theorem run_addItem_documents (path : List Text) (name : Text) (kind : ItemKind) (comment : Text)
    (w : Workspace) : ((addItem path name kind comment).run w).2.surroundings = w.surroundings ∧
      (((addItem path name kind comment).run w).2.documents = w.documents ∨
        ∃ itemName body d, Documentation.parse w.surroundings itemName body = .ok d ∧
          ((addItem path name kind comment).run w).2.documents = w.documents.push d) := by
  cases hcomplete : w.isComplete with
  | true =>
    rw [run_addItem_of_complete hcomplete]
    exact ⟨rfl, .inl rfl⟩
  | false =>
    rcases run_addItem_cases hcomplete path name kind comment with
      ⟨e, w₁, hrun, -, _, _, _, rfl⟩ | ⟨d, w₁, hrun, hparse, _, _, _, rfl⟩ <;> rw [hrun]
    · exact ⟨rfl, .inl rfl⟩
    · exact ⟨rfl, .inr ⟨_, _, d, hparse, rfl⟩⟩

end

end Action

namespace Workspace.Collected
variable {w : Workspace}

/-- Every documentation of a package is a comment as it was read in that package. -/
theorem parsed_of_mem (h : w.Collected) :
    ∀ document ∈ w.documents, ∃ itemName body,
      Documentation.parse w.surroundings itemName body = .ok document := by
  induction h with
  | start hdocuments =>
    rw [hdocuments]
    nofun
  | @item w _ path name kind comment ih =>
    obtain ⟨hsurroundings, hsame | ⟨itemName, body, added, hparse, hpush⟩⟩ :=
      Action.run_addItem_documents path name kind comment w
    · rwa [hsurroundings, hsame]
    · rw [hsurroundings, hpush]
      intro document hmem
      rcases Array.mem_push.1 hmem with hmem | rfl
      · exact ih document hmem
      · exact ⟨itemName, body, hparse⟩
  | external _ _ _ ih => exact ih

theorem exists_parse_of_mem (h : w.Collected) :
    ∀ document ∈ w.documents, ∃ around itemName body,
      Documentation.parse around itemName body = .ok document :=
  fun document hmem => ⟨w.surroundings, h.parsed_of_mem document hmem⟩

theorem parsed (h : w.Collected) {d : DocId} (hd : d < w.documents.size) :
    ∃ itemName body, Documentation.parse w.surroundings itemName body = .ok (w.document d) := by
  have hdocument : w.document d = w.documents[d] := by simp [document, hd]
  exact hdocument ▸ h.parsed_of_mem _ (Array.getElem_mem hd)

/-- Every documentation of a package is a comment as it was read. -/
theorem exists_parse (h : w.Collected) {d : DocId} (hd : d < w.documents.size) :
    ∃ around itemName body, Documentation.parse around itemName body = .ok (w.document d) :=
  ⟨w.surroundings, h.parsed hd⟩

end Workspace.Collected

end ApiDoc
