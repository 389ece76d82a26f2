import ApiDoc.Proofs.Manifest.WellFormed

/-!
# What is logged before the completion

While comments are read, the log tells their diagnostics and nothing else, however the reading ends
(`Workspace.LogsDiagnostics`). What every part of a computation keeps, the computation keeps
(`Keeps`); that the log is like this is kept by the readers of comments, of entries and of their
members. Together with the judgement on the items this tells how the reading of a manifest ends,
and in which workspace (`Manifest.read_cases`).
-/

namespace ApiDoc

open Workspace

/-! ## What a computation keeps -/

/-- What holds of a state holds of the one that a computation reaches, whether it fails or not. -/
def Keeps {ε σ α : Type} (P : σ → Prop) (x : ExceptT ε (StateM σ) α) : Prop :=
  ∀ s, P s → P (x.run s).2

namespace Keeps
variable {ε σ α β : Type} {P : σ → Prop} {x : ExceptT ε (StateM σ) α}

theorem pure (a : α) : Keeps P (pure a : ExceptT ε (StateM σ) α) :=
  fun _ hs => hs

theorem throw (e : ε) : Keeps P (throw e : ExceptT ε (StateM σ) α) :=
  fun _ hs => hs

theorem bind {f : α → ExceptT ε (StateM σ) β} (hx : Keeps P x) (hf : ∀ a, Keeps P (f a)) :
    Keeps P (x >>= f) := by
  intro s hs
  change P (ExceptT.bindCont f (x.run s).1 (x.run s).2).2
  have hs₁ := hx s hs
  cases (x.run s).1 with
  | error e => exact hs₁
  | ok a => exact hf a _ hs₁

theorem forM {f : α → ExceptT ε (StateM σ) Unit} (hf : ∀ a, Keeps P (f a)) (as : List α) :
    Keeps P (as.forM f) := by
  induction as with
  | nil => exact .pure ()
  | cons a as ih => exact .bind (hf a) fun _ => ih

end Keeps

/-- The log tells the diagnostics in their order, and nothing else. -/
def Workspace.LogsDiagnostics (w : Workspace) : Prop :=
  w.log = w.diagnostics.map .problem

/-! ## Comments -/

namespace Action

/-- Whether the listener fails or not, a diagnostic is made known. -/
theorem run_announce_snd (d : Diagnostic) (w : Workspace) :
    ((announce d).run w).2 = w.announced d := by
  unfold announce listen
  rw [run_bind_ok (run_log ..), run_bind_ok (run_modify ..), run_bind_ok (run_get _)]
  by_cases hfails : w.faults.head?.getD false = true <;>
    simp only [Workspace.logged, hfails] <;> rfl

theorem keeps_announce (d : Diagnostic) : Keeps Workspace.LogsDiagnostics (announce d) := by
  intro w hw
  rw [run_announce_snd, Workspace.LogsDiagnostics, Workspace.announced, List.map_append, ← hw]
  rfl

theorem keeps_read (itemName : Option Text) (body : Text) :
    Keeps Workspace.LogsDiagnostics (read itemName body) := by
  have hannounce (problems : List Problem) :=
    Keeps.forM (fun problem => keeps_announce { problem, itemName }) problems
  refine .bind (fun _ hw => hw) fun w => ?_
  split
  · exact .bind (hannounce _) fun _ => .pure _
  · exact .bind (hannounce _) fun _ => .throw _

/-- An addition logs the diagnostics of its comment, whether it is interrupted or not. -/
theorem keeps_addItem (path : List Text) (name : Text) (kind : ItemKind) (comment : Text) :
    Keeps Workspace.LogsDiagnostics (addItem path name kind comment) := by
  refine .bind (fun _ hw => hw) fun w => ?_
  have hread : Keeps Workspace.LogsDiagnostics (do
      let d ← read (some (w.qualifiedName path name)) (Comment.body comment)
      modify (Workspace.register path name kind d) : Action Unit) :=
    .bind (keeps_read _ _) fun _ _ hw => hw
  split
  · exact .bind (.throw _) fun _ => hread
  · exact hread

end Action

/-! ## Manifests -/

namespace Manifest

section
variable {α : Type} {P : Workspace → Prop}

theorem keeps_ofExcept (x : Except Error α) : Keeps P (Reading.ofExcept x) := by
  cases x with
  | ok a => exact .pure a
  | error e => exact .throw _

theorem keeps_perform {action : Action α} (h : Keeps P action) : Keeps P (Reading.perform action) :=
  fun w hw => h w hw

/-- An item and its members log the diagnostics of their comments, up to where the reading ends. -/
theorem keeps_readItem (v : Json) : Keeps Workspace.LogsDiagnostics (readItem v) := by
  have hadd (path : List Text) (e : Entry) :=
    keeps_perform (Action.keeps_addItem path e.name e.kind e.docs)
  have hmember (owner : Text) (v : Json) : Keeps Workspace.LogsDiagnostics (readMember owner v) :=
    .bind (keeps_ofExcept _) fun e => hadd [owner] e
  exact .bind (keeps_ofExcept _) fun e =>
    .bind (hadd [] e) fun _ => .forM (hmember e.name) e.members

end

section
variable {config : Config} {manifest : OrderedMap Json} {w : Workspace}

/-- Nothing is logged yet in the workspace of a package with a name. -/
theorem logsDiagnostics_of_ofName? {name : Text} (h : ofName? name config = some w)
    (external : OrderedMap (OrderedMap ResolvedItem)) :
    LogsDiagnostics { w with external } := by
  obtain ⟨-, rfl⟩ | ⟨-, _, -, rfl⟩ := eq_of_ofName? h <;> rfl

/-- How the reading of a manifest ends: with an error and without a workspace, if there is something
wrong with what stands apart from the items; else in a workspace that tells how the items were
judged, and what was logged. -/
theorem read_cases (config : Config) (manifest : OrderedMap Json) :
    (∃ e, read config manifest = (.error (.malformed e), none) ∧
      ∀ package, ¬ IsWellFormed manifest package) ∨
    ∃ package outcome w, read config manifest = (outcome, some w) ∧ HasHead manifest package ∧
      w.LogsDiagnostics ∧ Judged (IsReading package) (IsWellFormed manifest package)
        (package = [] ∧ OmitsPackage manifest) (outcome, w) := by
  unfold read
  cases hbase : workspace config manifest with
  | error e =>
    refine .inl ⟨e, rfl, fun package h => ?_⟩
    obtain ⟨base, hok⟩ := h.toHasHead.exists_workspace config
    cases hbase.symm.trans hok
  | ok base =>
    obtain ⟨package, hhead, hreading⟩ := exists_hasHead hbase
    have hbaseLog : base.LogsDiagnostics := by
      obtain ⟨_, known, _, -, -, hname, rfl⟩ := of_workspace hbase
      exact logsDiagnostics_of_ofName? hname known
    have hgood : (∃ vs, (OrderedMap.find? "items".toList manifest).getD (.arr []) = .arr vs ∧
        ∀ v ∈ vs, IsItem v) ↔ IsWellFormed manifest package :=
      ⟨fun hitems => ⟨hhead, hitems⟩, fun h => h.items⟩
    have hlog := Keeps.bind (keeps_ofExcept (itemsOf (OrderedMap.find? "items".toList manifest)))
      (fun vs => .forM keeps_readItem vs) base hbaseLog
    exact .inr ⟨package, _, _, rfl, hhead, hlog,
      (judges_items manifest).congr hgood .rfl base hreading⟩

end

end Manifest

end ApiDoc
