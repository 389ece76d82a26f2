import Mathlib
import ApiDoc.Workspace.Complete

/-!
# Actions with a patient listener

While the listener for diagnostics does not fail (`Workspace.Quiet`), an action that reports, warns
and changes documentations is not interrupted. For each such action this module names the workspace
after it and shows that a run ends there (`Action.run_report`, `Action.run_resolve`). Such an action
changes one documentation at most, by a function of that documentation (`Workspace.Touches`), and
leaves the setting as it is: the items, the settings and what is known of other packages.
-/

namespace ApiDoc

namespace Workspace

/-- The listener fails at none of the coming reports. -/
def Quiet (w : Workspace) : Prop :=
  true ∉ w.faults

instance (w : Workspace) : Decidable w.Quiet :=
  inferInstanceAs (Decidable (true ∉ w.faults))

theorem quiet_of_faults_eq_nil {w : Workspace} (h : w.faults = []) : w.Quiet := by
  rw [Quiet, h]
  exact List.not_mem_nil

/-- What references and checks depend on beside the documentations. -/
structure Setting where
  /-- The items. -/
  package : Package
  /-- The parts of the package's name. -/
  identity : Option PackageName
  /-- The settings of the checks. -/
  config : Config
  /-- The items of other packages. -/
  external : OrderedMap (OrderedMap ResolvedItem)

/-- The setting of a workspace. -/
def setting (w : Workspace) : Setting where
  package := w.package
  identity := w.identity
  config := w.config
  external := w.external

/-- The workspace after a diagnostic was made known. -/
def announced (d : Diagnostic) (w : Workspace) : Workspace :=
  { w with
    log := w.log ++ [.problem d]
    diagnostics := w.diagnostics ++ [d]
    faults := w.faults.tail }

/-- The workspace after a problem of a documentation was reported. -/
def reported (id : DocId) (p : Problem) (w : Workspace) : Workspace :=
  let w₁ := w.updateDocument id (Documentation.report p)
  w₁.announced ((w₁.document id).diagnostic p)

/-- The workspace with one more event in its log. -/
def logged (entry : LogEntry) (w : Workspace) : Workspace :=
  { w with log := w.log ++ [entry] }

/-- The workspace after a reference led nowhere, with a warning or without one. -/
def warned : Option Warning → Workspace → Workspace
  | none, w => w
  | some warning, w =>
    { w.logged (.warning warning) with warnings := w.warnings ++ [warning] }

section
variable {w w₁ w₂ : Workspace} {id d : DocId} {f g : Documentation → Documentation}

/-! ## Documentations by number -/

theorem document_of_size_le (h : w.documents.size ≤ d) : w.document d = { state := .done } := by
  simp [document, h]

/-- A documentation that is not completed has a number that was given out. -/
theorem lt_size_of_state_ne (h : (w.document d).state ≠ .done) : d < w.documents.size := by
  refine Nat.lt_of_not_le fun hle => h ?_
  rw [document_of_size_le hle]

/-- A documentation with a request to inherit has a number that was given out. -/
theorem lt_size_of_pending {content : Text} {rest : List Text}
    (h : (w.document d).pendingInheritDocs = content :: rest) : d < w.documents.size := by
  refine Nat.lt_of_not_le fun hle => ?_
  rw [document_of_size_le hle] at h
  cases h

/-- What depends on the setting only is the same in two workspaces of one setting. -/
theorem lookUp_congr (h : w₁.setting = w.setting) (key : ItemKey) :
    w₁.lookUp key = w.lookUp key := by
  have hpackage : w₁.package = w.package := congrArg Setting.package h
  have hexternal : w₁.external = w.external := congrArg Setting.external h
  unfold lookUp isOwnKey
  rw [hpackage, hexternal]

/-! ## One documentation changes -/

/-- The second workspace is the first with one documentation changed by `f`, in the same setting;
what was logged and reported may differ. -/
structure Touches (id : DocId) (f : Documentation → Documentation) (w w₁ : Workspace) : Prop where
  documents : w₁.documents = w.documents.modify id f
  setting : w₁.setting = w.setting
  quiet : w.Quiet → w₁.Quiet

namespace Touches

theorem trans (h₁ : Touches id f w w₁) (h₂ : Touches id g w₁ w₂) :
    Touches id (g ∘ f) w w₂ where
  documents := by
    rw [h₂.documents, h₁.documents]
    refine Array.ext (by simp) fun i h₁ h₂ => ?_
    simp only [Array.getElem_modify]
    split <;> rfl
  setting := h₂.setting.trans h₁.setting
  quiet hq := h₂.quiet (h₁.quiet hq)

theorem size (h : Touches id f w w₁) : w₁.documents.size = w.documents.size := by
  rw [h.documents, Array.size_modify]

theorem document_self (h : Touches id f w w₁) (hid : id < w.documents.size) :
    w₁.document id = f (w.document id) := by
  simp [document, h.documents, hid, Array.getElem_modify]

theorem document_ne (h : Touches id f w w₁) (hd : d ≠ id) : w₁.document d = w.document d := by
  simp only [document, h.documents, Array.getD_eq_getD_getElem?, Array.getElem?_modify]
  rw [if_neg hd.symm]

/-- Only what happens to the documentation in place counts. -/
theorem congr (h : Touches id f w w₁) (hfg : f (w.document id) = g (w.document id)) :
    Touches id g w w₁ where
  documents := by
    rw [h.documents]
    refine Array.ext (by simp) fun i h₁ h₂ => ?_
    simp only [Array.getElem_modify]
    split
    · next heq =>
      subst heq
      have hlt : id < w.documents.size := by simpa using h₁
      simpa [document, hlt] using hfg
    · rfl
  setting := h.setting
  quiet := h.quiet

/-- What `f` keeps of a documentation is kept of every documentation. -/
theorem document_keeps {α : Type} (h : Touches id f w w₁) {part : Documentation → α}
    (hf : ∀ d, part (f d) = part d) (d : DocId) : part (w₁.document d) = part (w.document d) := by
  by_cases hd : d = id
  · subst hd
    by_cases hlt : d < w.documents.size
    · rw [h.document_self hlt, hf]
    · rw [document_of_size_le (Nat.le_of_not_lt hlt),
        document_of_size_le (h.size ▸ Nat.le_of_not_lt hlt)]
  · rw [h.document_ne hd]

end Touches

theorem touches_update (id : DocId) (f : Documentation → Documentation) (w : Workspace) :
    Touches id f w (w.updateDocument id f) where
  documents := rfl
  setting := rfl
  quiet hq := hq

theorem touches_reported (id : DocId) (p : Problem) (w : Workspace) :
    Touches id (Documentation.report p) w (w.reported id p) where
  documents := rfl
  setting := rfl
  quiet hq := fun h => hq (List.mem_of_mem_tail h)

/-- Workspaces that differ in their records only. -/
theorem touches_of_documents_eq (id : DocId) (hdocuments : w₁.documents = w.documents)
    (hsetting : w₁.setting = w.setting) (hfaults : w₁.faults = w.faults) :
    Touches id (fun d => d) w w₁ where
  documents := by
    refine Array.ext (by simp [hdocuments]) fun i h₁ h₂ => ?_
    simp [hdocuments, Array.getElem_modify]
  setting := hsetting
  quiet hq := by rw [Quiet, hfaults]; exact hq

theorem touches_logged (id : DocId) (entry : LogEntry) (w : Workspace) :
    Touches id (fun d => d) w (w.logged entry) :=
  touches_of_documents_eq id rfl rfl rfl

theorem touches_warned (id : DocId) (warning : Option Warning) (w : Workspace) :
    Touches id (fun d => d) w (w.warned warning) := by
  cases warning <;> exact touches_of_documents_eq id rfl rfl rfl

end

end Workspace

/-! ## Runs -/

namespace Action

section
variable {α β : Type} {w w₁ : Workspace} {id : DocId}

/-- An action that is not interrupted hands its value and its workspace to what follows. -/
theorem run_bind_ok {x : Action α} {f : α → Action β} {a : α} (h : x.run w = (.ok a, w₁)) :
    (x >>= f).run w = (f a).run w₁ := by
  change ExceptT.bindCont f (x.run w).1 (x.run w).2 = _
  rw [h]
  rfl

theorem run_get (w : Workspace) : (get : Action Workspace).run w = (.ok w, w) := rfl

theorem run_document (id : DocId) (w : Workspace) :
    (document id).run w = (.ok (w.document id), w) := rfl

theorem run_update (id : DocId) (f : Documentation → Documentation) (w : Workspace) :
    (update id f).run w = (.ok (), w.updateDocument id f) := rfl

theorem run_modify (f : Workspace → Workspace) (w : Workspace) :
    (modify f : Action Unit).run w = (.ok (), f w) := rfl

theorem run_log (entry : LogEntry) (w : Workspace) :
    (log entry).run w = (.ok (), w.logged entry) := rfl

theorem run_inherit (id : DocId) (target : Target) (w : Workspace) :
    (inherit id target).run w =
      (.ok (), w.updateDocument id (Documentation.inherit (w.view target))) := rfl

theorem run_announce (hq : w.Quiet) (d : Diagnostic) :
    (announce d).run w = (.ok (), w.announced d) := by
  have hhead : w.faults.head?.getD false = false := by
    cases hf : w.faults with
    | nil => rfl
    | cons b faults =>
      cases b with
      | false => rfl
      | true => exact absurd (by simp [hf]) hq
  unfold announce listen
  rw [run_bind_ok (run_log ..), run_bind_ok (run_modify ..), run_bind_ok (run_get _)]
  simp only [Workspace.logged, hhead]
  rfl

theorem run_report (hq : w.Quiet) (id : DocId) (p : Problem) :
    (report id p).run w = (.ok (), w.reported id p) := by
  unfold report
  rw [run_bind_ok (run_update ..), run_bind_ok (run_document ..)]
  exact run_announce (w := w.updateDocument id _) hq _

/-- Actions one after the other, each of which runs from a quiet workspace to a quiet one. -/
theorem run_forM_ok {f : α → Action Unit} {after : Workspace → α → Workspace}
    (hf : ∀ {w : Workspace}, w.Quiet → ∀ a, (f a).run w = (.ok (), after w a) ∧ (after w a).Quiet)
    (hq : w.Quiet) (as : List α) :
    (as.forM f).run w = (.ok (), as.foldl after w) ∧ (as.foldl after w).Quiet := by
  induction as generalizing w with
  | nil => exact ⟨rfl, hq⟩
  | cons a as ih =>
    obtain ⟨hrun, hq₁⟩ := hf hq a
    change (f a >>= fun _ => as.forM f).run w = _ ∧ _
    rw [run_bind_ok hrun]
    exact ih hq₁

/-- Where a key leads, as an action says it. -/
theorem run_resolve (key : ItemKey) (w : Workspace) :
    (resolve key).run w =
      match w.lookUp key with
      | .found target => (.ok (some target), w)
      | .missing warning => (.ok none, w.warned warning) := by
  unfold resolve
  rw [run_bind_ok (run_get _)]
  cases w.lookUp key with
  | found target => rfl
  | missing warning => cases warning <;> rfl

end

end Action

end ApiDoc
