import ApiDoc.Main
import ApiDoc.Proofs.Manifest.Log
import ApiDoc.Proofs.Text.Utf8

/-!
# How a command ends

What comes of a command, whatever it is given and whatever it finds, on whatever machine: the limits
of what is read of JSON and the reasons for which something cannot be opened are left open. What can
be wrong with what a command finds is listed on its own (`Request.Troubled`): there is no such file,
its bytes write no text, it is no JSON, no manifest, or a link leaves out the package that has no
name. If something is wrong, the command tells one such trouble in one line and fails
(`Output.Tells`); else both passes end, and it shows the report on the package that it loaded
(`Output.Shows`). Every function that a command goes through is judged like this (`Judged`). Main
statement: `run_outcome`.

Two guards are named rather than assumed away (`Request.IsPlain`), since the texts of this library
hold characters, and its elements hold texts: a manifest in which half a surrogate pair stands
alone, and one that gives another package an element with something else in the place of a text, are
refused here, whatever a machine that can hold them would do with them later.

A command breaks off instead if what it finds cannot be opened or read: nothing is given out about a
directory (`emptyDirectory_breaks_off`).
-/

namespace ApiDoc.CommandLine

open Workspace

/-! ## What a request is about -/

/-- The options of a request for a command; other requests have none. -/
def Request.options? : Request → Option Options
  | parse options _ | extract options _ => some options
  | _ => none

/-- The path that a request reads from; that of the standard input is empty. -/
def Request.source (request : Request) : Text :=
  (neededPath request).getD []

section
variable {F : Type}

/-- The standard input as something that is found. -/
def Input.found : Input F → Found F
  | .bytes content => .file content
  | .refused f => .refused f

/-- What a request finds: what its path leads to, or the standard input where it has none. -/
def Request.found (env : Environment F) (request : Request) : Found F :=
  ((neededPath request).map env.find).getD env.input.found

/-- The text that a request is about is found: bytes write it, but for the line endings. -/
def Request.Holds (env : Environment F) (request : Request) (t : Text) : Prop :=
  ∃ written, request.found env = .file (Utf8.encode written) ∧ t = Text.universalNewlines written

/-- A request finds no manifest with what this library has no characters or no texts for. -/
structure Request.IsPlain (env : Environment F) (request : Request) : Prop where
  /-- Half a surrogate pair does not stand alone. -/
  whole {options : Options} {file text : Text} (hrequest : request = .extract options file)
    (htext : request.Holds env text) : Json.parse env.limits text ≠ .error .halfPair
  /-- Nothing else stands for a text. -/
  texts {options : Options} {file text : Text} {fields : OrderedMap Json}
    (hrequest : request = .extract options file) (htext : request.Holds env text)
    (hjson : Json.parse env.limits text = .ok (.obj fields)) : Manifest.GivesTexts fields

/-- Why what a request finds cannot be read, loaded or processed. -/
inductive Request.Troubled (env : Environment F) : Request → Trouble → Prop
  | fileMissing {options : Options} {file : Text}
    (hfound : (parse options (some file)).found env = .missing) :
    Troubled env (.parse options (some file)) (.fileMissing file)
  | manifestMissing {options : Options} {file : Text}
    (hfound : (extract options file).found env = .missing) :
    Troubled env (.extract options file) (.manifestMissing (Path.normalize file))
  | notText {request : Request} {bytes : List UInt8} {f : Utf8.Fault}
    (hfound : request.found env = .file bytes) (hbad : ∀ t, bytes ≠ Utf8.encode t)
    (hfault : Utf8.decode bytes = .error f) :
    Troubled env request (.notText f)
  | badPackageName {options : Options} {file : Option Text} {name : Text}
    (hname : options.package = some name) (hbad : ¬ PackageName.IsDeclared name) :
    Troubled env (.parse options file) (.unreadable (.malformed (.badPackageName name)))
  | noKind {options : Options} {file : Option Text} (hkind : options.kind = none) :
    Troubled env (.parse options file) .noKind
  | commentOmitsPackage {options : Options} {file : Option Text} {comment : Text}
    (hcomment : (parse options file).Holds env comment)
    (hname : options.package = none ∨ options.package = some [])
    (homits : Token.OmitPackage (Token.tokenize (Comment.body comment))) :
    Troubled env (.parse options file) (.unreadable (.interrupted .missingPackage))
  | notJson {options : Options} {file text : Text} {e : Json.SyntaxError}
    (htext : (extract options file).Holds env text)
    (hjson : Json.parse env.limits text = .error (.illFormed e)) :
    Troubled env (.extract options file) (.notJson (Path.normalize file) e)
  | tooMuchJson {options : Options} {file text : Text} {e : Json.Excess}
    (htext : (extract options file).Holds env text)
    (hjson : Json.parse env.limits text = .error (.excess e)) :
    Troubled env (.extract options file) (.tooMuchJson e)
  | notObject {options : Options} {file text : Text} {v : Json}
    (htext : (extract options file).Holds env text)
    (hjson : Json.parse env.limits text = .ok v) (hv : ∀ fields, v ≠ .obj fields) :
    Troubled env (.extract options file) (.notObject (Path.normalize file))
  | malformed {options : Options} {file text : Text} {fields : OrderedMap Json}
    {e : Manifest.Error} (htext : (extract options file).Holds env text)
    (hjson : Json.parse env.limits text = .ok (.obj fields))
    (hbad : ∀ package, ¬ Manifest.IsLoadable fields package)
    (he : (Manifest.read (configOf env options) fields).1 = .error (.malformed e)) :
    Troubled env (.extract options file) (.unreadable (.malformed e))
  | manifestOmitsPackage {options : Options} {file text : Text} {fields : OrderedMap Json}
    (htext : (extract options file).Holds env text)
    (hjson : Json.parse env.limits text = .ok (.obj fields))
    (hname : OrderedMap.find? "package".toList fields = some (.str []))
    (homits : Manifest.OmitsPackage fields) :
    Troubled env (.extract options file) (.unreadable (.interrupted .missingPackage))

/-- What a request loads: the package that is reported on, before its completion. -/
inductive Request.Loads (env : Environment F) : Request → Workspace → Prop
  | comment {options : Options} {file : Option Text} {comment : Text} {kind : ItemKind}
    {base w : Workspace} (hcomment : (parse options file).Holds env comment)
    (hbase : workspaceOf (configOf env options) options.package = .ok base)
    (hkind : options.kind = some kind)
    (hadd : (Action.addItem [] standaloneItem kind comment).run base = (.ok (), w)) :
    Loads env (.parse options file) w
  | manifest {options : Options} {file text : Text} {fields : OrderedMap Json} {w : Workspace}
    (htext : (extract options file).Holds env text)
    (hjson : Json.parse env.limits text = .ok (.obj fields))
    (hread : Manifest.read (configOf env options) fields = (.ok (), some w)) :
    Loads env (.extract options file) w

end

/-! ## What a command gives out -/

/-- The report on a workspace in a form. -/
def Format.report (w : Workspace) : Format → Text
  | json => w.reportJson.indented 0
  | summary => w.summaryText

/-- What a command gives out in trouble: one line about it on the error output, behind the
diagnostics that were logged so far if the command is verbose, and the exit status 1. -/
structure Output.Tells (o : Output) (options : Options) (t : Trouble) : Prop where
  status : o.status = 1
  out : o.out = []
  err : ∃ reported : List Diagnostic, o.err =
    (if options.verbose then logLines true (reported.map .problem) else []) ++
      line ("Error: ".toList ++ t.message.toList)

/-- What a command gives out otherwise: the report, and the exit status 1 if and only if the command
is strict and there is a diagnostic. -/
structure Output.Shows (o : Output) (options : Options) (w : Workspace) : Prop where
  status : o.status = if options.strict ∧ w.diagnostics ≠ [] then 1 else 0
  out : o.out = line (options.format.report w)

/-- A report is a line, if not more. -/
theorem Output.Shows.out_ne_nil {o : Output} {options : Options} {w : Workspace}
    (h : o.Shows options w) : o.out ≠ [] :=
  h.out ▸ List.append_ne_nil_of_right_ne_nil _ (List.cons_ne_nil _ _)

/-- How a command ends, judged by what it finds. -/
inductive Judged {F : Type} (env : Environment F) (request : Request) (options : Options) :
    Ending F → Prop
  | refused {f : F} (hfound : request.found env = .refused f) :
    Judged env request options (.refused f request.source)
  | troubled {o : Output} {t : Trouble} (hfound : ∀ f, request.found env ≠ .refused f)
    (htrouble : request.Troubled env t) (htells : o.Tells options t) :
    Judged env request options (.output o)
  | shown {o : Output} {read w : Workspace} (hfound : ∀ f, request.found env ≠ .refused f)
    (hnone : ∀ t, ¬ request.Troubled env t) (hloads : request.Loads env read)
    (hrun : Action.completeAll.run read = (.ok (), w)) (hshows : o.Shows options w) :
    Judged env request options (.output o)

section
variable {F : Type} {env : Environment F} {options : Options} {request : Request}
  {w : Workspace} {t : Trouble} {bytes : List UInt8} {text text₁ : Text} {file : Option Text}
  {config : Config}

/-- Diagnostics are logged for a verbose command only. -/
theorem logLines_diagnostics (hw : w.LogsDiagnostics) (verbose : Bool) : logLines verbose w.log =
    if verbose then logLines true (w.diagnostics.map .problem) else [] := by
  rw [hw]
  cases verbose with
  | true => rfl
  | false =>
    refine List.flatMap_eq_nil_iff.2 fun entry hentry => ?_
    obtain ⟨d, -, rfl⟩ := List.mem_map.1 hentry
    rfl

/-- Nothing was logged before the trouble. -/
theorem judged_troubled (hfound : ∀ f, request.found env ≠ .refused f)
    (htrouble : request.Troubled env t) : Judged env request options (troubled [] t) :=
  .troubled hfound htrouble ⟨rfl, rfl, [], by cases options.verbose <;> rfl⟩

/-- Comments were read before the trouble. -/
theorem judged_troubled_of_log (hfound : ∀ f, request.found env ≠ .refused f)
    (htrouble : request.Troubled env t) (hw : w.LogsDiagnostics) :
    Judged env request options (troubled (logLines options.verbose w.log) t) :=
  .troubled hfound htrouble
    ⟨rfl, rfl, w.diagnostics, congrArg (· ++ _) (logLines_diagnostics hw options.verbose)⟩

/-- The completion is not interrupted, since nobody listens to the diagnostics of a command. -/
theorem judged_finish {loaded : Text} (hfound : ∀ f, request.found env ≠ .refused f)
    (hnone : ∀ t, ¬ request.Troubled env t) (hloads : request.Loads env w) (hq : w.Quiet) :
    Judged env request options (finish options loaded w) := by
  obtain ⟨w₁, hrun, -⟩ := Action.run_completeAll hq
  unfold finish
  simp only [hrun]
  refine .shown hfound hnone hloads hrun ⟨?_, ?_⟩
  · simp
  · cases options.format <;> rfl

/-! ## Texts -/

theorem textOf_eq_ok_iff : textOf bytes = .ok text ↔
    ∃ written, bytes = Utf8.encode written ∧ text = Text.universalNewlines written := by
  simp only [← Utf8.decode_eq_ok_iff]
  unfold textOf
  cases Utf8.decode bytes with
  | ok written => simp [eq_comm]
  | error f => simp

theorem textOf_eq_error (h : textOf bytes = .error t) :
    ∃ f, t = .notText f ∧ Utf8.decode bytes = .error f := by
  unfold textOf at h
  split at h
  · cases h
  · next f hbytes =>
    cases h
    exact ⟨f, rfl, hbytes⟩

theorem Request.holds_of_textOf (hfound : request.found env = .file bytes)
    (htext : textOf bytes = .ok text) : request.Holds env text := by
  obtain ⟨written, rfl, rfl⟩ := textOf_eq_ok_iff.1 htext
  exact ⟨written, hfound, rfl⟩

theorem Request.troubled_of_textOf (hfound : request.found env = .file bytes)
    (htext : textOf bytes = .error t) : request.Troubled env t := by
  obtain ⟨f, rfl, hfault⟩ := textOf_eq_error htext
  exact .notText hfound (Utf8.exists_decode_eq_error_iff.1 ⟨f, hfault⟩) hfault

theorem Request.Holds.ne_missing (h : request.Holds env text) : request.found env ≠ .missing := by
  obtain ⟨written, hfound, -⟩ := h
  rw [hfound]
  nofun

theorem Request.Holds.ne_refused (h : request.Holds env text) (f : F) :
    request.found env ≠ .refused f := by
  obtain ⟨written, hfound, -⟩ := h
  rw [hfound]
  nofun

/-- One text at most is found. -/
theorem Request.Holds.unique (h : request.Holds env text) (h₁ : request.Holds env text₁) :
    text = text₁ := by
  obtain ⟨written, hfound, rfl⟩ := h
  obtain ⟨written₁, hfound₁, rfl⟩ := h₁
  rw [Utf8.encode_injective (Found.file.inj (hfound.symm.trans hfound₁))]

/-- The bytes in which a text is found write it. -/
theorem Request.Holds.exists_encode (h : request.Holds env text)
    (hfound : request.found env = .file bytes) : ∃ written, bytes = Utf8.encode written := by
  obtain ⟨written, hfound₁, -⟩ := h
  exact ⟨written, Found.file.inj (hfound.symm.trans hfound₁)⟩

/-- Where there is no manifest, all is plain. -/
theorem Request.isPlain_of_comment : (parse options file).IsPlain env :=
  ⟨fun h => (by cases h), fun h => (by cases h)⟩

theorem Request.isPlain_of_missing (hmissing : request.found env = .missing) :
    request.IsPlain env :=
  ⟨fun _ htext => absurd hmissing htext.ne_missing, fun _ htext => absurd hmissing htext.ne_missing⟩

theorem Request.isPlain_of_manifest {file : Text} {fields : OrderedMap Json}
    (htext : (extract options file).Holds env text)
    (hjson : Json.parse env.limits text = .ok (.obj fields))
    (htexts : Manifest.GivesTexts fields) : (extract options file).IsPlain env where
  whole hrequest htext₁ hhalf := by
    cases hrequest
    cases htext.unique htext₁
    cases hjson.symm.trans hhalf
  texts hrequest htext₁ hjson₁ := by
    cases hrequest
    cases htext.unique htext₁
    cases hjson.symm.trans hjson₁
    exact htexts

/-! ## Single comments -/

/-- What is known of the workspace for a single comment. -/
theorem of_workspaceOf {name? : Option Text} (h : workspaceOf config name? = .ok w) :
    w.Quiet ∧ w.isComplete = false ∧ w.LogsDiagnostics ∧
      (w.identity = none ↔ name? = none ∨ name? = some []) ∧
      ∀ name, name? = some name → PackageName.IsDeclared name := by
  cases name? with
  | none =>
    cases h
    exact ⟨quiet_of_faults_eq_nil rfl, rfl, rfl, iff_of_true rfl (.inl rfl), nofun⟩
  | some name =>
    cases hname : ofName? name config with
    | none => simp [workspaceOf, hname] at h
    | some base =>
      simp only [workspaceOf, hname, Except.ok.injEq] at h
      subst h
      obtain ⟨hdeclared, hreading⟩ := Manifest.of_ofName? hname
      have hbase := hreading base.external
      refine ⟨hbase.quiet, hbase.isOpen,
        Manifest.logsDiagnostics_of_ofName? hname base.external, ?_, ?_⟩
      · simpa using hbase.identity
      · rintro _ ⟨rfl⟩
        exact hdeclared

theorem workspaceOf_eq_error {name? : Option Text} (h : workspaceOf config name? = .error t) :
    ∃ name, name? = some name ∧ ¬ PackageName.IsDeclared name ∧
      t = .unreadable (.malformed (.badPackageName name)) := by
  cases name? with
  | none => cases h
  | some name =>
    refine ⟨name, rfl, fun hdeclared => ?_, ?_⟩
    · obtain ⟨base, hbase⟩ := Manifest.exists_ofName? hdeclared config
      simp [workspaceOf, hbase] at h
    · cases hname : ofName? name config with
      | none => simpa [workspaceOf, hname, eq_comm] using h
      | some base => simp [workspaceOf, hname] at h

/-- What a single comment comes to before it is read. -/
theorem standalone_cases (hfound : (Request.parse options file).found env = .file bytes) :
    (∃ t, standalone (configOf env options) options bytes = .error t ∧
      (Request.parse options file).Troubled env t) ∨
    ∃ base kind comment, standalone (configOf env options) options bytes =
        .ok (base, kind, comment) ∧ (Request.parse options file).Holds env comment ∧
      workspaceOf (configOf env options) options.package = .ok base ∧
      options.kind = some kind := by
  unfold standalone
  cases htext : textOf bytes with
  | error t => exact .inl ⟨t, rfl, Request.troubled_of_textOf hfound htext⟩
  | ok comment =>
    cases hbase : workspaceOf (configOf env options) options.package with
    | error t =>
      obtain ⟨name, hname, hbad, rfl⟩ := workspaceOf_eq_error hbase
      exact .inl ⟨_, rfl, .badPackageName hname hbad⟩
    | ok base =>
      cases hkind : options.kind with
      | none => exact .inl ⟨_, rfl, .noKind hkind⟩
      | some kind =>
        exact .inr ⟨base, kind, comment, rfl, Request.holds_of_textOf hfound htext, rfl, rfl⟩

theorem not_troubled_of_comment {comment : Text} {kind : ItemKind}
    (hcomment : (Request.parse options file).Holds env comment)
    (hdeclared : ∀ name, options.package = some name → PackageName.IsDeclared name)
    (hkind : options.kind = some kind)
    (hkeeps : ¬ ((options.package = none ∨ options.package = some []) ∧
      Token.OmitPackage (Token.tokenize (Comment.body comment)))) (t : Trouble) :
    ¬ (Request.parse options file).Troubled env t := by
  intro htrouble
  cases htrouble with
  | fileMissing hmissing => exact hcomment.ne_missing hmissing
  | notText hfound hbad => exact (hcomment.exists_encode hfound).elim hbad
  | badPackageName hname hbad => exact hbad (hdeclared _ hname)
  | noKind hnone => cases hkind.symm.trans hnone
  | commentOmitsPackage hcomment₁ hname homits =>
    cases hcomment.unique hcomment₁
    exact hkeeps ⟨hname, homits⟩

theorem judged_runComment (hfound : (Request.parse options file).found env = .file bytes) :
    Judged env (.parse options file) options (runComment env options bytes) := by
  have hopen (f : F) : (Request.parse options file).found env ≠ .refused f := by
    rw [hfound]
    nofun
  unfold runComment
  rcases standalone_cases hfound with
    ⟨t, hrun, htrouble⟩ | ⟨base, kind, comment, hrun, hcomment, hbase, hkind⟩ <;>
    simp only [hrun]
  · exact judged_troubled hopen htrouble
  · obtain ⟨hq, hcomplete, hlog, hidentity, hdeclared⟩ := of_workspaceOf hbase
    have hlogs := Action.keeps_addItem [] standaloneItem kind comment base hlog
    rcases Action.run_addItem_outcome hq hcomplete [] standaloneItem kind comment with
      ⟨w, hadd, hnone, homits⟩ | ⟨d, w, hadd, hreports, hq₁, hkeeps⟩ <;> rw [hadd] at hlogs ⊢
    · exact judged_troubled_of_log hopen (.commentOmitsPackage hcomment (hidentity.1 hnone) homits)
        hlogs
    · rw [hidentity] at hkeeps
      exact judged_finish hopen (not_troubled_of_comment hcomment hdeclared hkind hkeeps)
        (.comment hcomment hbase hkind hadd) hq₁

theorem judged_runParse (file : Option Text) :
    Judged env (.parse options file) options (runParse env options file) := by
  match file with
  | none | some [] =>
    unfold runParse
    dsimp only
    cases hinput : env.input with
    | bytes bytes => exact judged_runComment (congrArg Input.found hinput)
    | refused f => exact .refused (congrArg Input.found hinput)
  | some (c :: file) =>
    unfold runParse
    dsimp only
    cases hfind : env.find (Path.normalize (c :: file)) with
    | missing => exact judged_troubled (fun f h => nomatch hfind.symm.trans h) (.fileMissing hfind)
    | refused f => exact .refused hfind
    | file bytes => exact judged_runComment hfind

/-! ## Manifests -/

/-- What a manifest comes to before its fields are read. -/
theorem manifestOf_cases {file : Text} (hplain : (Request.extract options file).IsPlain env)
    (hfound : (Request.extract options file).found env = .file bytes) :
    (∃ t, manifestOf env.limits (Path.normalize file) bytes = .error t ∧
      (Request.extract options file).Troubled env t) ∨
    ∃ text fields, manifestOf env.limits (Path.normalize file) bytes = .ok fields ∧
      (Request.extract options file).Holds env text ∧
      Json.parse env.limits text = .ok (.obj fields) := by
  unfold manifestOf
  cases htext : textOf bytes with
  | error t => exact .inl ⟨t, rfl, Request.troubled_of_textOf hfound htext⟩
  | ok text =>
    have hholds := Request.holds_of_textOf hfound htext
    dsimp only [bind, Except.bind]
    cases hjson : Json.parse env.limits text with
    | error e =>
      cases e with
      | illFormed e => exact .inl ⟨_, rfl, .notJson hholds hjson⟩
      | excess e => exact .inl ⟨_, rfl, .tooMuchJson hholds hjson⟩
      | halfPair => exact absurd hjson (hplain.whole rfl hholds)
    | ok v =>
      cases v with
      | obj fields => exact .inr ⟨text, fields, rfl, hholds, hjson⟩
      | null | bool | int | double | str | arr =>
        exact .inl ⟨_, rfl, .notObject hholds hjson nofun⟩

theorem not_troubled_of_manifest {file package : Text} {fields : OrderedMap Json}
    (htext : (Request.extract options file).Holds env text)
    (hjson : Json.parse env.limits text = .ok (.obj fields))
    (hgood : Manifest.IsLoadable fields package)
    (hkeeps : ¬ (package = [] ∧ Manifest.OmitsPackage fields)) (t : Trouble) :
    ¬ (Request.extract options file).Troubled env t := by
  intro htrouble
  cases htrouble with
  | manifestMissing hmissing => exact htext.ne_missing hmissing
  | notText hfound hbad => exact (htext.exists_encode hfound).elim hbad
  | notJson htext₁ hjson₁ | tooMuchJson htext₁ hjson₁ =>
    cases htext.unique htext₁
    cases hjson.symm.trans hjson₁
  | notObject htext₁ hjson₁ hv =>
    cases htext.unique htext₁
    cases hjson.symm.trans hjson₁
    exact hv _ rfl
  | malformed htext₁ hjson₁ hbad =>
    cases htext.unique htext₁
    cases hjson.symm.trans hjson₁
    exact hbad _ hgood
  | manifestOmitsPackage htext₁ hjson₁ hname homits =>
    cases htext.unique htext₁
    cases hjson.symm.trans hjson₁
    cases hgood.declared.symm.trans hname
    exact hkeeps ⟨rfl, homits⟩

/-- Nothing else is wrong with a manifest that is not there. -/
theorem Request.Troubled.eq_of_missing {file : Text}
    (hmissing : (extract options file).found env = .missing)
    (h : (extract options file).Troubled env t) :
    t = .manifestMissing (Path.normalize file) := by
  cases h with
  | manifestMissing => rfl
  | notText hfound => cases hmissing.symm.trans hfound
  | notJson htext | tooMuchJson htext | notObject htext | malformed htext
  | manifestOmitsPackage htext => exact absurd hmissing htext.ne_missing

theorem judged_runExtract {file : Text} (hplain : (Request.extract options file).IsPlain env) :
    Judged env (.extract options file) options (runExtract env options file) := by
  unfold runExtract
  dsimp only
  cases hfind : env.find (Path.normalize file) with
  | missing =>
    exact judged_troubled (fun f h => nomatch hfind.symm.trans h) (.manifestMissing hfind)
  | refused f => exact .refused hfind
  | file bytes =>
    have hfound : (Request.extract options file).found env = .file bytes := hfind
    have hopen (f : F) : (Request.extract options file).found env ≠ .refused f :=
      fun h => nomatch hfound.symm.trans h
    dsimp only
    rcases manifestOf_cases hplain hfound with
      ⟨t, hrun, htrouble⟩ | ⟨text, fields, hrun, htext, hjson⟩ <;> simp only [hrun]
    · exact judged_troubled hopen htrouble
    · have hform (package : Text) : Manifest.IsLoadable fields package ↔
          Manifest.IsWellFormed fields package :=
        Manifest.isLoadable_iff (hplain.texts rfl htext hjson)
      rcases Manifest.read_cases (configOf env options) fields with
        ⟨e, hread, hbad⟩ | ⟨package, outcome, w, hread, hhead, hlog, hjudged⟩ <;> simp only [hread]
      · exact judged_troubled hopen (.malformed htext hjson
          (fun package h => hbad package ((hform package).1 h)) (by rw [hread]))
      · cases hjudged with
        | malformed hbad =>
          -- The judgement is about one package; no other name stands in the manifest.
          refine judged_troubled_of_log hopen (.malformed htext hjson (fun package₁ h => ?_)
            (by rw [hread])) hlog
          cases hhead.declared.symm.trans h.declared
          exact hbad ((hform package).1 h)
        | interrupted homits =>
          obtain ⟨rfl, homits⟩ := homits
          exact judged_troubled_of_log hopen
            (.manifestOmitsPackage htext hjson hhead.declared homits) hlog
        | read hw hgood hkeeps =>
          exact judged_finish hopen
            (not_troubled_of_manifest htext hjson ((hform package).2 hgood) hkeeps)
            (.manifest htext hjson hread) hw.quiet

/-! ## Commands -/

theorem judged_run (hcommand : request.options? = some options) (hplain : request.IsPlain env) :
    Judged env request options (request.run env) := by
  cases request with
  | help | version | noCommand | misuse => cases hcommand
  | parse options file =>
    cases hcommand
    exact judged_runParse file
  | extract options file =>
    cases hcommand
    exact judged_runExtract hplain

/-- A command breaks off if and only if what it finds cannot be opened or read, for whatever reason.
Else, if what it finds cannot be read, loaded or processed, it tells why in one line and fails; and
if it can be, both passes end, and the command shows the report on what it loaded, and fails if and
only if it is strict and there is a diagnostic. -/
theorem run_outcome (env : Environment F) {arguments : List Text} {request : Request}
    {options : Options} (hrequest : Arguments.read arguments = request)
    (hcommand : request.options? = some options) (hplain : request.IsPlain env) :
    (∀ f path, run env arguments = .refused f path ↔
      request.found env = .refused f ∧ path = request.source) ∧
    ((∀ f, request.found env ≠ .refused f) →
      ((∃ t, request.Troubled env t) → ∃ o t, run env arguments = .output o ∧
        request.Troubled env t ∧ o.Tells options t) ∧
      ((∀ t, ¬ request.Troubled env t) → ∃ o read w, run env arguments = .output o ∧
        request.Loads env read ∧ Action.completeAll.run read = (.ok (), w) ∧
        o.Shows options w)) := by
  have hjudged : Judged env request options (run env arguments) := by
    rw [run, hrequest]
    exact judged_run hcommand hplain
  cases hrun : run env arguments with
  | refused f path =>
    rw [hrun] at hjudged
    cases hjudged with
    | refused hfound =>
      refine ⟨fun f₁ path₁ => ⟨?_, ?_⟩, fun hopen => absurd hfound (hopen f)⟩
      · rintro ⟨⟩
        exact ⟨hfound, rfl⟩
      · rintro ⟨hfound₁, rfl⟩
        cases hfound.symm.trans hfound₁
        rfl
  | output o =>
    rw [hrun] at hjudged
    cases hjudged with
    | troubled hfound htrouble htells =>
      exact ⟨fun f path => iff_of_false nofun fun h => hfound f h.1,
        fun _ => ⟨fun _ => ⟨o, _, rfl, htrouble, htells⟩, fun hnone => absurd htrouble (hnone _)⟩⟩
    | shown hfound hnone hloads hcomplete hshows =>
      exact ⟨fun f path => iff_of_false nofun fun h => hfound f h.1,
        fun _ => ⟨fun ⟨t, htrouble⟩ => absurd htrouble (hnone t),
          fun _ => ⟨o, _, _, rfl, hloads, hcomplete, hshows⟩⟩⟩

end

/-- What is known of another package: the summary of a function. -/
def otherPackage : Json :=
  .object [("f", .object [("kind", .ofString "function"),
    ("summary", .arr [.object [("kind", .ofString "text"), ("text", .ofString "Does it.")]])])]

/-- A manifest that says what is known of another package. -/
def knowingManifest : OrderedMap Json :=
  [("package".toList, .ofString "p"), ("external".toList, .object [("q", otherPackage)])]

/-- A working directory with this manifest, and a tag that does not exist on the standard input. -/
def smallDirectory : Environment where
  find path :=
    if path = ['.'] then .refused .isDirectory
    else if path = "api.json".toList then .file (Utf8.encode (Json.obj knowingManifest).write)
    else .missing
  input := Utf8.encode "@bogus".toList
  switch := none

/-- The package of a single comment, unless another one is named. -/
def localPackage : Workspace where
  package := { name := some "local-package".toList }
  identity := some { scope := [], name := "local-package".toList }
  config := {}

theorem smallDirectory_holds :
    (Request.parse { strict := true } none).Holds smallDirectory "@bogus".toList :=
  ⟨"@bogus".toList, rfl, rfl⟩

/-- The comment on the standard input is reported on for its tag. -/
theorem smallDirectory_diagnostics {read w : Workspace}
    (hloads : (Request.parse { strict := true } none).Loads smallDirectory read)
    (hcomplete : Action.completeAll.run read = (.ok (), w)) : w.diagnostics ≠ [] := by
  cases hloads with
  | comment hcomment hbase hkind hadd =>
    cases smallDirectory_holds.unique hcomment
    have hopen : workspaceOf (configOf smallDirectory { strict := true })
        (some "local-package".toList) = .ok localPackage := rfl
    cases hopen.symm.trans hbase
    cases hkind
    have hrun : (Action.completeAll.run ((Action.addItem [] standaloneItem .function
      "@bogus".toList).run localPackage).2).2.diagnostics.isEmpty = false := by cbv
    rw [hadd, hcomplete] at hrun
    exact List.isEmpty_eq_false_iff.1 hrun

/-- A strict command shows the report on the comment and fails because of its tag, one about the
manifest does not fail, and one about a manifest that is not there tells that. -/
theorem smallDirectory_run_outcome :
    (∃ o, run smallDirectory ["parse".toList, "--strict".toList] = .output o ∧
      o.status = 1 ∧ o.out ≠ []) ∧
    (∃ o, run smallDirectory ["extract".toList, "api.json".toList] = .output o ∧
      o.status = 0 ∧ o.out ≠ []) ∧
    ∃ o, run smallDirectory ["extract".toList, "no.json".toList] = .output o ∧
      o.status = 1 ∧ o.out = [] ∧ o.err = "Error: Manifest not found: no.json\n".toList := by
  refine ⟨?_, ?_, ?_⟩
  · have hrequest : Arguments.read ["parse".toList, "--strict".toList] =
        .parse { strict := true } none := by decide
    have hbase : ofName? "local-package".toList {} = some localPackage := rfl
    have hnone := not_troubled_of_comment smallDirectory_holds
      (fun name hname => by
        cases hname
        exact (Manifest.of_ofName? hbase).1) rfl (by simp)
    obtain ⟨-, hends⟩ := run_outcome smallDirectory hrequest rfl Request.isPlain_of_comment
    obtain ⟨o, read, w, hrun, hloads, hcomplete, hshows⟩ :=
      (hends fun f h => by cases h).2 hnone
    have hreported := smallDirectory_diagnostics hloads hcomplete
    exact ⟨o, hrun, hshows.status.trans (if_pos ⟨rfl, hreported⟩), hshows.out_ne_nil⟩
  · have hrequest : Arguments.read ["extract".toList, "api.json".toList] =
        .extract {} "api.json".toList := by decide +kernel
    have htext : (Request.extract {} "api.json".toList).Holds smallDirectory
        (Json.obj knowingManifest).write := ⟨(Json.obj knowingManifest).write, by cbv, by cbv⟩
    have hjson : Json.parse manifestLimits (Json.obj knowingManifest).write =
        .ok (.obj knowingManifest) := by cbv
    have hexternal := Manifest.exists_external_iff.1
      ⟨_, (rfl : Manifest.external (.object [("q", otherPackage)]) = .ok _)⟩
    have htexts : Manifest.GivesTexts knowingManifest := fun _ => hexternal
    have hgood : Manifest.IsLoadable knowingManifest "p".toList :=
      (Manifest.isLoadable_iff htexts).2
        ⟨⟨rfl, (Manifest.of_ofName? (rfl : ofName? "p".toList {} = some _)).1, hexternal⟩,
          [], rfl, by simp⟩
    obtain ⟨-, hends⟩ := run_outcome smallDirectory hrequest rfl
      (Request.isPlain_of_manifest htext hjson htexts)
    obtain ⟨o, read, w, hrun, -, -, hshows⟩ := (hends htext.ne_refused).2
      (not_troubled_of_manifest htext hjson hgood (by simp))
    exact ⟨o, hrun, hshows.status.trans (if_neg (by simp)), hshows.out_ne_nil⟩
  · have hrequest : Arguments.read ["extract".toList, "no.json".toList] =
        .extract {} "no.json".toList := by decide +kernel
    have hmissing : (Request.extract {} "no.json".toList).found smallDirectory = .missing := by
      decide +kernel
    obtain ⟨-, hends⟩ :=
      run_outcome smallDirectory hrequest rfl (Request.isPlain_of_missing hmissing)
    obtain ⟨o, t, hrun, htrouble, htells⟩ :=
      (hends fun f h => by cases hmissing.symm.trans h).1 ⟨_, .manifestMissing hmissing⟩
    have hline : line ("Error: ".toList ++
        (Trouble.manifestMissing (Path.normalize "no.json".toList)).message.toList) =
          "Error: Manifest not found: no.json\n".toList := by decide +kernel
    obtain ⟨_, herr⟩ := htells.err
    rw [htrouble.eq_of_missing hmissing] at herr
    exact ⟨o, hrun, htells.status, htells.out, herr.trans hline⟩

/-- A path that leads to a directory makes a command break off: it gives nothing out, and has no
exit status. -/
theorem smallDirectory_breaks_off :
    run smallDirectory ["extract".toList, ".".toList] = .refused .isDirectory ".".toList ∧
    ∀ o, run smallDirectory ["extract".toList, ".".toList] ≠ .output o := by
  have hrun : run smallDirectory ["extract".toList, ".".toList] =
      .refused .isDirectory ".".toList := by decide +kernel
  exact ⟨hrun, fun o h => nomatch hrun.symm.trans h⟩

end ApiDoc.CommandLine
