import ApiDoc.Proofs.Inheritance.Visiting
import ApiDoc.Proofs.Sections.Contents
import ApiDoc.Proofs.Sections.Marks

/-!
# Inherited deprecation

An item that inherits from a deprecated one must say itself that it is deprecated, if the settings
ask for it. The check stands in two places. At the end of a comment it never finds anything, since
nothing is inherited before the comments of the package are read
(`Documentation.undeprecated_of_parse`). At the end of a completion it finds what the requests came
to: whether one of them led to an item with a message of its own, and was not circular. What the
target inherits itself does not matter, nor does what later requests lead to. Main statement:
`Session.inherited_deprecation_enforced`.
-/

namespace ApiDoc

open Workspace

/-- Nothing was inherited from a deprecated item so far, and no one was told of that. -/
structure Documentation.Undeprecated (d : Documentation) : Prop where
  notInherited : d.isInheritedDeprecated = false
  unreported : d.problems.count .deprecationNotRestated = 0

namespace Workspace

/-- The content of a request leads to an item that says itself that it is deprecated. -/
def LeadsToDeprecated (w : Workspace) (content : Text) : Prop :=
  Text.hasBlank content = false ∧ ∃ key target, Reference.parse content = .ok key ∧
    w.lookUp key = .found target ∧ (w.view target).content.deprecatedMessage ≠ []

/-- How often a request of a documentation with this content was reported as circular in the
completion of `w₀` up to `w`. -/
def circularReports (w₀ w : Workspace) (id : DocId) (content : Text) : Nat :=
  ((w₀.document id).newProblems (w.document id)).count (.circularInheritDoc content)

/-- A request of a documentation that was not reported as circular leads to a deprecated item: there
are more requests with its content than reports. -/
def InheritsDeprecation (w₀ w : Workspace) (id : DocId) : Prop :=
  ∃ content, w₀.LeadsToDeprecated content ∧
    w₀.circularReports w id content < (w₀.document id).pendingInheritDocs.count content

/-- A documentation must be reported at the end of its completion: the settings ask for it, its
comment has no message of its own, and it inherits from a deprecated item. -/
def OmitsDeprecation (w₀ w : Workspace) (id : DocId) : Prop :=
  w₀.config.enforceInheritedDeprecation = true ∧
    (w₀.document id).content.deprecatedMessage = [] ∧ w₀.InheritsDeprecation w id

/-- What a documentation knows of the deprecation of what it inherits from, while its requests are
met: the requests that are gone from its queue were met, and some were reported as circular. -/
structure MeetsDeprecated (w₀ w : Workspace) (id : DocId) : Prop where
  message : (w.document id).content.deprecatedMessage = [] ↔
    (w₀.document id).content.deprecatedMessage = []
  unreported : (w.document id).problems.count .deprecationNotRestated = 0
  requests : ∃ met, (w₀.document id).pendingInheritDocs =
      met ++ (w.document id).pendingInheritDocs ∧
    (∀ content, w₀.circularReports w id content ≤ met.count content) ∧
    ((w.document id).isInheritedDeprecated = true ↔ ∃ content, w₀.LeadsToDeprecated content ∧
      w₀.circularReports w id content < met.count content)

/-- What is known of a completed documentation: one that was begun meanwhile is reported once if it
must be, and else it is not. -/
structure RestatesDeprecation (w₀ w : Workspace) (id : DocId) : Prop where
  message : (w.document id).content.deprecatedMessage = [] ↔
    (w₀.document id).content.deprecatedMessage = []
  reported : (w₀.document id).state = .unvisited →
    (w₀.OmitsDeprecation w id → (w.document id).problems.count .deprecationNotRestated = 1) ∧
    (¬ w₀.OmitsDeprecation w id → (w.document id).problems.count .deprecationNotRestated = 0)

end Workspace

section
variable {d d₁ : Documentation} {p : Problem} {w₀ w w₁ : Workspace} {id source : DocId}
  {kind : ItemKind} {content : Text} {rest : List Text} {new : List Problem}
  {around : Surroundings} {history : History}

/-! ## The end of a comment -/

namespace Documentation

theorem Undeprecated.report (h : d.Undeprecated) (hp : p ≠ .deprecationNotRestated) :
    (d.report p).Undeprecated where
  notInherited := h.notInherited
  unreported := by
    simp [Documentation.report, h.unreported, hp]

theorem Undeprecated.reportIf (h : d.Undeprecated) (condition : Bool)
    (hp : p ≠ .deprecationNotRestated) : (d.reportIf condition p).Undeprecated := by
  unfold Documentation.reportIf
  split
  · exact h.report hp
  · exact h

theorem Undeprecated.readRun (h : d.Undeprecated) {package : Option PackageName} {run : Run}
    {r : Block × Documentation} (hread : Documentation.readRun package d run = .ok r) :
    r.2.Undeprecated where
  notInherited := by
    rw [← h.notInherited]
    exact readRun_keeps (fun _ _ => rfl) (fun _ _ => rfl) (fun _ _ => rfl) hread
  unreported := by
    rw [← h.unreported]
    show (List.count .deprecationNotRestated ∘ problems) r.2 = _
    refine readRun_keeps (fun {p} hp d => ?_) (fun _ _ => rfl) (fun _ _ => rfl) hread
    have hne : p ≠ .deprecationNotRestated := by
      rintro rfl
      cases hp
    simp [Documentation.report, hne]

theorem Undeprecated.readSection (h : d.Undeprecated) {s : Section}
    (hs : ∀ p, s = .badParam p → p.isOfParam = true)
    (hread : Documentation.readSection around d s = .ok d₁) : d₁.Undeprecated := by
  have hcheck (tag : BlockTag) : (d.checkSection tag).Undeprecated := h.reportIf _ nofun
  have hform {p : Problem} (hp : p.isOfForm = true) : p ≠ .deprecationNotRestated := by
    rintro rfl
    cases hp
  cases s with
  | remarks run | returns run | param name lead run =>
    obtain ⟨r, hrun, hok⟩ := exists_of_bind_eq_ok hread
    cases hok
    exact { (hcheck _).readRun hrun with }
  | deprecated run =>
    obtain ⟨r, hrun, hok⟩ := exists_of_bind_eq_ok hread
    cases hok
    refine Undeprecated.reportIf ?_ _ nofun
    exact { h.readRun hrun with }
  | internalRemarks run | stray run =>
    obtain ⟨r, hrun, hok⟩ := exists_of_bind_eq_ok hread
    cases hok
    exact h.readRun hrun
  | release | flag =>
    cases hread
    exact { h with }
  | badParam problem =>
    cases hread
    exact (hcheck .param).report (hform (Problem.isOfForm_of_isOfParam (hs problem rfl)))
  | unsupported token =>
    cases hread
    exact h.report (hform (isOfForm_tagProblem token))
  | strayText chars =>
    cases hread
    exact h.reportIf _ nofun

/-- The check at the end of a comment finds nothing, and the others are about marks. -/
theorem Undeprecated.finish (h : d.Undeprecated) (releaseTags : Nat) :
    (d.finish releaseTags).Undeprecated := by
  have homits : d.omitsDeprecation = false := by
    rw [omitsDeprecation, h.notInherited, Bool.false_and]
  have hd : ((d.reportIf d.omitsDeprecation .deprecationNotRestated).reportIf (1 < releaseTags)
      .manyReleaseTags).Undeprecated := by
    rw [homits]
    exact h.reportIf _ Problem.noConfusion
  unfold Documentation.finish
  dsimp only
  refine Undeprecated.reportIf (p := .virtualAndOverride) ?_ _ Problem.noConfusion
  refine Undeprecated.reportIf (p := .sealedAndVirtual) ?_ _ Problem.noConfusion
  split
  · exact { hd.report (p := .preapprovedNotInternal) Problem.noConfusion with }
  · exact hd

theorem undeprecated_of_parse {itemName : Option Text} {body : Text}
    (hparse : parse around itemName body = .ok d) : d.Undeprecated := by
  obtain ⟨r, hsummary, hparse⟩ := exists_of_bind_eq_ok hparse
  obtain ⟨d₁, hsections, hok⟩ := exists_of_bind_eq_ok hparse
  cases hok
  refine Undeprecated.finish ?_ _
  have hstart (n : Nat) : (opened itemName n).Undeprecated :=
    ⟨rfl, by simp [opened, List.count_replicate]⟩
  refine foldlM_keeps (P := Undeprecated) (fun s hs _ _ hd hread => hd.readSection ?_ hread)
    ?_ hsections
  · rintro p rfl
    exact Section.isOfParam_of_mem hs
  · exact { (hstart _).readRun hsummary with }

end Documentation

/-! ## What requests lead to -/

namespace Documentation

/-- The message of the item itself is not inherited. -/
theorem deprecatedMessage_inherit (source : ResolvedItem) (d : Documentation) :
    (d.inherit source).content.deprecatedMessage = d.content.deprecatedMessage := by
  unfold Documentation.inherit
  dsimp only
  split <;> rfl

theorem isInheritedDeprecated_inherit (source : ResolvedItem) (d : Documentation) :
    (d.inherit source).isInheritedDeprecated = true ↔
      d.isInheritedDeprecated = true ∨ source.content.deprecatedMessage ≠ [] := by
  simp [Documentation.inherit, Content.detach, Content.mapBlocks, Block.detach]

end Documentation

namespace Workspace

/-- Whether a request leads to a deprecated item, in terms of what it amounts to. -/
theorem leadsToDeprecated_iff : w.LeadsToDeprecated content ↔
    match w.lead content with
    | .own _ source => (w.document source).content.deprecatedMessage ≠ []
    | .external item => item.content.deprecatedMessage ≠ []
    | .blank | .malformed _ | .nowhere _ => False := by
  have hspec := w.lead_spec content
  cases hlead : w.lead content with
  | blank =>
    rw [hlead] at hspec
    simp [LeadsToDeprecated, hspec]
  | malformed e =>
    rw [hlead] at hspec
    simp [LeadsToDeprecated, hspec]
  | nowhere warning =>
    rw [hlead] at hspec
    obtain ⟨-, key, hparse, hlookUp⟩ := hspec
    simp [LeadsToDeprecated, hparse, hlookUp]
  | external item =>
    rw [hlead] at hspec
    obtain ⟨hblank, key, hparse, hlookUp⟩ := hspec
    simp [LeadsToDeprecated, hblank, hparse, hlookUp, view]
  | own kind source =>
    rw [hlead] at hspec
    obtain ⟨hblank, key, hparse, hlookUp⟩ := hspec
    simp [LeadsToDeprecated, hblank, hparse, hlookUp, view, Documentation.resolved]

/-! ## Meeting requests -/

/-- Reports that are about no circular request leave their number as it is. -/
theorem circularReports_eq (hw : w₀.Evolves w)
    (hproblems : (w₁.document id).problems = (w.document id).problems ++ new)
    (hnew : new.count (.circularInheritDoc content) = 0) :
    w₀.circularReports w₁ id content = w₀.circularReports w id content := by
  rw [circularReports, (hw.documents id).newProblems_of_problems hproblems, List.count_append, hnew]
  rfl

/-- A step that meets a request which is not circular: what is inherited comes from a deprecated
item if the request leads to one. -/
theorem MeetsDeprecated.met (h : w₀.MeetsDeprecated w id) (hw : w₀.Evolves w)
    (hpending : (w.document id).pendingInheritDocs = content :: rest)
    (hrest : (w₁.document id).pendingInheritDocs = rest)
    (hmessage : (w₁.document id).content.deprecatedMessage =
      (w.document id).content.deprecatedMessage)
    (hproblems : (w₁.document id).problems = (w.document id).problems ++ new)
    (hnew : ∀ p ∈ new, p ≠ .deprecationNotRestated ∧ ∀ content, p ≠ .circularInheritDoc content)
    (hinherited : (w₁.document id).isInheritedDeprecated = true ↔
      (w.document id).isInheritedDeprecated = true ∨ w₀.LeadsToDeprecated content) :
    w₀.MeetsDeprecated w₁ id where
  message := by
    rw [hmessage]
    exact h.message
  unreported := by
    have hnone : new.count .deprecationNotRestated = 0 :=
      List.count_eq_zero.2 fun hmem => (hnew _ hmem).1 rfl
    rw [hproblems, List.count_append, h.unreported, hnone]
  requests := by
    obtain ⟨met, hmet, hle, hiff⟩ := h.requests
    have hsame (x : Text) : w₀.circularReports w₁ id x = w₀.circularReports w id x :=
      circularReports_eq hw hproblems (List.count_eq_zero.2 fun hmem => (hnew _ hmem).2 x rfl)
    refine ⟨met ++ [content], ?_, fun x => ?_, ?_⟩
    · rw [hmet, hpending, hrest, List.append_assoc]
      rfl
    · rw [hsame, List.count_append]
      exact Nat.le_add_right_of_le (hle x)
    · rw [hinherited, hiff]
      constructor
      · rintro (⟨x, hleads, hlt⟩ | hleads)
        · refine ⟨x, hleads, ?_⟩
          rw [hsame, List.count_append]
          omega
        · refine ⟨content, hleads, ?_⟩
          rw [hsame, List.count_append, List.count_singleton_self]
          exact Nat.lt_succ_of_le (hle content)
      · rintro ⟨x, hleads, hlt⟩
        by_cases hx : x = content
        · exact .inr (hx ▸ hleads)
        · have hother : [content].count x = 0 := List.count_eq_zero.2 (by simpa using hx)
          rw [hsame, List.count_append, hother] at hlt
          exact .inl ⟨x, hleads, hlt⟩

/-- A step that meets a circular request: nothing is inherited. -/
theorem MeetsDeprecated.circular (h : w₀.MeetsDeprecated w id) (hw : w₀.Evolves w)
    (hpending : (w.document id).pendingInheritDocs = content :: rest)
    (hrest : (w₁.document id).pendingInheritDocs = rest)
    (hmessage : (w₁.document id).content.deprecatedMessage =
      (w.document id).content.deprecatedMessage)
    (hproblems : (w₁.document id).problems =
      (w.document id).problems ++ [.circularInheritDoc content])
    (hinherited : (w₁.document id).isInheritedDeprecated =
      (w.document id).isInheritedDeprecated) :
    w₀.MeetsDeprecated w₁ id where
  message := by
    rw [hmessage]
    exact h.message
  unreported := by
    rw [hproblems, List.count_append, h.unreported]
    rfl
  requests := by
    obtain ⟨met, hmet, hle, hiff⟩ := h.requests
    -- the request and its report count for one each
    have hboth (x : Text) : w₀.circularReports w₁ id x =
        w₀.circularReports w id x + [content].count x := by
      rw [circularReports, (hw.documents id).newProblems_of_problems hproblems, List.count_append]
      simp [circularReports, List.count_singleton]
    refine ⟨met ++ [content], ?_, fun x => ?_, ?_⟩
    · rw [hmet, hpending, hrest, List.append_assoc]
      rfl
    · rw [hboth, List.count_append]
      exact Nat.add_le_add_right (hle x) _
    · rw [hinherited, hiff]
      simp only [hboth, List.count_append, Nat.add_lt_add_iff_right]

/-! ## All through a completion -/

/-- Looking links up touches no message and reports nothing but restricted targets. -/
theorem document_begun_deprecation (hstate : (w.document id).state = .unvisited) :
    ((w.begun id).document id).isInheritedDeprecated = (w.document id).isInheritedDeprecated ∧
      (((w.begun id).document id).content.deprecatedMessage = [] ↔
        (w.document id).content.deprecatedMessage = []) ∧
      ∃ n, ((w.begun id).document id).problems =
        (w.document id).problems ++ List.replicate n .restrictedLink := by
  have hmessage (links : List PendingLink) (c : Content) :
      (links.foldl (fun c link => c.settle link.place (w.verdict link.target))
        c).deprecatedMessage = [] ↔ c.deprecatedMessage = [] := by
    induction links generalizing c with
    | nil => exact .rfl
    | cons link links ih => exact (ih _).trans List.map_eq_nil_iff
  rw [Visiting.document_begun hstate, Documentation.settleLinks, Documentation.settleAll_eq]
  exact ⟨rfl, hmessage _ _, _, rfl⟩

/-- All through a completion, what is begun knows of the deprecation of what it inherits from, and
what is completed was reported if it must be. -/
theorem restatesDeprecation_invariant
    (hread : ∀ d, (w₀.document d).state = .unvisited → (w₀.document d).Undeprecated) :
    Invariant w₀ w₀.MeetsDeprecated w₀.RestatesDeprecation where
  outside {w d} hw hd := by
    have hsame : w.document d = w₀.document d := by
      rw [document_of_size_le hd, document_of_size_le (hw.size ▸ hd)]
    refine ⟨by rw [hsame], fun hstate => ?_⟩
    rw [document_of_size_le hd] at hstate
    cases hstate
  begin {w id} hv hstate := by
    have hsame := hv.untouched id hstate
    have hfirst := hread id (hsame ▸ hstate)
    obtain ⟨hinherited, hmessage, n, hproblems⟩ := document_begun_deprecation hstate
    rw [hsame] at hinherited hmessage hproblems
    have hreports (content : Text) : w₀.circularReports (w.begun id) id content = 0 := by
      rw [circularReports, (Documentation.Evolves.refl _).newProblems_of_problems hproblems,
        Documentation.newProblems_self]
      simp [List.count_replicate]
    refine ⟨hmessage, ?_, [], ?_, fun content => ?_, ?_⟩
    · rw [hproblems, List.count_append, hfirst.unreported]
      simp [List.count_replicate]
    · rw [pendingInheritDocs_begun, hsame]
      rfl
    · rw [hreports]
      exact Nat.zero_le _
    · rw [hinherited, hfirst.notInherited]
      simp
  answer {w id content rest} hv hpending hnow hbegun := by
    have hrest : (((w.popped id).answered id content).document id).pendingInheritDocs = rest := by
      rw [pendingInheritDocs_answered, pendingInheritDocs_popped hpending]
    have hleads : w₀.LeadsToDeprecated content ↔ _ := leadsToDeprecated_iff
    rw [← hv.evolves.lead] at hleads
    have hdocument := hv.document_answered content
    have hproblems : (((w.popped id).answered id content).document id).problems =
        (w.document id).problems ++ (w.lead content).problems content := by
      rw [hdocument, Documentation.problems_answer]
      rfl
    cases hlead : w.lead content with
    | own kind source =>
      rw [hlead] at hdocument hproblems
      refine hbegun.circular hv.evolves hpending hrest ?_ hproblems ?_ <;> rw [hdocument] <;> rfl
    | blank | malformed e | nowhere warning =>
      rw [hlead] at hdocument hproblems hleads
      refine hbegun.met hv.evolves hpending hrest ?_ hproblems ?_ ?_
      · rw [hdocument]
        rfl
      · simp [Lead.problems]
      · rw [hdocument, iff_false_intro hleads.1, or_false]
        rfl
    | external item =>
      rw [hlead] at hdocument hproblems hleads
      refine hbegun.met hv.evolves hpending hrest ?_ hproblems ?_ ?_
      · rw [hdocument]
        exact Documentation.deprecatedMessage_inherit _ _
      · simp [Lead.problems]
      · rw [hdocument, hleads]
        exact Documentation.isInheritedDeprecated_inherit _ _
  inherit {w w₁ id content rest kind source} hv hpending hlead hpreserves hsame _ hsource
      hbegun := by
    have hdocument := hv.document_copied hsame kind source
    have hleads : w₀.LeadsToDeprecated content ↔ _ := leadsToDeprecated_iff
    rw [← hv.evolves.lead, hlead] at hleads
    have hproblems : ((w₁.copied id kind source).document id).problems =
        (w.document id).problems ++ [] := by
      rw [hdocument]
      exact (List.append_nil _).symm
    refine hbegun.met hv.evolves hpending ?_ ?_ hproblems nofun ?_
    · rw [pendingInheritDocs_copied, hsame, pendingInheritDocs_popped hpending]
    · rw [hdocument]
      exact Documentation.deprecatedMessage_inherit _ _
    · rw [hdocument, hleads]
      refine (Documentation.isInheritedDeprecated_inherit _ _).trans ?_
      exact or_congr_right (not_congr hsource.message)
  conclude {w id} hv hpending hbegun := by
    have hdocument := hv.document_concluded
    have hproblems := congrArg Documentation.problems hdocument
    rw [Documentation.problems_conclude, hv.evolves.config] at hproblems
    obtain ⟨met, hmet, -, hiff⟩ := hbegun.requests
    rw [hpending, List.append_nil] at hmet
    have hreports (content : Text) :
        w₀.circularReports (w.concluded id) id content = w₀.circularReports w id content := by
      refine circularReports_eq hv.evolves hproblems ?_
      split <;> simp
    have homits : w₀.OmitsDeprecation (w.concluded id) id ↔
        (w₀.config.enforceInheritedDeprecation && (w.document id).omitsDeprecation) = true := by
      rw [OmitsDeprecation, InheritsDeprecation, hmet, ← hbegun.message]
      simp only [hreports, ← hiff, Documentation.omitsDeprecation, Bool.and_eq_true,
        List.isEmpty_iff]
      exact and_congr_right fun _ => and_comm
    refine ⟨?_, fun _ => ⟨fun h => ?_, fun h => ?_⟩⟩
    · rw [hdocument, Documentation.conclude, Documentation.withState,
        Documentation.content_reportIf]
      exact hbegun.message
    · rw [hproblems, if_pos (homits.1 h), List.count_append, hbegun.unreported]
      rfl
    · rw [hproblems, if_neg (mt homits.2 h), List.append_nil, hbegun.unreported]
  stable {w w₁ d} _ hpreserves hstate hdone := by
    have hsame := hpreserves.done d hstate
    have homits : w₀.OmitsDeprecation w₁ d ↔ w₀.OmitsDeprecation w d := by
      simp only [OmitsDeprecation, InheritsDeprecation, circularReports, hsame]
    refine ⟨?_, ?_⟩
    · rw [hsame]
      exact hdone.message
    · rw [homits, hsame]
      exact hdone.reported

end Workspace

/-- Wherever a session stands, calls with a patient listener complete what they name. Of each
documentation that they complete it is reported, once, that a deprecation message must be included,
if the settings ask for that, its comment has no such message, and one of its requests that was not
reported as circular leads to an item whose own comment has one; and else it is not reported. The
check at the end of a comment never reports it. -/
theorem Session.inherited_deprecation_enforced (h : Session history w) (hq : w.Quiet)
    (calls : List Call) :
    (∀ around itemName body d, Documentation.parse around itemName body = .ok d →
      Problem.deprecationNotRestated.message ∉ d.problems.map Problem.message) ∧
    ∃ w₁, (Action.perform calls).run w = (.ok (), w₁) ∧
      (∀ d ∈ w.named calls, (w₁.document d).state = .done) ∧
      (∀ d, (w.document d).state = .done → w₁.document d = w.document d) ∧
      ∀ d, (w.document d).state = .unvisited → (w₁.document d).state = .done →
        (w₁.document d).TellsOnceIf .deprecationNotRestated (w.OmitsDeprecation w₁ d) := by
  have hmessage (problems : List Problem) :
      (problems.map Problem.message).count Problem.deprecationNotRestated.message =
        problems.count .deprecationNotRestated :=
    Problem.count_map_message List.mem_cons_self problems
  have hread (d : DocId) (hstate : (w.document d).state = .unvisited) :
      (w.document d).Undeprecated := by
    obtain ⟨around, itemName, body, hparse⟩ := h.exists_parse hstate
    exact Documentation.undeprecated_of_parse hparse
  refine ⟨fun around itemName body d hparse => ?_, ?_⟩
  · rw [← List.count_eq_zero, hmessage]
    exact (Documentation.undeprecated_of_parse hparse).unreported
  · obtain ⟨w₁, hrun, hcompletes⟩ := Action.run_perform hq calls
    obtain ⟨steps, w₁', hcalls, hrun'⟩ := Action.exists_runsCalls h.idle hq calls
    cases hrun.symm.trans hrun'
    have hresting : Resting w w := ⟨.refl w, fun _ _ => rfl, h.idle⟩
    have hdone := (restatesDeprecation_invariant hread).completes hcompletes hresting
      fun d hd => ⟨.rfl, fun hstate => by rw [hd] at hstate; cases hstate⟩
    refine ⟨w₁, hrun, fun d hd => ?_, fun d hd => ?_, fun d hstate hd => ?_⟩
    · cases hstate : (w₁.document d).state with
      | done => rfl
      | unvisited => exact absurd hstate (hcompletes.state_of_mem hd)
      | inProgress => exact absurd (hcompletes.inProgress hstate) (h.idle d)
    · have haccounts := hcalls.accounts h.idle
      have hentries := haccounts.entries d
      rw [hd] at hentries
      exact haccounts.untouched d (h.idle d) (Nat.eq_zero_of_add_eq_zero_right hentries)
    · have hreported := (hdone d hd).reported hstate
      rw [← hmessage] at hreported
      exact hreported

/-- A deprecated function, and one that inherits from it, in a package that asks for messages. -/
def Workspace.deprecatedPair : Workspace :=
  let w : Workspace :=
    { package := { name := some "p".toList }
      identity := some { scope := [], name := "p".toList }
      config := { enforceInheritedDeprecation := true } }
  let w₁ :=
    ((Operation.add [] "f".toList .function "Does it. @deprecated Use h.".toList).perform.run w).2
  ((Operation.add [] "g".toList .function "\x7b@inheritdoc f\x7d".toList).perform.run w₁).2

/-- The function that inherits is reported. -/
theorem Session.deprecatedPair_enforced :
    ∃ history, Session history deprecatedPair ∧ deprecatedPair.Quiet ∧
      ∃ w₁, (Action.perform [.item 1]).run deprecatedPair = (.ok (), w₁) ∧
        deprecatedPair.OmitsDeprecation w₁ 1 ∧
        ((w₁.document 1).problems.map Problem.message).count
          Problem.deprecationNotRestated.message = 1 := by
  have hsession : Session _ deprecatedPair :=
    ((Session.start rfl rfl rfl).perform (.add [] "f".toList .function _)).perform
      (.add [] "g".toList .function _)
  have hq : deprecatedPair.Quiet := quiet_of_faults_eq_nil (by cbv)
  obtain ⟨-, w₁, hrun, -, -, htells⟩ := inherited_deprecation_enforced hsession hq [.item 1]
  have hw₁ : ((Action.perform [.item 1]).run deprecatedPair).2 = w₁ := by rw [hrun]
  have homits : deprecatedPair.OmitsDeprecation w₁ 1 := by
    have hmessage : (deprecatedPair.view (.own .function 0)).content.deprecatedMessage =
        [.text "Use h.".toList] := by cbv
    rw [← hw₁]
    refine ⟨by cbv, by cbv, "f".toList, ⟨rfl, _, .own .function 0, rfl, by cbv, ?_⟩, by cbv⟩
    rw [hmessage]
    exact List.cons_ne_nil _ _
  refine ⟨_, hsession, hq, w₁, hrun, homits, ?_⟩
  refine (htells 1 (by cbv) ?_).1 homits
  rw [← hw₁]
  cbv

end

end ApiDoc
