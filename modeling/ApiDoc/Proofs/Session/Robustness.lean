import ApiDoc.Proofs.Links.Unqualified
import ApiDoc.Proofs.Session.Edits
import ApiDoc.Proofs.Workspace.Reading

/-!
# What a problem in a comment cannot do

Whatever is wrong with a comment is reported, and the work goes on. With a patient listener a
comment is read to its end, unless it has a link that leaves its package out and none is known
(`Action.run_read_outcome`), and its item is registered (`Action.run_addItem_outcome`).
Documentations that came from comments are completed, and an addition that is interrupted, by
whatever it is, has not touched the items (`Action.reportsTo_of_run_addItem_error`). Main statement:
`Workspace.problems_interrupt_nothing`.
-/

namespace ApiDoc

open Workspace

/-- Some tokens have a link that leaves its package out. -/
def Token.OmitPackage (tokens : List Token) : Prop :=
  ∃ content, .inline InlineTag.link.name.toList content ∈ tokens ∧ Link.LeavesPackageOut content

/-- Every documentation is a comment as it was read. -/
def Workspace.IsRead (w : Workspace) : Prop :=
  ∀ document ∈ w.documents, ∃ around itemName body,
    Documentation.parse around itemName body = .ok document

section
variable {w w₁ : Workspace}

/-! ## Reading a comment -/

theorem Token.mem_contents_iff {tag : InlineTag} {tokens : List Token} {content : Text} :
    content ∈ contents tag tokens ↔ .inline tag.name.toList content ∈ tokens := by
  rw [contents, List.mem_filterMap]
  constructor
  · rintro ⟨token, htoken, hcontent⟩
    cases token with
    | text | block => cases hcontent
    | inline name content' =>
      simp only [content?] at hcontent
      split at hcontent
      · next hname =>
        cases hcontent
        exact hname ▸ htoken
      · cases hcontent
  · intro h
    exact ⟨_, h, if_pos rfl⟩

/-- A comment cannot be read if and only if no package is known and one of its links leaves it
out. -/
theorem Documentation.parse_fails_iff_omitPackage (around : Surroundings)
    (itemName : Option Text) (body : Text) : (∃ e, parse around itemName body = .error e) ↔
      around.package = none ∧ Token.OmitPackage (Token.tokenize body) := by
  rw [parse_fails_iff]
  cases hpackage : around.package with
  | some package =>
    refine iff_of_false ?_ (by simp)
    rintro ⟨content, -, hmissing⟩
    exact Link.parse_ne_missingPackage package content hmissing
  | none =>
    simp only [Link.parse_none_iff, Token.mem_contents_iff, Token.OmitPackage, true_and]

/-- With a patient listener, the reading of a comment is interrupted if and only if no package is
known and one of its links leaves it out. Otherwise it ends with a documentation. -/
theorem Action.run_read_outcome (hq : w.Quiet) (itemName : Option Text) (body : Text) :
    (∃ w₁, (read itemName body).run w = (.error .missingPackage, w₁) ∧
      w.identity = none ∧ Token.OmitPackage (Token.tokenize body)) ∨
    ∃ d w₁, (read itemName body).run w = (.ok d, w₁) ∧
      ¬ (w.identity = none ∧ Token.OmitPackage (Token.tokenize body)) := by
  have hfails := Documentation.parse_fails_iff_omitPackage w.surroundings itemName body
  cases hparse : Documentation.parse w.surroundings itemName body with
  | error e =>
    obtain ⟨w₁, hrun, -⟩ := run_read_of_error hq hparse
    exact .inl ⟨w₁, hrun, hfails.1 ⟨e, hparse⟩⟩
  | ok d =>
    obtain ⟨w₁, hrun, -⟩ := run_read_of_parse hq hparse
    refine .inr ⟨d, w₁, hrun, fun homit => ?_⟩
    obtain ⟨e, he⟩ := hfails.2 homit
    cases hparse.symm.trans he

/-- With a patient listener, the addition of an item to an open package is interrupted if and only
if no package is known and a link of the comment leaves it out. Otherwise the item is registered. -/
theorem Action.run_addItem_outcome (hq : w.Quiet) (hopen : w.isComplete = false)
    (path : List Text) (name : Text) (kind : ItemKind) (comment : Text) :
    (∃ w₁, (addItem path name kind comment).run w = (.error .missingPackage, w₁) ∧
      w.identity = none ∧ Token.OmitPackage (Token.tokenize (Comment.body comment))) ∨
    ∃ d w₁, (addItem path name kind comment).run w = (.ok (), w₁.register path name kind d) ∧
      w.ReportsTo w₁ ∧ w₁.Quiet ∧
      ¬ (w.identity = none ∧ Token.OmitPackage (Token.tokenize (Comment.body comment))) := by
  have hfails := Documentation.parse_fails_iff_omitPackage w.surroundings
    (some (w.qualifiedName path name)) (Comment.body comment)
  cases hparse : Documentation.parse w.surroundings (some (w.qualifiedName path name))
      (Comment.body comment) with
  | error e =>
    obtain ⟨w₁, hrun, -⟩ := run_addItem_of_error hq hopen kind hparse
    exact .inl ⟨w₁, hrun, hfails.1 ⟨e, hparse⟩⟩
  | ok d =>
    obtain ⟨w₁, hrun, hreports, hq₁, -⟩ := run_addItem_of_parse hq hopen kind hparse
    refine .inr ⟨d, w₁, hrun, hreports, hq₁, fun homit => ?_⟩
    obtain ⟨e, he⟩ := hfails.2 homit
    cases hparse.symm.trans he

/-! ## Completing documentations -/

theorem Workspace.IsRead.idle (h : w.IsRead) : w.Idle := by
  intro d hd
  have hlt := lt_size_of_state_ne (by rw [hd]; decide)
  have hdocument : w.document d = w.documents[d] := by simp [document, hlt]
  obtain ⟨around, itemName, body, hparse⟩ := h _ (Array.getElem_mem hlt)
  rw [hdocument, (Documentation.wellRead_of_parse hparse).unvisited] at hd
  cases hd

theorem Workspace.Idle.after (h : w.Idle) (operations : List Operation) :
    (w.after operations).Idle := by
  induction operations generalizing w with
  | nil => exact h
  | cons operation operations ih => exact ih (operation.idle h)

/-! ## Adding items -/

/-- An addition that is interrupted has made reports and nothing else. -/
theorem Action.reportsTo_of_run_addItem_error {path : List Text} {name : Text} {kind : ItemKind}
    {comment : Text} {e : Interruption}
    (hrun : (addItem path name kind comment).run w = (.error e, w₁)) : w.ReportsTo w₁ := by
  cases hcomplete : w.isComplete with
  | true =>
    cases hrun.symm.trans (run_addItem_of_complete hcomplete path name kind comment)
    exact ⟨_, _, _, rfl⟩
  | false =>
    rcases run_addItem_cases hcomplete path name kind comment with
      ⟨e', w₂, hrun', -, hreports⟩ | ⟨d, w₂, hrun', -⟩
    · cases hrun.symm.trans hrun'
      exact hreports
    · cases hrun.symm.trans hrun'

/-- Problems in comments interrupt nothing. With a patient listener the reading of a comment is
interrupted if and only if no package is known and a link of the comment leaves it out, and it gives
a documentation otherwise. Where the documentations are comments as they were read, whatever was
done with the package, a call for their completion is interrupted by a listener who fails only, and
completes all that it names with a patient one. And an addition that is interrupted, for whatever
reason, leaves the items as they were, and the documentations. -/
theorem Workspace.problems_interrupt_nothing (w : Workspace) :
    (w.Quiet → ∀ itemName body,
      (((Action.read itemName body).run w).1 = .error .missingPackage ↔
        w.identity = none ∧ Token.OmitPackage (Token.tokenize body)) ∧
      (((Action.read itemName body).run w).1 ≠ .error .missingPackage →
        ∃ d, ((Action.read itemName body).run w).1 = .ok d)) ∧
    (w.IsRead → ∀ operations (call : Call),
      (∀ e w₁, call.perform.run (w.after operations) = (.error e, w₁) →
        e = .listenerFailed ∧ ¬ (w.after operations).Quiet) ∧
      ((w.after operations).Quiet → ∃ w₁,
        call.perform.run (w.after operations) = (.ok (), w₁) ∧
        ∀ d ∈ call.documents (w.after operations), (w₁.document d).state = .done)) ∧
    ∀ path name kind comment e w₁,
      (Action.addItem path name kind comment).run w = (.error e, w₁) →
      w₁.package = w.package ∧ w₁.documents = w.documents := by
  refine ⟨fun hq itemName body => ?_, fun hread operations call => ?_,
    fun path name kind comment e w₁ hrun => ?_⟩
  · rcases Action.run_read_outcome hq itemName body with
      ⟨w₁, hrun, homit⟩ | ⟨d, w₁, hrun, homit⟩ <;> rw [hrun]
    · exact ⟨iff_of_true rfl homit, fun hne => absurd rfl hne⟩
    · exact ⟨iff_of_false nofun homit, fun _ => ⟨d, rfl⟩⟩
  · rcases call.run_cases (hread.idle.after operations) with
      ⟨w₁, hrun, -, -, hdone⟩ | ⟨_, _, _, w₂, hrun, hloud, -⟩ <;> rw [hrun]
    · exact ⟨nofun, fun _ => ⟨_, rfl, fun d hd => (call.document_finish w₁ d).symm ▸ hdone d hd⟩⟩
    · refine ⟨fun e w₁ heq => ?_, fun hq => absurd hq hloud⟩
      cases heq
      exact ⟨rfl, hloud⟩
  · obtain ⟨log, diagnostics, faults, rfl⟩ := Action.reportsTo_of_run_addItem_error hrun
    exact ⟨rfl, rfl⟩

/-- A package whose name is empty. -/
def Workspace.nameless : Workspace where
  package := { name := some [] }
  identity := none
  config := {}

/-- A link that leaves out the package that has no name, and two functions that inherit from each
other, with a listener that fails at the first report and with a patient one. -/
theorem Workspace.nameless_problems_interrupt_nothing :
    nameless.Quiet ∧
    ((Action.read none "See \x7b@link F\x7d.".toList).run nameless).1 = .error .missingPackage ∧
    (∃ w₁, (Action.addItem [] "f".toList .function "See \x7b@link F\x7d.".toList).run nameless =
      (.error .missingPackage, w₁) ∧ w₁.package = nameless.package) ∧
    brittlePair.IsRead ∧ (∃ w₁, (Call.item 0).perform.run brittlePair =
      (.error .listenerFailed, w₁) ∧ ¬ brittlePair.Quiet) ∧
    ∃ w₁, Call.all.perform.run { brittlePair with faults := [] } = (.ok (), w₁) ∧
      ∀ d ∈ Call.all.documents { brittlePair with faults := [] },
        (w₁.document d).state = .done := by
  have hquiet : nameless.Quiet := by decide
  obtain ⟨hread, -, hadd⟩ := problems_interrupt_nothing nameless
  have htokens : Token.tokenize "See \x7b@link F\x7d.".toList =
      [.text "See ".toList, .inline "@link".toList "F".toList, .text ".".toList] := by cbv
  have hleads := Link.LeadsTo.plain (by simp : "F".toList ≠ []) (by simp : '|' ∉ "F".toList)
  rw [Text.strip_eq_self (by cbv)] at hleads
  have homit : Link.LeavesPackageOut "F".toList :=
    ⟨_, _, [], hleads, .ofExport (.cons (.inl (by decide)) fun c hc => absurd hc List.not_mem_nil)⟩
  have hmissing := (hread hquiet none "See \x7b@link F\x7d.".toList).1.2
    ⟨rfl, "F".toList, by rw [htokens]; decide, homit⟩
  have hfails : ((Action.addItem [] "f".toList .function
      "See \x7b@link F\x7d.".toList).run nameless).1 = .error .missingPackage := by cbv
  have hpair : brittlePair.IsRead :=
    (((Collected.start rfl rfl).item [] "f".toList .function _).item [] "g".toList .function
      _).exists_parse_of_mem
  have hbroken : ((Call.item 0).perform.run brittlePair).1 = .error .listenerFailed := by cbv
  obtain ⟨-, hcalls, -⟩ := problems_interrupt_nothing brittlePair
  obtain ⟨-, hpatient, -⟩ := problems_interrupt_nothing { brittlePair with faults := [] }
  exact ⟨hquiet, hmissing, ⟨_, Prod.ext hfails rfl, (hadd _ _ _ _ _ _ (Prod.ext hfails rfl)).1⟩,
    hpair, ⟨_, Prod.ext hbroken rfl, ((hcalls hpair [] (.item 0)).1 _ _ (Prod.ext hbroken rfl)).2⟩,
    (hpatient hpair [] .all).2 (by decide)⟩

end

end ApiDoc
