import ApiDoc.Proofs.Inheritance.Graph
import ApiDoc.Proofs.Resolution.Notation
import ApiDoc.Proofs.Sections.Blocks
import ApiDoc.Proofs.Session.Edits

/-!
# Blocks stay in normal form

The blocks of a comment are in normal form when it is read. Afterwards a block is replaced as a
whole, by a copy of one that is in normal form or by a text that points to another item, or the
statuses of its links change; and none of that touches the form. What is copied may come from
another package, so the items that are known of others must be in normal form too
(`Workspace.IsNormal`). Main statement: `Workspace.isNormal_after`.
-/

namespace ApiDoc

open Workspace

/-- Every block of an item of another package is in normal form. -/
def KnownNormal (items : OrderedMap ResolvedItem) : Prop :=
  ∀ item ∈ OrderedMap.values items, item.content.AllBlocks Block.IsNormal

/-- Every block of a workspace is in normal form. -/
structure Workspace.IsNormal (w : Workspace) : Prop where
  documents : ∀ d, (w.document d).content.AllBlocks Block.IsNormal
  external : ∀ items ∈ OrderedMap.values w.external, KnownNormal items

section
variable {t content : Text} {w w₁ : Workspace} {id : DocId} {frame : Frame}
  {ids : List DocId} {d : Documentation} {f : Documentation → Documentation}

/-! ## Pointing to an item -/

theorem Block.isNormal_text (h : t ≠ []) (htrimmed : Text.strip t = t) :
    Block.IsNormal [.text t] := by
  obtain ⟨hstart, hend⟩ := Text.strip_eq_self_iff.1 htrimmed
  refine ⟨fun hmem => ?_, .singleton _, fun e he => ?_, fun e he => ?_⟩
  · cases List.mem_singleton.1 hmem
    exact h rfl
  · cases he
    exact ⟨nofun, hstart⟩
  · cases he
    exact ⟨nofun, hend⟩

/-! ## Changes to a documentation -/

namespace Documentation

/-- The text that points to a reference is in normal form: the reference has no blank, so neither
has the end of the text. -/
theorem isNormal_pointTo (hd : d.content.AllBlocks Block.IsNormal) (hnonempty : content ≠ [])
    (hblank : Text.hasBlank content = false) :
    (d.pointTo content).content.AllBlocks Block.IsNormal := by
  have htrimmed : Text.strip ("See documentation for ".toList ++ content) =
      "See documentation for ".toList ++ content := by
    refine Text.strip_eq_self_iff.2 ⟨fun c hc => ?_, fun c hc => ?_⟩
    · obtain rfl : 'S' = c := Option.some.inj hc
      decide
    · rw [List.getLast?_append_of_ne_nil _ hnonempty] at hc
      exact Bool.eq_false_iff.2 (List.any_eq_false.1 hblank c (List.mem_of_getLast? hc))
  exact { hd with
    summary := Block.isNormal_text (List.cons_ne_nil _ _) (Text.strip_collapse htrimmed) }

theorem isNormal_settleLinks (hd : d.content.AllBlocks Block.IsNormal)
    (verdict : ItemKey → LinkStatus) :
    (d.settleLinks verdict).content.AllBlocks Block.IsNormal := by
  rw [settleLinks, settleAll_eq]
  generalize d.content = content at hd ⊢
  generalize d.pendingLinks = links
  induction links generalizing content with
  | nil => exact hd
  | cons link links ih => exact ih _ (hd.mapBlocks fun _ hb => hb.settle _ _)

/-- What is inherited is a copy. -/
theorem isNormal_inherit (hd : d.content.AllBlocks Block.IsNormal) {source : ResolvedItem}
    (hsource : source.content.AllBlocks Block.IsNormal) :
    (d.inherit source).content.AllBlocks Block.IsNormal := by
  have hcopy : source.content.detach.AllBlocks Block.IsNormal :=
    hsource.mapBlocks fun _ hb => hb.detach
  unfold Documentation.inherit
  dsimp only
  split
  · exact { hcopy with deprecatedMessage := hd.deprecatedMessage }
  · exact { hd with summary := hcopy.summary, remarks := hcopy.remarks }

end Documentation

/-! ## Completion -/

namespace Workspace

/-- A workspace stays in normal form if the documentation that changes does. -/
theorem Touches.isNormal (h : Touches id f w w₁) (hw : w.IsNormal)
    (hf : (f (w.document id)).content.AllBlocks Block.IsNormal) : w₁.IsNormal where
  documents d := by
    by_cases hd : d = id
    · subst hd
      rcases Nat.lt_or_ge d w.documents.size with hlt | hge
      · rwa [h.document_self hlt]
      · rw [document_of_size_le (h.size ▸ hge)]
        exact Content.allBlocks_empty Block.isNormal_nil
    · rw [h.document_ne hd]
      exact hw.documents d
  external := by
    rw [show w₁.external = w.external from congrArg Setting.external h.setting]
    exact hw.external

theorem IsNormal.begun (hw : w.IsNormal) (id : DocId) : (w.begun id).IsNormal :=
  (touches_begun w id).isNormal hw
    (Documentation.isNormal_settleLinks (d := (w.document id).withState .inProgress)
      (hw.documents id) w.verdict)

theorem IsNormal.popped (hw : w.IsNormal) (id : DocId) : (w.popped id).IsNormal :=
  (touches_popped w id).isNormal hw (hw.documents id)

/-- A request that is answered on the spot leaves nothing, a text that points to what it names, or
what is copied from another package. -/
theorem IsNormal.answered (hw : w.IsNormal) (id : DocId) (content : Text) :
    (w.answered id content).IsNormal := by
  refine (touches_answered w id content).isNormal hw ?_
  have hd := hw.documents id
  have hspec := w.lead_spec content
  cases hlead : w.lead content with
  | blank | malformed e | own kind source => exact hd
  | nowhere warning =>
    rw [hlead] at hspec
    obtain ⟨hblank, key, hparse, -⟩ := hspec
    exact Documentation.isNormal_pointTo hd (Reference.parse_eq_ok_iff.1 hparse).hasBlank.2 hblank
  | external item =>
    obtain ⟨items, hitems, hitem⟩ := exists_items_of_lead hlead
    exact Documentation.isNormal_inherit hd (hw.external items hitems item hitem)

theorem IsNormal.copied (hw : w.IsNormal) (id : DocId) (kind : ItemKind) (source : DocId) :
    (w.copied id kind source).IsNormal :=
  (touches_copied w id kind source).isNormal hw
    (Documentation.isNormal_inherit (hw.documents id) (hw.documents source))

theorem IsNormal.concluded (hw : w.IsNormal) (id : DocId) : (w.concluded id).IsNormal := by
  refine (touches_concluded w id).isNormal hw ?_
  unfold Documentation.conclude
  rw [Documentation.withState, Documentation.content_reportIf]
  exact hw.documents id

end Workspace

/-- Work keeps every block in normal form. -/
theorem Performs.isNormal (h : Performs frame w w₁) (hw : w.IsNormal) : w₁.IsNormal := by
  induction h with
  | enter _ _ ih => exact ih (hw.begun _)
  | conclude _ => exact hw.concluded _
  | answer _ _ _ ih => exact ih ((hw.popped _).answered _ _)
  | force _ _ _ _ ihenter ihcopy => exact ihcopy (ihenter (hw.popped _))
  | reuse _ _ _ _ ih => exact ih (hw.popped _)
  | copy _ ih => exact ih (hw.copied _ _ _)

theorem Completes.isNormal (h : Completes ids w w₁) (hw : w.IsNormal) : w₁.IsNormal := by
  induction h with
  | nil => exact hw
  | enter hperforms _ ih => exact ih (hperforms.isNormal hw)
  | skip _ _ ih => exact ih hw
  | close _ ih => exact ih ⟨hw.documents, hw.external⟩

/-! ## Sessions -/

namespace Workspace

theorem IsNormal.register (hw : w.IsNormal) (hd : d.content.AllBlocks Block.IsNormal)
    (path : List Text) (name : Text) (kind : ItemKind) :
    (w.register path name kind d).IsNormal where
  documents id := by
    rw [document_register]
    split
    · exact hd
    · exact hw.documents id
  external := hw.external

theorem IsNormal.of_reportsTo (hw : w.IsNormal) (h : w.ReportsTo w₁) : w₁.IsNormal := by
  obtain ⟨_, _, _, rfl⟩ := h
  exact ⟨hw.documents, hw.external⟩

/-- While the listener is patient, an operation keeps every block in normal form if it brings none
that is not, and the listener stays patient. -/
theorem IsNormal.perform (hw : w.IsNormal) (hq : w.Quiet) (operation : Operation)
    (hknown : ∀ package items, operation = .external package items → KnownNormal items) :
    (operation.perform.run w).2.IsNormal ∧ (operation.perform.run w).2.Quiet := by
  cases operation with
  | add path name kind comment =>
    rw [Operation.perform]
    rcases Action.run_addItem_cases_of_quiet hq path name kind comment with
      ⟨e, w₁, hrun, hreports, hq₁, -⟩ | ⟨d, w₁, hrun, hparse, hreports, hq₁, -⟩ <;> rw [hrun]
    · exact ⟨hw.of_reportsTo hreports, hq₁⟩
    · have hd := (Documentation.isRead_of_parse hparse).blocks
      exact ⟨(hw.of_reportsTo hreports).register hd path name kind, hq₁⟩
  | external package items =>
    refine ⟨⟨hw.documents, fun items' hmem => ?_⟩, hq⟩
    rcases OrderedMap.mem_values_put hmem with rfl | hmem
    · exact hknown package _ rfl
    · exact hw.external items' hmem
  | configure config => exact ⟨⟨hw.documents, hw.external⟩, hq⟩
  | call call =>
    obtain ⟨w₁, hrun, hq₁, hcompletes⟩ := Action.run_call hq call
    rw [Operation.perform, hrun]
    exact ⟨hcompletes.isNormal hw, hq₁⟩

theorem IsNormal.after (hw : w.IsNormal) (hq : w.Quiet) (operations : List Operation)
    (hknown : ∀ package items, .external package items ∈ operations → KnownNormal items) :
    (w.after operations).IsNormal := by
  induction operations generalizing w with
  | nil => exact hw
  | cons operation operations ih =>
    obtain ⟨hw₁, hq₁⟩ := hw.perform hq operation fun package items heq =>
      hknown package items (heq ▸ List.mem_cons_self)
    exact ih hw₁ hq₁ fun package items hmem => hknown package items (List.mem_cons_of_mem _ hmem)

/-- From a package without items, and with a patient listener, whatever is done leaves every block
of every documentation in normal form, if the blocks that are known of other packages are. And when
a comment is read, every parameter has a name that is trimmed and has no hyphen, and a
description. -/
theorem isNormal_after (hdocuments : w.documents = #[]) (hq : w.Quiet)
    (hexternal : ∀ items ∈ OrderedMap.values w.external, KnownNormal items)
    (operations : List Operation)
    (hknown : ∀ package items, .external package items ∈ operations → KnownNormal items) :
    (∀ id, ((w.after operations).document id).content.AllBlocks Block.IsNormal) ∧
      ∀ around itemName body d, Documentation.parse around itemName body = .ok d →
        ∀ entry ∈ d.content.parameters, Text.IsParameterName entry.1 ∧ entry.2 ≠ [] := by
  refine ⟨(IsNormal.after ⟨fun d => ?_, hexternal⟩ hq operations hknown).documents,
    fun around itemName body d hparse => (Documentation.isRead_of_parse hparse).parameters⟩
  rw [document_of_size_le (by simp [hdocuments])]
  exact Content.allBlocks_empty Block.isNormal_nil

/-- A function that inherits from another package, and one with a parameter that inherits from the
first. -/
def borrowing : List Operation :=
  [.external "q".toList [("h".toList, {
      kind := .function
      content.summary := [.text "Does it.".toList, .paragraph, .text "Well.".toList] })],
    .add [] "f".toList .function "\x7b@inheritdoc q:h\x7d".toList,
    .add [] "g".toList .function "\x7b@inheritdoc f\x7d @param x - The x.".toList,
    .call .all]

/-- What `borrowing` inherits, once over the other function, is in normal form. -/
theorem isNormal_after_borrowing :
    let w : Workspace :=
      { package := { name := some "p".toList }
        identity := some { scope := [], name := "p".toList }
        config := {} }
    (∀ id, ((w.after borrowing).document id).content.AllBlocks Block.IsNormal) ∧
      ((w.after borrowing).document 1).content.summary =
        [.text "Does it.".toList, .paragraph, .text "Well.".toList] := by
  intro w
  have hknown : ∀ package items, .external package items ∈ borrowing → KnownNormal items := by
    intro package items hmem
    obtain ⟨rfl, rfl⟩ : package = "q".toList ∧ items = [("h".toList, {
        kind := .function
        content.summary := [.text "Does it.".toList, .paragraph, .text "Well.".toList] })] := by
      simpa [borrowing] using hmem
    intro item hitem
    obtain rfl := List.mem_singleton.1 hitem
    exact { Content.allBlocks_empty Block.isNormal_nil with
      summary := Block.pass_eq_self_iff.1 (by decide) }
  have hnormal := isNormal_after (w := w) rfl (by decide) nofun borrowing hknown
  exact ⟨hnormal.1, by cbv⟩

end Workspace

end

end ApiDoc
