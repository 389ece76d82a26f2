import ApiDoc.Proofs.Markup.Ink
import ApiDoc.Proofs.Markup.NormalForm
import ApiDoc.Proofs.Sections.Contents
import ApiDoc.Proofs.Text.Split

/-!
# The blocks of a comment

Every block that is read of a comment is in normal form, whether the package is known or not, and
every parameter has a name and a description: the name is what stands before the first hyphen,
trimmed, and the text behind the hyphen is not blank, so that normalization leaves something of the
description (`Content.IsRead`). Main statement: `Documentation.isRead_of_parse`.
-/

namespace ApiDoc

/-- Every block of a content has a property. -/
structure Content.AllBlocks (P : Block → Prop) (c : Content) : Prop where
  summary : P c.summary
  remarks : P c.remarks
  deprecatedMessage : P c.deprecatedMessage
  returnsMessage : P c.returnsMessage
  parameters : ∀ b ∈ OrderedMap.values c.parameters, P b

/-- A text is a name that a parameter may have. -/
structure Text.IsParameterName (name : Text) : Prop where
  nonempty : name ≠ []
  trimmed : strip name = name
  noHyphen : '-' ∉ name

/-- A content is as it may be read of a comment. -/
structure Content.IsRead (c : Content) : Prop where
  blocks : c.AllBlocks Block.IsNormal
  parameters : ∀ entry ∈ c.parameters, Text.IsParameterName entry.1 ∧ entry.2 ≠ []

/-- If a section is about a parameter, it has a name and more than blanks behind the hyphen. -/
def Section.IsComplete : Section → Prop
  | param name lead _ => Text.IsParameterName name ∧ Text.allBlank lead = false
  | _ => True

section
variable {P Q : Block → Prop} {c : Content} {around : Surroundings} {s : Section}
  {d d₁ : Documentation}

namespace Content

theorem AllBlocks.mapBlocks {f : Block → Block} (h : c.AllBlocks P) (hf : ∀ b, P b → Q (f b)) :
    (c.mapBlocks f).AllBlocks Q where
  summary := hf _ h.summary
  remarks := hf _ h.remarks
  deprecatedMessage := hf _ h.deprecatedMessage
  returnsMessage := hf _ h.returnsMessage
  parameters b hb := by
    simp only [Content.mapBlocks, OrderedMap.values, OrderedMap.mapValues, List.map_map] at hb
    obtain ⟨entry, hentry, rfl⟩ := List.mem_map.1 hb
    exact hf _ (h.parameters _ (List.mem_map_of_mem hentry))

/-- A content without blocks. -/
theorem allBlocks_empty (h : P []) : AllBlocks P {} :=
  ⟨h, h, h, h, nofun⟩

end Content

/-! ## Parameter tags -/

theorem Section.isComplete_ofParam (tokens : List Token) : (ofParam tokens).1.IsComplete := by
  unfold ofParam
  split
  · trivial
  · split
    · trivial
    · next before lead hsplit =>
      dsimp only
      split
      · trivial
      · next hname =>
        split
        · trivial
        · next hlead =>
          exact ⟨{
            nonempty := mt List.isEmpty_iff.2 hname
            trimmed := Text.strip_strip before
            noHyphen := fun hmem =>
              Text.not_mem_of_splitFirst? hsplit ((Text.strip_sublist before).subset hmem) },
            Bool.eq_false_iff.2 hlead⟩
  · trivial

theorem Section.isComplete_next (token : Token) (tokens : List Token) :
    (next token tokens).1.IsComplete := by
  unfold next
  split
  · trivial
  · split
    · next tag _ =>
      cases tag with
      | param => exact isComplete_ofParam tokens
      | remarks | returns | deprecated | internalRemarks | release | flag => trivial
    · trivial
  · split <;> trivial

/-! ## Reading -/

namespace Documentation

/-- A section puts a normalized block into its place, or a parameter with one. -/
theorem isRead_readSection (hs : s.IsComplete) (hd : d.content.IsRead)
    (hread : readSection around d s = .ok d₁) : d₁.content.IsRead := by
  have hcheck (tag : BlockTag) : (d.checkSection tag).content = d.content :=
    content_reportIf _ _ d
  cases s with
  | remarks run =>
    obtain ⟨r, hrun, hok⟩ := exists_of_bind_eq_ok hread
    cases hok
    rw [content_readRun hrun, hcheck]
    exact ⟨{ hd.blocks with remarks := Block.isNormal_normalize _ }, hd.parameters⟩
  | returns run =>
    obtain ⟨r, hrun, hok⟩ := exists_of_bind_eq_ok hread
    cases hok
    rw [content_readRun hrun, hcheck]
    exact ⟨{ hd.blocks with returnsMessage := Block.isNormal_normalize _ }, hd.parameters⟩
  | deprecated run =>
    obtain ⟨r, hrun, hok⟩ := exists_of_bind_eq_ok hread
    cases hok
    rw [content_reportIf, content_readRun hrun]
    exact ⟨{ hd.blocks with deprecatedMessage := Block.isNormal_normalize _ }, hd.parameters⟩
  | param name lead run =>
    obtain ⟨r, hrun, hok⟩ := exists_of_bind_eq_ok hread
    cases hok
    obtain ⟨hname, hlead⟩ := hs
    rw [content_readRun hrun, hcheck]
    refine ⟨{ hd.blocks with parameters := fun b hb => ?_ }, fun entry hentry => ?_⟩
    · rcases OrderedMap.mem_values_put hb with rfl | hb
      · exact Block.isNormal_normalize _
      · exact hd.blocks.parameters b hb
    · rcases OrderedMap.mem_put hentry with rfl | hentry
      · exact ⟨hname, Block.normalize_parse_append_ne_nil hlead _⟩
      · exact hd.parameters entry hentry
  | badParam problem =>
    cases hread
    exact (hcheck .param).symm ▸ hd
  | internalRemarks run =>
    obtain ⟨r, hrun, hok⟩ := exists_of_bind_eq_ok hread
    cases hok
    rwa [content_readRun hrun]
  | release | flag =>
    cases hread
    exact hd
  | unsupported | stray | strayText => rwa [content_readSection_outside rfl hread]

/-- What is read of a comment has blocks in normal form only, and every parameter a name and a
description. -/
theorem isRead_of_parse {itemName : Option Text} {body : Text}
    (hparse : parse around itemName body = .ok d) : d.content.IsRead := by
  obtain ⟨r, hsummary, hparse⟩ := exists_of_bind_eq_ok hparse
  obtain ⟨d₁, hsections, hok⟩ := exists_of_bind_eq_ok hparse
  cases hok
  rw [content_finish]
  refine foldlM_keeps (P := fun d : Documentation => d.content.IsRead)
    (fun s hs _ _ hd hread => isRead_readSection
      (Section.forall_mem_ofTokens Section.isComplete_next _ s hs) hd hread) ?_ hsections
  rw [content_readRun hsummary]
  exact ⟨{ Content.allBlocks_empty Block.isNormal_nil with summary := Block.isNormal_normalize _ },
    nofun⟩

end Documentation

end

end ApiDoc
