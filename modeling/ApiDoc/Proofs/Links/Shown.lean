import Mathlib
import ApiDoc.Documentation.Parse
import ApiDoc.Proofs.Markup.Ink

/-!
# Links that are shown

The links to items in a block (`Block.links`), and what holds of every link in the blocks of a
documentation (`Content.AllLinks`). Normalization neither drops nor changes a link
(`Block.links_normalize`), text has none (`Prose.links_parse`), and settling a place or copying a
block does the same to every link (`Content.AllLinks.settle`, `Content.AllLinks.detach`).
-/

namespace ApiDoc

/-- The link that an element is, if it is one to an item. -/
def Element.link? : Element → Option ItemLink
  | .itemLink link => some link
  | _ => none

/-- The links to items in a block, in order. -/
def Block.links (b : Block) : List ItemLink :=
  b.filterMap Element.link?

namespace ItemLink

/-- Gives a link a status if it stands at a place of the comment. -/
def settle (place : Nat) (status : LinkStatus) (link : ItemLink) : ItemLink :=
  if link.place = some place then { link with status } else link

/-- The link in a copy that no longer follows its comment. -/
def detach (link : ItemLink) : ItemLink :=
  { link with place := none }

end ItemLink

/-- Every link of a block has a property. -/
def Block.AllLinks (P : ItemLink → Prop) (b : Block) : Prop :=
  ∀ link ∈ Block.links b, P link

/-- Every link that a documentation shows has a property. -/
structure Content.AllLinks (P : ItemLink → Prop) (c : Content) : Prop where
  summary : Block.AllLinks P c.summary
  remarks : Block.AllLinks P c.remarks
  deprecatedMessage : Block.AllLinks P c.deprecatedMessage
  returnsMessage : Block.AllLinks P c.returnsMessage
  parameters : ∀ b ∈ OrderedMap.values c.parameters, Block.AllLinks P b

/-! ## Normalization -/

namespace Block

@[simp] theorem links_cons (e : Element) (b : Block) :
    links (e :: b) = e.link?.toList ++ links b := by
  cases e <;> rfl

@[simp] theorem links_append (b b₁ : Block) : links (b ++ b₁) = links b ++ links b₁ :=
  List.filterMap_append

/-- The links are among what is seen of a block. -/
theorem links_eq_ink (b : Block) :
    links b = (ink b).filterMap fun seen => seen.getRight?.bind Element.link? := by
  induction b with
  | nil => rfl
  | cons e b ih =>
    rw [links_cons, ink_cons, List.filterMap_append, ← ih]
    cases e with
    | text chars => simp [Element.ink, Element.link?, List.filterMap_map, Function.comp_def]
    | paragraph | htmlTag | webLink | itemLink => rfl

/-- Normalization keeps every link as it is. -/
theorem links_normalize (b : Block) : links (normalize b) = links b := by
  rw [links_eq_ink, ink_normalize, ← links_eq_ink]

/-! ## Settling and copying -/

theorem links_settle (place : Nat) (status : LinkStatus) (b : Block) :
    links (settle place status b) = (links b).map (ItemLink.settle place status) := by
  induction b with
  | nil => rfl
  | cons e b ih =>
    refine (links_cons _ _).trans ?_
    rw [links_cons, List.map_append, ← ih]
    cases e <;> rfl

theorem links_detach (b : Block) : links (detach b) = (links b).map ItemLink.detach := by
  induction b with
  | nil => rfl
  | cons e b ih =>
    refine (links_cons _ _).trans ?_
    rw [links_cons, List.map_append, ← ih]
    cases e <;> rfl

end Block

section
variable {P Q : ItemLink → Prop} {b b₁ : Block} {c : Content}

namespace Block.AllLinks

theorem mono (h : Block.AllLinks P b) (hPQ : ∀ link, P link → Q link) : Block.AllLinks Q b :=
  fun link hmem => hPQ link (h link hmem)

theorem append (h : Block.AllLinks P b) (h₁ : Block.AllLinks P b₁) :
    Block.AllLinks P (b ++ b₁) := by
  intro link hmem
  rw [Block.links_append] at hmem
  rcases List.mem_append.1 hmem with hmem | hmem
  · exact h link hmem
  · exact h₁ link hmem

theorem of_links_nil (h : Block.links b = []) : Block.AllLinks P b := by
  intro link hmem
  rw [h] at hmem
  cases hmem

theorem normalize (h : Block.AllLinks P b) : Block.AllLinks P (Block.normalize b) := by
  intro link hmem
  rw [Block.links_normalize] at hmem
  exact h link hmem

theorem settle {place : Nat} {status : LinkStatus} (h : Block.AllLinks P b)
    (hPQ : ∀ link, P link → Q (link.settle place status)) :
    Block.AllLinks Q (Block.settle place status b) := by
  intro link hmem
  rw [Block.links_settle] at hmem
  obtain ⟨original, horiginal, rfl⟩ := List.mem_map.1 hmem
  exact hPQ original (h original horiginal)

theorem detach (h : Block.AllLinks P b) (hPQ : ∀ link, P link → Q link.detach) :
    Block.AllLinks Q (Block.detach b) := by
  intro link hmem
  rw [Block.links_detach] at hmem
  obtain ⟨original, horiginal, rfl⟩ := List.mem_map.1 hmem
  exact hPQ original (h original horiginal)

end Block.AllLinks

namespace Content.AllLinks

theorem mapBlocks {f : Block → Block} (h : c.AllLinks P)
    (hf : ∀ b, Block.AllLinks P b → Block.AllLinks Q (f b)) : (c.mapBlocks f).AllLinks Q where
  summary := hf _ h.summary
  remarks := hf _ h.remarks
  deprecatedMessage := hf _ h.deprecatedMessage
  returnsMessage := hf _ h.returnsMessage
  parameters b hb := by
    simp only [Content.mapBlocks, OrderedMap.values, OrderedMap.mapValues, List.map_map] at hb
    obtain ⟨entry, hentry, rfl⟩ := List.mem_map.1 hb
    exact hf _ (h.parameters _ (List.mem_map_of_mem hentry))

theorem mono (h : c.AllLinks P) (hPQ : ∀ link, P link → Q link) : c.AllLinks Q where
  summary := h.summary.mono hPQ
  remarks := h.remarks.mono hPQ
  deprecatedMessage := h.deprecatedMessage.mono hPQ
  returnsMessage := h.returnsMessage.mono hPQ
  parameters b hb := (h.parameters b hb).mono hPQ

theorem settle {place : Nat} {status : LinkStatus} (h : c.AllLinks P)
    (hPQ : ∀ link, P link → Q (link.settle place status)) :
    (c.settle place status).AllLinks Q :=
  h.mapBlocks fun _ hb => hb.settle hPQ

theorem detach (h : c.AllLinks P) (hPQ : ∀ link, P link → Q link.detach) : c.detach.AllLinks Q :=
  h.mapBlocks fun _ hb => hb.detach hPQ

end Content.AllLinks

end

/-! ## Text -/

namespace Prose

theorem links_ofText (t : Text) : Block.links (Element.ofText t) = [] := by
  unfold Element.ofText Element.displayOf
  split <;> rfl

theorem links_ofParagraph (s : Text) : Block.links (ofParagraph s) = [] := by
  unfold ofParagraph
  induction fragments s with
  | nil => rfl
  | cons fragment fragments ih =>
    rw [List.flatMap_cons, Block.links_append, ih, List.append_nil]
    cases fragment with
    | text chars => exact links_ofText chars
    | tag token => rfl

/-- Text has no links to items. -/
theorem links_parse (s : Text) : Block.links (parse s) = [] := by
  have hjoin : ∀ blocks : List Block, (∀ b ∈ blocks, Block.links b = []) →
      Block.links ([Element.paragraph].intercalate blocks) = [] := by
    intro blocks hblocks
    induction blocks with
    | nil => rfl
    | cons b blocks ih =>
      obtain ⟨hb, hblocks⟩ := List.forall_mem_cons.1 hblocks
      cases blocks with
      | nil => simpa [List.intercalate] using hb
      | cons b₁ blocks =>
        rw [List.intercalate_cons_cons, Block.links_append, Block.links_append, hb, ih hblocks]
        rfl
  refine hjoin _ fun b hb => ?_
  obtain ⟨s, -, rfl⟩ := List.mem_map.1 ((List.dropWhile_sublist _).subset hb)
  exact links_ofParagraph s

end Prose

end ApiDoc
