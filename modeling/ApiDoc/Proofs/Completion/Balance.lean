import ApiDoc.Proofs.Completion.Records

/-!
# What reports and warnings add up to

The order of the diagnostics and of the warnings of a package depends on the order of its
completion. What they are does not: each diagnostic is a problem of one documentation, and each
warning comes from one link or one request that is taken off its queue. So all through a completion
the diagnostics are in balance with the problems, and the warnings with the queues
(`Workspace.Balances`, `Completes.balances`).
-/

namespace ApiDoc

open Workspace

/-- The diagnostics for the problems of a documentation. -/
def Documentation.told (d : Documentation) : Multiset Diagnostic :=
  ↑(d.problems.map d.diagnostic)

namespace Workspace

/-- From one workspace to a later one, there are as many new diagnostics as new problems, and as
many new warnings as are gone from the queues, each with its number of occurrences. -/
structure Balances (w w₁ : Workspace) : Prop where
  diagnostics : (w₁.diagnostics : Multiset Diagnostic) + w.total Documentation.told =
    w.diagnostics + w₁.total Documentation.told
  warnings : (w₁.warnings : Multiset Warning) + w₁.total w₁.owed = w.warnings + w.total w.owed

section
variable {w w₁ w₂ : Workspace} {id : DocId} {f : Documentation → Documentation}
  {new : List Problem} {due : List Warning}

namespace Balances

theorem refl (w : Workspace) : w.Balances w :=
  ⟨rfl, rfl⟩

theorem trans (h : w.Balances w₁) (h₁ : w₁.Balances w₂) : w.Balances w₂ where
  diagnostics := by
    refine add_right_cancel (b := w₁.total Documentation.told) ?_
    calc (w₂.diagnostics : Multiset Diagnostic) + w.total Documentation.told +
          w₁.total Documentation.told
        = w₁.diagnostics + w₂.total Documentation.told + w.total Documentation.told := by
          rw [add_right_comm, h₁.diagnostics]
      _ = w.diagnostics + w₂.total Documentation.told + w₁.total Documentation.told := by
          rw [add_right_comm, h.diagnostics, add_right_comm]
  warnings := h₁.warnings.trans h.warnings

end Balances

/-- A step is in balance: it makes the problems known that it adds and warns of what it takes off
the queues. -/
theorem Records.balances (h : Records id f new due w w₁) : w.Balances w₁ where
  diagnostics := by
    have htold : (f (w.document id)).told =
        (w.document id).told + (new.map (w.document id).diagnostic : List Diagnostic) := by
      rw [Documentation.told, Documentation.told, Documentation.diagnostic_eq h.itemName,
        h.problems, List.map_append, Multiset.coe_add]
    have htotal := h.total h.inside Documentation.told
    rw [htold, add_left_comm, add_comm, add_left_cancel_iff] at htotal
    rw [htotal, h.diagnostics, ← Multiset.coe_add, add_assoc, add_comm (w.total _)]
  warnings := by
    have htotal := h.total h.inside w.owed
    rw [h.owed, add_comm (w.owed _), ← add_assoc, add_left_inj] at htotal
    rw [owed_congr h.setting, h.warnings, ← Multiset.coe_add, add_assoc, add_comm _ (w₁.total _),
      htotal]

theorem Recorded.balances (h : Recorded w w₁) : w.Balances w₁ := by
  cases h with
  | step h => exact h.balances
  | close => exact ⟨rfl, rfl⟩

end

end Workspace

/-- Calls to complete are in balance. -/
theorem Completes.balances {ids : List DocId} {w w₁ : Workspace} (h : Completes ids w w₁) :
    w.Balances w₁ :=
  h.keeps (fun hstep hbefore => hbefore.trans hstep.balances) (.refl w)

end ApiDoc
