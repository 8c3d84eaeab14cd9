import ScriptAnalysis.SourcePath

/-!
# The order of paths

`SourcePath.order` compares component lists, so it is a linear order of places:
`order_eq_iff` says that two paths compare equal exactly when they are spellings of one
place, and `order_trans` and `order_swap` make ascending lists of paths usable.
-/

namespace ScriptAnalysis

open Std

namespace Component

theorem order_eq_compareLex :
    order = compareLex (compareOn rank) (compareOn text) := rfl

instance : TransCmp order := by
  rw [order_eq_compareLex]
  infer_instance

instance : LawfulEqCmp order where
  eq_of_compare {left right} equal := by
    obtain ⟨ranks, texts⟩ := Ordering.then_eq_eq.mp equal
    have ranks : left.rank = right.rank := LawfulEqOrd.eq_of_compare ranks
    have texts : left.text = right.text := LawfulEqOrd.eq_of_compare texts
    cases left <;> cases right <;> simp_all [rank, text]

theorem orderLists_eq_compareLex : orderLists = List.compareLex order := by
  funext left
  induction left with
  | nil => funext right; cases right <;> rfl
  | cons first rest inductionHypothesis =>
      funext right
      cases right with
      | nil => rfl
      | cons other others => rw [orderLists, inductionHypothesis, List.compareLex_cons_cons]

end Component

namespace SourcePath

/-- Comparison tells places apart, and nothing else. -/
theorem order_eq_iff {left right : SourcePath} :
    left.order right = .eq ↔ left.components = right.components := by
  rw [order, Component.orderLists_eq_compareLex]
  exact LawfulEqCmp.compare_eq_iff_eq

theorem order_swap (left right : SourcePath) : left.order right = (right.order left).swap := by
  unfold order
  rw [Component.orderLists_eq_compareLex]
  exact OrientedCmp.eq_swap

theorem order_trans {first second third : SourcePath} (before : first.order second = .lt)
    (after : second.order third = .lt) : first.order third = .lt := by
  unfold order at *
  rw [Component.orderLists_eq_compareLex] at *
  exact TransCmp.lt_trans before after

/-- Only the place of the right side counts. -/
theorem order_congr_right {first second third : SourcePath}
    (same : second.components = third.components) : first.order second = first.order third := by
  rw [order, order, same]

theorem components_ne_of_order_lt {left right : SourcePath} (before : left.order right = .lt) :
    left.components ≠ right.components := by
  intro same
  rw [order_eq_iff.mpr same] at before
  cases before

end SourcePath

end ScriptAnalysis
