/-!
# Sorted texts without repetition

`sortedDistinct` lists the different texts of a list in ascending order. Texts are
ordered by code point, which is also the order of their UTF-8 bytes.
-/

namespace ScriptAnalysis.Text

/-- Put a text into an ascending list at its place, unless it is there. -/
def insertDistinct (text : String) : List String → List String
  | [] => [text]
  | first :: rest =>
      if text < first then text :: first :: rest
      else if text = first then first :: rest
      else first :: insertDistinct text rest

/-- The different texts of the list in ascending order. -/
def sortedDistinct (texts : List String) : List String :=
  texts.foldr insertDistinct []

theorem mem_insertDistinct {text other : String} {sorted : List String} :
    other ∈ insertDistinct text sorted ↔ other = text ∨ other ∈ sorted := by
  induction sorted with
  | nil => simp [insertDistinct]
  | cons first rest inductionHypothesis =>
      simp only [insertDistinct]
      split
      · simp
      · split
        · next equal => subst equal; simp
        · simp [inductionHypothesis, or_left_comm]

/-- Sorting keeps exactly the texts that were there. -/
theorem mem_sortedDistinct {text : String} {texts : List String} :
    text ∈ sortedDistinct texts ↔ text ∈ texts := by
  induction texts with
  | nil => simp [sortedDistinct]
  | cons first rest inductionHypothesis =>
      simp only [sortedDistinct, List.foldr_cons, List.mem_cons] at inductionHypothesis ⊢
      rw [mem_insertDistinct, inductionHypothesis]

theorem pairwise_insertDistinct {text : String} {sorted : List String}
    (ascending : sorted.Pairwise (· < ·)) : (insertDistinct text sorted).Pairwise (· < ·) := by
  induction sorted with
  | nil => exact List.pairwise_singleton _ _
  | cons first rest inductionHypothesis =>
      obtain ⟨least, others⟩ := List.pairwise_cons.mp ascending
      simp only [insertDistinct]
      split
      · next before =>
          refine List.pairwise_cons.mpr ⟨fun other member => ?_, ascending⟩
          rcases List.mem_cons.mp member with rfl | later
          · exact before
          · exact String.lt_trans before (least other later)
      · split
        · exact ascending
        · next notBefore differ =>
            have after : first < text := by
              rcases String.le_total first text with notAfter | notAfter
              · exact Decidable.byContradiction fun other =>
                  differ (String.le_antisymm (String.not_lt.mp other) notAfter)
              · exact absurd (String.le_antisymm notAfter (String.not_lt.mp notBefore)) differ
            refine List.pairwise_cons.mpr ⟨fun other member => ?_, inductionHypothesis others⟩
            rcases mem_insertDistinct.mp member with rfl | there
            · exact after
            · exact least other there

/-- The result is in strictly ascending order. -/
theorem pairwise_sortedDistinct (texts : List String) :
    (sortedDistinct texts).Pairwise (· < ·) := by
  induction texts with
  | nil => exact List.Pairwise.nil
  | cons first rest inductionHypothesis => exact pairwise_insertDistinct inductionHypothesis

end ScriptAnalysis.Text
