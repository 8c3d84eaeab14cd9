import Mathlib.Data.List.DropRight

/-!
# Lines of a text

A text is cut into lines at its line feeds (`linesOf`). A place in the text lies on the line
that the line feeds before it count, behind the characters since the last of them (`lastLine`):
the line goes on with the characters up to the next line feed (`getElem?_linesOf_append`).
-/

namespace ScriptAnalysis.Text

/-- The lines of a text without their line feeds. -/
def linesOf (chars : List Char) : List (List Char) :=
  chars.splitOn '\n'

/-- The characters after the last line feed. -/
def lastLine (chars : List Char) : List Char :=
  chars.rtakeWhile (· ≠ '\n')

variable {chars line : List Char}

theorem linesOf_ne_nil (chars : List Char) : linesOf chars ≠ [] :=
  List.splitOn_ne_nil _ _

/-- A line feed parts the lines before it from those after it. -/
theorem linesOf_append_break (before after : List Char) :
    linesOf (before ++ '\n' :: after) = linesOf before ++ linesOf after :=
  List.splitOnP_append_cons before after (beq_self_eq_true '\n')

/-- The lines of a text in front of which one more character stands. -/
theorem linesOf_cons {c : Char} (other : c ≠ '\n') (rest : List Char) :
    ∃ first others, linesOf rest = first :: others ∧
      linesOf (c :: rest) = (c :: first) :: others := by
  obtain ⟨first, others, lines⟩ := List.exists_cons_of_ne_nil (linesOf_ne_nil rest)
  refine ⟨first, others, lines, ?_⟩
  rw [linesOf, List.splitOn] at lines ⊢
  rw [List.splitOnP_cons_eq_if_modifyHead, if_neg (by simpa using other), lines]
  rfl

theorem lastLine_of_notMem (unbroken : '\n' ∉ chars) : lastLine chars = chars := by
  rw [lastLine, List.rtakeWhile_eq_self_iff]
  intro c member
  simpa using ne_of_mem_of_not_mem member unbroken

theorem lastLine_append_break (before : List Char) (unbroken : '\n' ∉ line) :
    lastLine (before ++ '\n' :: line) = line := by
  have kept : ∀ c ∈ line.reverse, decide (c ≠ '\n') = true := fun c member => by
    simpa using ne_of_mem_of_not_mem (List.mem_reverse.mp member) unbroken
  rw [lastLine, List.rtakeWhile, List.reverse_append, List.reverse_cons, List.append_assoc,
    List.takeWhile_append_of_pos kept]
  simp

/-- A text has no line feed, or it ends in one and a line behind it. -/
theorem unbroken_or_exists_break (chars : List Char) :
    '\n' ∉ chars ∨ ∃ before line, '\n' ∉ line ∧ chars = before ++ '\n' :: line := by
  induction chars with
  | nil => exact .inl List.not_mem_nil
  | cons c rest inductionHypothesis =>
      rcases inductionHypothesis with unbroken | ⟨before, line, unbroken, rfl⟩
      · by_cases breaks : c = '\n'
        · exact .inr ⟨[], rest, unbroken, by rw [breaks, List.nil_append]⟩
        · exact .inl (List.not_mem_cons_of_ne_of_not_mem (Ne.symm breaks) unbroken)
      · exact .inr ⟨c :: before, line, unbroken, rfl⟩

/-- Characters without a line feed continue the last line. -/
theorem lastLine_append_of_notMem (before : List Char) (unbroken : '\n' ∉ line) :
    lastLine (before ++ line) = lastLine before ++ line := by
  rcases unbroken_or_exists_break before with whole | ⟨above, last, kept, rfl⟩
  · rw [lastLine_of_notMem whole, lastLine_of_notMem]
    exact fun member => (List.mem_append.mp member).elim whole unbroken
  · rw [List.append_assoc, List.cons_append, lastLine_append_break above kept,
      lastLine_append_break above]
    exact fun member => (List.mem_append.mp member).elim kept unbroken

/-- What stands before a line feed has no part in the last line. -/
theorem lastLine_append_of_mem (before : List Char) (breaks : '\n' ∈ chars) :
    lastLine (before ++ chars) = lastLine chars := by
  rcases unbroken_or_exists_break chars with unbroken | ⟨above, last, unbroken, rfl⟩
  · exact absurd breaks unbroken
  · rw [← List.append_assoc, lastLine_append_break _ unbroken, lastLine_append_break _ unbroken]

theorem lastLine_cons_break (rest : List Char) : lastLine ('\n' :: rest) = lastLine rest := by
  by_cases breaks : '\n' ∈ rest
  · exact lastLine_append_of_mem ['\n'] breaks
  · rw [lastLine_of_notMem breaks]
    exact lastLine_append_break [] breaks

/-- There is one more line than line feeds. -/
theorem length_linesOf (chars : List Char) : (linesOf chars).length = chars.count '\n' + 1 := by
  induction chars with
  | nil => rfl
  | cons c rest inductionHypothesis =>
      by_cases breaks : c = '\n'
      · subst breaks
        rw [← List.nil_append ('\n' :: rest), linesOf_append_break, List.length_append,
          inductionHypothesis, List.nil_append, List.count_cons_self]
        exact Nat.add_comm _ _
      · obtain ⟨first, others, lines, longer⟩ := linesOf_cons breaks rest
        rw [longer, List.count_cons_of_ne breaks, ← inductionHypothesis, lines]
        rfl

/-- No line is longer than the text. -/
theorem length_le_of_mem_linesOf (member : line ∈ linesOf chars) :
    line.length ≤ chars.length := by
  induction chars generalizing line with
  | nil =>
      rw [List.mem_singleton.mp member]
      exact Nat.le_refl _
  | cons c rest inductionHypothesis =>
      by_cases breaks : c = '\n'
      · rw [breaks, ← List.nil_append ('\n' :: rest), linesOf_append_break] at member
        rcases List.mem_append.mp member with above | below
        · rw [List.mem_singleton.mp above]
          exact Nat.zero_le _
        · exact Nat.le_succ_of_le (inductionHypothesis below)
      · obtain ⟨first, others, lines, longer⟩ := linesOf_cons breaks rest
        rw [longer] at member
        rcases List.mem_cons.mp member with rfl | below
        · exact Nat.succ_le_succ (inductionHypothesis (lines ▸ List.mem_cons_self))
        · exact Nat.le_succ_of_le (inductionHypothesis (lines ▸ List.mem_cons_of_mem _ below))

/-- The first line goes up to the first line feed. -/
theorem getElem?_linesOf_zero (chars : List Char) :
    (linesOf chars)[0]? = some (chars.takeWhile (· ≠ '\n')) := by
  induction chars with
  | nil => rfl
  | cons c rest inductionHypothesis =>
      by_cases breaks : c = '\n'
      · subst breaks
        rw [← List.nil_append ('\n' :: rest), linesOf_append_break]
        rfl
      · obtain ⟨first, others, lines, longer⟩ := linesOf_cons breaks rest
        rw [lines, List.getElem?_cons_zero, Option.some_inj] at inductionHypothesis
        rw [longer, List.getElem?_cons_zero, inductionHypothesis,
          List.takeWhile_cons_of_pos (by simpa using breaks)]

/-- The line of a place: the characters since the last line feed before it, and those up to the
next one after it. -/
theorem getElem?_linesOf_append (before after : List Char) :
    (linesOf (before ++ after))[before.count '\n']? =
      some (lastLine before ++ after.takeWhile (· ≠ '\n')) := by
  have inLine : ∀ line : List Char, '\n' ∉ line →
      (line ++ after).takeWhile (· ≠ '\n') = line ++ after.takeWhile (· ≠ '\n') :=
    fun line unbroken => List.takeWhile_append_of_pos fun c member => by
      simpa using ne_of_mem_of_not_mem member unbroken
  rcases unbroken_or_exists_break before with unbroken | ⟨above, line, unbroken, rfl⟩
  · rw [List.count_eq_zero_of_not_mem unbroken, getElem?_linesOf_zero, inLine before unbroken,
      lastLine_of_notMem unbroken]
  · have index : (above ++ '\n' :: line).count '\n' = (linesOf above).length := by
      rw [length_linesOf, List.count_append, List.count_cons_self,
        List.count_eq_zero_of_not_mem unbroken]
    rw [index, List.append_assoc, List.cons_append, linesOf_append_break,
      List.getElem?_append_right (Nat.le_refl _), Nat.sub_self, getElem?_linesOf_zero,
      inLine line unbroken, lastLine_append_break above unbroken]

/-- Every line has no line feed, and stands in the text where a line begins. -/
theorem exists_cut_of_getElem?_linesOf {index : Nat}
    (there : (linesOf chars)[index]? = some line) :
    ∃ above below, chars = above ++ (line ++ below) ∧ above.count '\n' = index ∧
      lastLine above = [] ∧ '\n' ∉ line := by
  induction chars generalizing index line with
  | nil =>
      obtain ⟨rfl, rfl⟩ : index = 0 ∧ [] = line := by
        cases index with
        | zero => exact ⟨rfl, Option.some_inj.mp there⟩
        | succ index => cases there
      exact ⟨[], [], rfl, rfl, rfl, List.not_mem_nil⟩
  | cons c rest inductionHypothesis =>
      by_cases breaks : c = '\n'
      · subst breaks
        rw [← List.nil_append ('\n' :: rest), linesOf_append_break] at there
        cases index with
        | zero =>
            obtain rfl : [] = line := Option.some_inj.mp there
            exact ⟨[], '\n' :: rest, rfl, rfl, rfl, List.not_mem_nil⟩
        | succ index =>
            obtain ⟨above, below, rfl, feeds, opens, unbroken⟩ := inductionHypothesis there
            refine ⟨'\n' :: above, below, rfl, ?_, ?_, unbroken⟩
            · rw [List.count_cons_self, feeds]
            · rw [lastLine_cons_break, opens]
      · obtain ⟨first, others, lines, longer⟩ := linesOf_cons breaks rest
        rw [longer] at there
        rw [lines] at inductionHypothesis
        cases index with
        | zero =>
            obtain rfl : c :: first = line := Option.some_inj.mp there
            have begins : (first :: others)[0]? = some first := rfl
            obtain ⟨above, below, rfl, feeds, opens, unbroken⟩ := inductionHypothesis begins
            -- No line feed stands before the first line, so nothing does.
            rw [lastLine_of_notMem (List.count_eq_zero.mp feeds)] at opens
            subst opens
            exact ⟨[], below, rfl, rfl, rfl,
              List.not_mem_cons_of_ne_of_not_mem (Ne.symm breaks) unbroken⟩
        | succ index =>
            have later : (first :: others)[index + 1]? = some line := there
            obtain ⟨above, below, rfl, feeds, opens, unbroken⟩ := inductionHypothesis later
            have broken : '\n' ∈ above := List.count_pos_iff.mp (by omega)
            refine ⟨c :: above, below, rfl, ?_, ?_, unbroken⟩
            · rw [List.count_cons_of_ne breaks, feeds]
            · rw [← opens]
              exact lastLine_append_of_mem [c] broken

/-- No line has a line feed. -/
theorem break_notMem_of_mem_linesOf (member : line ∈ linesOf chars) : '\n' ∉ line := by
  obtain ⟨index, there⟩ := List.mem_iff_getElem?.mp member
  obtain ⟨_, _, _, _, _, unbroken⟩ := exists_cut_of_getElem?_linesOf there
  exact unbroken

end ScriptAnalysis.Text
