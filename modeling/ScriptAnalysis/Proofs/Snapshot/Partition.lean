import ScriptAnalysis.Proofs.Snapshot.Lines

/-!
# The lines of a snapshot make up its text

A snapshot shows each line without what ends it. What is left out behind a line are carriage
returns and, unless it is the last line, one line feed (`EndsAsLine`). Lines and endings in turn
are the whole text (`lines_partition`).
-/

namespace ScriptAnalysis

namespace Text

/-- A text is its lines, with a line feed behind each but the last. -/
theorem intercalate_eq_flatMap_range (lines : List (List Char)) :
    ['\n'].intercalate lines = (List.range lines.length).flatMap fun index =>
      lines[index]?.getD [] ++ if index + 1 < lines.length then ['\n'] else [] := by
  induction lines with
  | nil => rfl
  | cons first rest inductionHypothesis =>
      rw [List.length_cons, List.range_succ_eq_map, List.flatMap_cons, List.flatMap_map]
      cases rest with
      | nil => simp [List.intercalate]
      | cons second others =>
          have joined : ['\n'].intercalate (first :: second :: others) =
              first ++ ['\n'] ++ ['\n'].intercalate (second :: others) := by
            simp [List.intercalate]
          simp only [joined, inductionHypothesis, List.getElem?_cons_zero, List.getElem?_cons_succ,
            Option.getD_some, List.length_cons, Nat.succ_eq_add_one, Nat.add_lt_add_iff_right,
            Nat.zero_lt_succ, if_true]

end Text

namespace Snapshot

/-- What may stand between a shown line and the next one, or the end of the text: breaks only, and
among them one line feed at the very end, unless the line is the last. -/
structure EndsAsLine (last : Prop) (ending : List Char) : Prop where
  breaks : ∀ c ∈ ending, c = '\r' ∨ c = '\n'
  feeds : ¬ last → ending.count '\n' = 1 ∧ ending.getLast? = some '\n'
  unbroken : last → '\n' ∉ ending

/-- What ends a line: the breaks that are trimmed off it, and the line feed behind it if another
line follows. -/
def ending (lines : List (List Char)) (index : Nat) : List Char :=
  (lines[index]?.getD []).rtakeWhile isBreak ++ if index + 1 < lines.length then ['\n'] else []

theorem isBreak_iff {c : Char} : isBreak c = true ↔ c = '\r' ∨ c = '\n' := by
  rw [isBreak, Bool.or_eq_true, beq_iff_eq, beq_iff_eq, or_comm]

/-- Lines without line feeds end as lines. -/
theorem endsAsLine_ending {lines : List (List Char)} (unbroken : ∀ line ∈ lines, '\n' ∉ line)
    {index : Nat} (inside : index < lines.length) :
    EndsAsLine (index + 1 = lines.length) (ending lines index) := by
  have trimmed : '\n' ∉ lines[index].rtakeWhile isBreak := fun member =>
    unbroken _ (List.getElem_mem inside) ((List.rtakeWhile_suffix _ _).subset member)
  rw [ending, List.getElem?_eq_getElem inside, Option.getD_some]
  constructor
  · intro c member
    rcases List.mem_append.mp member with dropped | behind
    · exact isBreak_iff.mp (List.mem_rtakeWhile_imp dropped)
    · split at behind
      · exact .inr (List.mem_singleton.mp behind)
      · cases behind
  · intro inner
    rw [if_pos (by omega), List.count_append, List.count_eq_zero_of_not_mem trimmed,
      List.getLast?_concat]
    exact ⟨rfl, rfl⟩
  · intro last
    rwa [if_neg (by omega), List.append_nil]

/-- No shown line has a line feed in it or a carriage return at its end. -/
theorem break_of_line? {path : SourcePath} {text : String} {index : Nat} {shown : List Char}
    (there : (capture path text).line? index = some shown) :
    '\n' ∉ shown ∧ shown.getLast? ≠ some '\r' := by
  rw [line?_capture, List.getElem?_map, Option.map_eq_some_iff] at there
  obtain ⟨line, whole, rfl⟩ := there
  have unbroken := Text.break_notMem_of_mem_linesOf (List.mem_of_getElem? whole)
  obtain ⟨dropped, parts, _⟩ := Text.exists_eq_trimEnd_append isBreak line
  constructor
  · intro member
    rw [parts] at unbroken
    exact unbroken (List.mem_append_left _ member)
  · intro last
    have kept := Text.drop_getLast?_trimEnd (Option.mem_def.mpr last)
    cases kept

/-- What is shown of the lines and what ends them are the text. -/
theorem flatMap_line?_append_ending (path : SourcePath) (text : String) :
    ((List.range (capture path text).lineCount).flatMap fun index =>
      ((capture path text).line? index).getD [] ++ ending (Text.linesOf text.toList) index) =
      text.toList := by
  have whole : ∀ index, ((capture path text).line? index).getD [] ++
      ((Text.linesOf text.toList)[index]?.getD []).rtakeWhile isBreak =
        (Text.linesOf text.toList)[index]?.getD [] := by
    intro index
    rw [line?_capture, List.getElem?_map]
    cases (Text.linesOf text.toList)[index]? with
    | none => rfl
    | some line => exact List.rdropWhile_append_rtakeWhile
  have joined : ['\n'].intercalate (Text.linesOf text.toList) = text.toList :=
    List.intercalate_splitOn '\n'
  simp only [ending, ← List.append_assoc, whole, lineCount_capture]
  rw [← Text.intercalate_eq_flatMap_range, joined]

/-- There is one line more than line feeds. No line that is shown has a line feed in it or a
carriage return at its end, and with what ends each of them they make up the text. -/
theorem lines_partition (path : SourcePath) (text : String) :
    let snapshot := capture path text
    snapshot.lineCount = 1 + text.toList.count '\n' ∧
      (∀ index, (snapshot.line? index).isSome = true ↔ index < snapshot.lineCount) ∧
      (∀ index shown, snapshot.line? index = some shown →
        '\n' ∉ shown ∧ shown.getLast? ≠ some '\r') ∧
      ∃ endings : Nat → List Char,
        text.toList = ((List.range snapshot.lineCount).flatMap fun index =>
          (snapshot.line? index).getD [] ++ endings index) ∧
        ∀ index < snapshot.lineCount,
          EndsAsLine (index + 1 = snapshot.lineCount) (endings index) := by
  intro snapshot
  have count : snapshot.lineCount = (Text.linesOf text.toList).length :=
    lineCount_capture path text
  refine ⟨?_, fun index => isSome_line?, fun index shown there => break_of_line? there,
    ending (Text.linesOf text.toList), (flatMap_line?_append_ending path text).symm,
    fun index inside => ?_⟩
  · rw [count, Text.length_linesOf, Nat.add_comm]
  · rw [count] at inside ⊢
    exact endsAsLine_ending (fun _ => Text.break_notMem_of_mem_linesOf) inside

end Snapshot

end ScriptAnalysis
