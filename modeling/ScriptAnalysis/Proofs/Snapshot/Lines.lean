import ScriptAnalysis.Proofs.Text.Lines
import ScriptAnalysis.Proofs.Text.Offsets
import ScriptAnalysis.Snapshot

/-!
# The line index of a snapshot

The line starts of a captured text are the offsets at which its lines begin, one for each line
of `Text.linesOf`. So a snapshot shows the lines of its text (`line?_capture`), each without
the breaks at its end.
-/

namespace ScriptAnalysis.Snapshot

variable {text : String} {path : SourcePath}

/-- The offsets after the line feeds of a text whose first byte has the offset `start`. -/
def breaksFrom (start : Nat) (chars : List Char) : List Nat :=
  (Text.withOffsets start chars).filterMap fun (offset, c) =>
    if c = '\n' then some (offset + 1) else none

theorem lineStarts_capture (path : SourcePath) (text : String) :
    (capture path text).lineStarts = 0 :: breaksFrom 0 text.toList := rfl

theorem breaksFrom_cons (start : Nat) (c : Char) (rest : List Char) :
    breaksFrom start (c :: rest) =
      if c = '\n' then (start + 1) :: breaksFrom (start + 1) rest
      else breaksFrom (start + c.utf8Size) rest := by
  unfold breaksFrom
  by_cases breaks : c = '\n'
  · rw [if_pos breaks, breaks]
    rfl
  · rw [if_neg breaks, Text.withOffsets, List.filterMap_cons_none]
    exact if_neg breaks

theorem breaksFrom_append (start : Nat) (left right : List Char) :
    breaksFrom start (left ++ right) =
      breaksFrom start left ++ breaksFrom (start + Text.byteLength left) right := by
  rw [breaksFrom, Text.withOffsets_append, List.filterMap_append]
  rfl

/-- A line begins behind every line feed. -/
theorem length_breaksFrom (start : Nat) (chars : List Char) :
    (breaksFrom start chars).length = chars.count '\n' := by
  induction chars generalizing start with
  | nil => rfl
  | cons c rest inductionHypothesis =>
      rw [breaksFrom_cons]
      split
      · next breaks =>
          rw [breaks, List.count_cons_self, List.length_cons, inductionHypothesis]
      · next other => rw [List.count_cons_of_ne other, inductionHypothesis]

/-- The lines begin inside the text or at its end, behind its first character. -/
theorem bounds_of_mem_breaksFrom {start offset : Nat} {chars : List Char}
    (member : offset ∈ breaksFrom start chars) :
    start < offset ∧ offset ≤ start + Text.byteLength chars := by
  obtain ⟨⟨place, c⟩, there, breaks⟩ := List.mem_filterMap.mp member
  have inside := Text.bounds_of_mem_withOffsets there
  by_cases feed : c = '\n'
  · have same : place + 1 = offset := by simpa [feed] using breaks
    have size : c.utf8Size = 1 := by rw [feed]; rfl
    omega
  · simp [feed] at breaks

/-- Each of them begins behind the one before. -/
theorem pairwise_breaksFrom (start : Nat) (chars : List Char) :
    (breaksFrom start chars).Pairwise (· < ·) := by
  induction chars generalizing start with
  | nil => exact .nil
  | cons c rest inductionHypothesis =>
      rw [breaksFrom_cons]
      split
      · exact .cons (fun offset member => (bounds_of_mem_breaksFrom member).1)
          (inductionHypothesis _)
      · exact inductionHypothesis _

/-- Lines begin one behind the other. -/
theorem pairwise_lineStarts (path : SourcePath) (text : String) :
    (capture path text).lineStarts.Pairwise (· < ·) := by
  rw [lineStarts_capture]
  exact .cons (fun offset member => (bounds_of_mem_breaksFrom member).1) (pairwise_breaksFrom _ _)

/-- There is a line start for every line. -/
theorem lineCount_capture (path : SourcePath) (text : String) :
    (capture path text).lineCount = (Text.linesOf text.toList).length := by
  rw [lineCount, lineStarts_capture, List.length_cons, length_breaksFrom, Text.length_linesOf]

/-- The offsets at which lines begin that follow each other, the first at `start`. -/
def startsFrom (start : Nat) : List (List Char) → List Nat
  | [] => []
  | line :: rest => start :: startsFrom (start + Text.byteLength line + 1) rest

/-- The line index is that of the lines. -/
theorem cons_breaksFrom (start : Nat) (chars : List Char) :
    start :: breaksFrom start chars = startsFrom start (Text.linesOf chars) := by
  induction chars generalizing start with
  | nil => rfl
  | cons c rest inductionHypothesis =>
      rw [breaksFrom_cons]
      split
      · next breaks =>
          have lines : Text.linesOf (c :: rest) = [] :: Text.linesOf rest := by
            rw [breaks]
            exact Text.linesOf_append_break [] rest
          rw [lines, inductionHypothesis]
          rfl
      · next other =>
          obtain ⟨first, others, lines, longer⟩ := Text.linesOf_cons other rest
          have later := inductionHypothesis (start + c.utf8Size)
          rw [lines, startsFrom, List.cons.injEq] at later
          rw [longer, startsFrom, Text.byteLength_cons, later.2, Nat.add_assoc start]

/-- From the start of a line to that of the next stands the line, with its line feed unless it
is the last. -/
theorem slice_lines (before : List Char) {lines : List (List Char)} {index : Nat}
    {line : List Char} (there : lines[index]? = some line) :
    let chars := before ++ ['\n'].intercalate lines
    let starts := startsFrom (Text.byteLength before) lines
    ∃ start, starts[index]? = some start ∧
      (Text.slice start (starts[index + 1]?.getD (Text.byteLength chars)) chars).map
        (Text.trimEnd isBreak) = some (Text.trimEnd isBreak line) := by
  induction lines generalizing before index with
  | nil => cases there
  | cons first rest inductionHypothesis =>
      intro chars starts
      cases rest with
      | nil =>
          cases index with
          | succ index => cases there
          | zero =>
              cases there
              refine ⟨Text.byteLength before, rfl, ?_⟩
              have whole : chars = before ++ (line ++ []) := by simp [chars]
              have stop : starts[0 + 1]?.getD (Text.byteLength chars) =
                  Text.byteLength before + Text.byteLength line := by
                simp [whole, starts, startsFrom]
              rw [stop, whole, Text.slice_append, Option.map_some]
      | cons second others =>
          have joined : chars =
              before ++ ((first ++ ['\n']) ++ ['\n'].intercalate (second :: others)) := by
            simp [chars, List.intercalate]
          have size : Text.byteLength (first ++ ['\n']) = Text.byteLength first + 1 :=
            Text.byteLength_append first ['\n']
          cases index with
          | zero =>
              cases there
              refine ⟨Text.byteLength before, rfl, ?_⟩
              have stop : starts[0 + 1]?.getD (Text.byteLength chars) =
                  Text.byteLength before + Text.byteLength (line ++ ['\n']) := by
                rw [size, ← Nat.add_assoc]
                rfl
              rw [stop, joined, Text.slice_append, Option.map_some,
                Text.trimEnd_concat (by decide : isBreak '\n' = true)]
          | succ index =>
              -- The first line goes to what stands before the others.
              have later := inductionHypothesis (before ++ (first ++ ['\n'])) there
              have tail : starts = Text.byteLength before ::
                  startsFrom (Text.byteLength (before ++ (first ++ ['\n'])))
                    (second :: others) := by
                rw [Text.byteLength_append, size, ← Nat.add_assoc]
                rfl
              rw [← List.append_assoc] at joined
              simp only [← joined] at later
              rw [tail]
              exact later

/-- A snapshot shows every line of its text without the breaks at its end. -/
theorem line?_capture (path : SourcePath) (text : String) (index : Nat) :
    (capture path text).line? index =
      ((Text.linesOf text.toList).map (Text.trimEnd isBreak))[index]? := by
  have starts : (capture path text).lineStarts = startsFrom 0 (Text.linesOf text.toList) := by
    rw [lineStarts_capture, cons_breaksFrom]
  have joined : ['\n'].intercalate (Text.linesOf text.toList) = text.toList :=
    List.intercalate_splitOn '\n'
  rw [line?, List.getElem?_map]
  cases there : (Text.linesOf text.toList)[index]? with
  | none =>
      have beyond : (capture path text).lineStarts[index]? = none := by
        rw [List.getElem?_eq_none_iff] at there ⊢
        rwa [← lineCount_capture path] at there
      rw [beyond, Option.map_none]
  | some line =>
      obtain ⟨start, begins, shown⟩ := slice_lines [] there
      simp only [joined, List.nil_append, Text.byteLength_nil] at begins shown
      rw [starts, begins]
      exact shown

/-- The lines that are counted are shown. -/
theorem isSome_line? {index : Nat} : ((capture path text).line? index).isSome = true ↔
    index < (capture path text).lineCount := by
  rw [line?_capture, lineCount_capture, isSome_getElem?, List.length_map]

/-- The lines of a snapshot depend on the trimmed lines of its text only. -/
theorem lines_capture (path : SourcePath) (text : String) :
    (capture path text).lines =
      let shown := (Text.linesOf text.toList).map (Text.trimEnd isBreak)
      (List.range shown.length).filterMap fun index =>
        shown[index]?.map fun line => (index, line) := by
  simp only [lines, lineCount_capture, line?_capture, List.length_map]

/-- The lines that a rule looks at are the trimmed lines of the text, each beside its index. -/
theorem mem_lines_capture {index : Nat} {shown : List Char} :
    (index, shown) ∈ (capture path text).lines ↔
      ∃ line, (Text.linesOf text.toList)[index]? = some line ∧
        Text.trimEnd isBreak line = shown := by
  rw [lines_capture]
  simp only [List.mem_filterMap, List.mem_range, List.getElem?_map, Option.map_eq_some_iff,
    Prod.mk.injEq, List.length_map]
  constructor
  · rintro ⟨_, _, _, ⟨line, there, rfl⟩, rfl, rfl⟩
    exact ⟨line, there, rfl⟩
  · rintro ⟨line, there, rfl⟩
    exact ⟨index, (List.getElem?_eq_some_iff.mp there).1, _, ⟨line, there, rfl⟩, rfl, rfl⟩

end ScriptAnalysis.Snapshot
