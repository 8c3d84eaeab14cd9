import ScriptAnalysis.Proofs.Snapshot.Lines

/-!
# Positions in a snapshot

The position of a place counts the line feeds before it and the characters since the last of
them (`positionAt_capture`). As long as both fit into a position, it leads back to its place:
`ReadsFrom` says what stands in a snapshot from a position to the end of the line, and at the
position of a place stands what follows the place (`readsFrom_positionAt`).
-/

namespace ScriptAnalysis

namespace Snapshot

variable {text : String} {before after : List Char}

/-- The line feeds before a place, and no others, open lines at or before it. -/
theorem filter_lineStarts_capture (path : SourcePath) (whole : text.toList = before ++ after) :
    (capture path text).lineStarts.filter (· ≤ Text.byteLength before) =
      0 :: breaksFrom 0 before := by
  have early : ∀ start ∈ breaksFrom 0 before, decide (start ≤ Text.byteLength before) = true := by
    intro start member
    have inside := bounds_of_mem_breaksFrom member
    exact decide_eq_true (by omega)
  have late : ∀ start ∈ breaksFrom (0 + Text.byteLength before) after,
      ¬ decide (start ≤ Text.byteLength before) = true := by
    intro start member
    have inside := bounds_of_mem_breaksFrom member
    simp only [decide_eq_true_eq]
    omega
  rw [lineStarts_capture, whole, breaksFrom_append, List.filter_cons_of_pos (by simp),
    List.filter_append, List.filter_eq_self.mpr early, List.filter_eq_nil_iff.mpr late,
    List.append_nil]

/-- The line of a place begins as many bytes before it as the characters since the last line feed
take. -/
theorem lineStart_capture (path : SourcePath) (whole : text.toList = before ++ after) :
    ∃ upper, before = upper ++ Text.lastLine before ∧
      (capture path text).lineStarts[before.count '\n']? = some (Text.byteLength upper) := by
  have index : (0 :: breaksFrom 0 before).length = before.count '\n' + 1 := by
    rw [List.length_cons, length_breaksFrom]
  rw [lineStarts_capture, whole, breaksFrom_append, ← List.cons_append,
    List.getElem?_append_left (by omega)]
  rcases Text.unbroken_or_exists_break before with unbroken | ⟨above, line, unbroken, rfl⟩
  · refine ⟨[], by rw [Text.lastLine_of_notMem unbroken, List.nil_append], ?_⟩
    rw [List.count_eq_zero_of_not_mem unbroken]
    rfl
  · have none : breaksFrom (0 + Text.byteLength above + 1) line = [] := by
      rw [← List.length_eq_zero_iff, length_breaksFrom]
      exact List.count_eq_zero_of_not_mem unbroken
    refine ⟨above ++ ['\n'], by rw [Text.lastLine_append_break above unbroken]; simp, ?_⟩
    have last : (above ++ '\n' :: line).count '\n' = (breaksFrom 0 above).length + 1 := by
      rw [length_breaksFrom, List.count_append, List.count_cons_self,
        List.count_eq_zero_of_not_mem unbroken]
    rw [last, List.getElem?_cons_succ, breaksFrom_append, breaksFrom_cons, if_pos rfl, none,
      List.getElem?_append_right (Nat.le_refl _), Nat.sub_self, Nat.zero_add,
      Text.byteLength_append]
    rfl

/-- Of three parts of a text only the middle one lies between its first and its last byte. -/
theorem countP_withOffsets_between {upper line after : List Char} {within : Nat × Char → Bool}
    (spec : ∀ entry, within entry = true ↔
      Text.byteLength upper ≤ entry.1 ∧ entry.1 < Text.byteLength (upper ++ line)) :
    (Text.withOffsets 0 (upper ++ line ++ after)).countP within = line.length := by
  have total := Text.byteLength_append upper line
  have above : (Text.withOffsets 0 upper).countP within = 0 := by
    refine List.countP_eq_zero.mpr fun entry member => ?_
    have bound := Text.lt_of_mem_withOffsets member
    rw [spec]
    omega
  have between : (Text.withOffsets (0 + Text.byteLength upper) line).countP within =
      line.length := by
    rw [← Text.length_withOffsets (0 + Text.byteLength upper)]
    refine List.countP_eq_length.mpr fun entry member => (spec entry).mpr ?_
    have bound := Text.lt_of_mem_withOffsets member
    have start := (Text.bounds_of_mem_withOffsets member).1
    omega
  have below : (Text.withOffsets (0 + Text.byteLength (upper ++ line)) after).countP within =
      0 := by
    refine List.countP_eq_zero.mpr fun entry member => ?_
    have start := (Text.bounds_of_mem_withOffsets member).1
    rw [spec]
    omega
  rw [Text.withOffsets_append, Text.withOffsets_append, List.countP_append, List.countP_append,
    above, between, below]
  omega

/-- The position of a place: the line feeds before it, and the characters since the last of
them. -/
theorem positionAt_capture (path : SourcePath) (whole : text.toList = before ++ after) :
    (capture path text).positionAt (Text.byteLength before) =
      Position.ofNat (before.count '\n') (Text.lastLine before).length := by
  have inside : min (Text.byteLength before) (capture path text).length =
      Text.byteLength before := by
    refine Nat.min_eq_left ?_
    show Text.byteLength before ≤ Text.byteLength text.toList
    rw [whole, Text.byteLength_append]
    omega
  obtain ⟨upper, parts, begins⟩ := lineStart_capture path whole
  have line : (0 :: breaksFrom 0 before).length - 1 = before.count '\n' := by
    rw [List.length_cons, length_breaksFrom, Nat.add_sub_cancel]
  have cut : (capture path text).text.toList = upper ++ Text.lastLine before ++ after := by
    rw [← parts]
    exact whole
  simp only [positionAt, inside, filter_lineStarts_capture path whole, line, begins,
    Option.getD_some]
  congr 1
  rw [cut]
  refine countP_withOffsets_between fun entry => ?_
  rw [← parts, Bool.and_eq_true, decide_eq_true_eq, decide_eq_true_eq]

/-- The position is on a line of the snapshot and not behind its end, and `rest` stands there up
to the end of the line. The line feed is no part of the line. -/
structure ReadsFrom (snapshot : Snapshot) (position : Position) (rest : List Char) : Prop where
  line_lt : position.line.toNat < snapshot.lineCount
  stands : ∃ line, (Text.linesOf snapshot.text.toList)[position.line.toNat]? = some line ∧
    position.character.toNat ≤ line.length ∧ line.drop position.character.toNat = rest

/-- The position is behind the last character of the last line. -/
structure EndsAt (snapshot : Snapshot) (position : Position) : Prop where
  lastLine : position.line.toNat + 1 = snapshot.lineCount
  nothing : snapshot.ReadsFrom position []

/-- Counts that fit into a position are read off it. -/
theorem readsFrom_ofNat {line character : Nat} {chars : List Char} (path : SourcePath)
    (small : Text.byteLength text.toList < UInt32.size)
    (there : (Text.linesOf text.toList)[line]? = some chars) (inside : character ≤ chars.length) :
    (Position.ofNat line character).line.toNat = line ∧
      (Position.ofNat line character).character.toNat = character ∧
        (capture path text).ReadsFrom (Position.ofNat line character) (chars.drop character) := by
  have size := Text.length_le_byteLength text.toList
  have longest : chars.length ≤ text.toList.length :=
    Text.length_le_of_mem_linesOf (List.mem_of_getElem? there)
  have index : line < (Text.linesOf text.toList).length := (List.getElem?_eq_some_iff.mp there).1
  have feeds : text.toList.count '\n' ≤ text.toList.length := List.count_le_length
  have count : line < text.toList.count '\n' + 1 := by rwa [Text.length_linesOf] at index
  have lineRead : (Position.ofNat line character).line.toNat = line :=
    UInt32.toNat_ofNat_of_lt' (by show line < UInt32.size; omega)
  have characterRead : (Position.ofNat line character).character.toNat = character :=
    UInt32.toNat_ofNat_of_lt' (by show character < UInt32.size; omega)
  refine ⟨lineRead, characterRead, ?_, chars, ?_, ?_, ?_⟩
  · rwa [lineRead, lineCount_capture]
  · rw [lineRead]
    exact there
  · rwa [characterRead]
  · rw [characterRead]

/-- The position of a place counts the line feeds before it and the characters since the last of
them, and what follows the place stands there. -/
theorem positionAt_leads_back (path : SourcePath)
    (small : Text.byteLength text.toList < UInt32.size) (whole : text.toList = before ++ after) :
    let position := (capture path text).positionAt (Text.byteLength before)
    position.line.toNat = before.count '\n' ∧
      position.character.toNat = (Text.lastLine before).length ∧
        (capture path text).ReadsFrom position (after.takeWhile (· ≠ '\n')) := by
  intro position
  have there := Text.getElem?_linesOf_append before after
  rw [← whole] at there
  have inside : (Text.lastLine before).length ≤
      (Text.lastLine before ++ after.takeWhile (· ≠ '\n')).length := by simp
  have read := readsFrom_ofNat path small there inside
  rwa [List.drop_left, ← positionAt_capture path whole] at read

theorem toNat_positionAt (path : SourcePath) (small : Text.byteLength text.toList < UInt32.size)
    (whole : text.toList = before ++ after) :
    let position := (capture path text).positionAt (Text.byteLength before)
    position.line.toNat = before.count '\n' ∧
      position.character.toNat = (Text.lastLine before).length :=
  (positionAt_leads_back path small whole).imp_right And.left

/-- At the position of a place stands what follows the place. -/
theorem readsFrom_positionAt (path : SourcePath) (small : Text.byteLength text.toList < UInt32.size)
    (whole : text.toList = before ++ after) :
    (capture path text).ReadsFrom ((capture path text).positionAt (Text.byteLength before))
      (after.takeWhile (· ≠ '\n')) :=
  (positionAt_leads_back path small whole).2.2

/-- The position of the end of the text is its end. -/
theorem endsAt_positionAt (path : SourcePath) (small : Text.byteLength text.toList < UInt32.size) :
    (capture path text).EndsAt
      ((capture path text).positionAt (Text.byteLength text.toList)) := by
  have whole : text.toList = text.toList ++ [] := (List.append_nil _).symm
  refine ⟨?_, readsFrom_positionAt path small whole⟩
  rw [lineCount_capture, Text.length_linesOf, (toNat_positionAt path small whole).1]

end Snapshot

end ScriptAnalysis
