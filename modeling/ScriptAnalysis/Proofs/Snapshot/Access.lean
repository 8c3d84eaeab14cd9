import ScriptAnalysis.Proofs.Cache.Representation
import ScriptAnalysis.Proofs.Snapshot.Order
import ScriptAnalysis.Proofs.Token.Scanner

/-!
# No access to a text fails

Every range that is cut out of a text lies between two places in it (`Text.IsRange`): those of the
tokens, which a scanner of bytes finds, and those of the lines. The position of an offset is found
from what a search among the line starts answers, with an index that may be lowered and looked up
(`Snapshot.positionFrom?`). Each of these computations has a result for every text and every offset
(`Snapshot.accesses_succeed`).
-/

namespace ScriptAnalysis

namespace Text

/-- The bytes from `start` up to `stop` can be cut out of a text: both are places between its
characters, in this order. -/
structure IsRange (chars : List Char) (start stop : Nat) : Prop where
  ordered : start ≤ stop
  inside : stop ≤ byteLength chars
  starts : start ∈ boundaries chars
  stops : stop ∈ boundaries chars

/-- Ranges are what `slice` has a result for. -/
theorem slice_isSome_iff {chars : List Char} {start stop : Nat} :
    (slice start stop chars).isSome = true ↔ IsRange chars start stop := by
  rw [Option.isSome_iff_exists]
  constructor
  · rintro ⟨middle, sliced⟩
    obtain ⟨before, after, rfl, rfl, rfl⟩ := slice_eq_some_iff.mp sliced
    refine ⟨Nat.le_add_right _ _, ?_, ⟨before, middle ++ after, rfl, rfl⟩,
      ⟨before ++ middle, after, (List.append_assoc _ _ _).symm, byteLength_append _ _⟩⟩
    rw [byteLength_append, byteLength_append]
    omega
  · rintro ⟨ordered, -, ⟨before, rest, rfl, rfl⟩, ⟨longer, after, same, rfl⟩⟩
    rcases Nat.eq_or_lt_of_le ordered with equal | later
    · refine ⟨[], slice_eq_some_iff.mpr ⟨before, rest, rfl, rfl, equal⟩⟩
    · obtain ⟨c, middle, rfl⟩ := exists_eq_append_cons_of_byteLength_lt same later
      rw [List.append_assoc] at same
      exact ⟨c :: middle, slice_eq_some_iff.mpr
        ⟨before, after, same, rfl, (byteLength_append _ _).symm⟩⟩

/-- Places ascend, so those before an offset come first. -/
theorem countP_withOffsets_add (base start offset : Nat) (chars : List Char) :
    ((withOffsets (base + start) chars).countP fun (place, _) =>
      base ≤ place && place < offset) =
      ((withOffsets start chars).takeWhile fun (place, _) => base + place < offset).length := by
  induction chars generalizing start with
  | nil => rfl
  | cons c rest inductionHypothesis =>
      by_cases early : base + start < offset
      · rw [withOffsets, withOffsets, List.countP_cons_of_pos (by simpa using early),
          List.takeWhile_cons_of_pos (by simpa using early), List.length_cons, Nat.add_assoc,
          inductionHypothesis]
      · rw [withOffsets.eq_def start, List.takeWhile_cons_of_neg (by simpa using early)]
        refine List.countP_eq_zero.mpr fun entry member => ?_
        have bounds := (bounds_of_mem_withOffsets member).1
        simp only [Bool.and_eq_true, decide_eq_true_eq]
        omega

/-- The characters between a place and an offset can be counted from the place on. -/
theorem countP_withOffsets_from (before after : List Char) (offset : Nat) :
    ((withOffsets 0 (before ++ after)).countP fun (place, _) =>
      byteLength before ≤ place && place < offset) =
      ((withOffsets 0 after).takeWhile fun (place, _) =>
        byteLength before + place < offset).length := by
  have front : ((withOffsets 0 before).countP fun (place, _) =>
      byteLength before ≤ place && place < offset) = 0 := by
    refine List.countP_eq_zero.mpr fun entry member => ?_
    have bound := lt_of_mem_withOffsets member
    simp only [Bool.and_eq_true, decide_eq_true_eq]
    omega
  rw [withOffsets_append, List.countP_append, front, Nat.zero_add, Nat.zero_add,
    ← countP_withOffsets_add, Nat.add_zero]

end Text

/-- The token can be cut out of a text. -/
structure Token.IsCut (text : String) (token : Token) : Prop where
  nonempty : token.start < token.stop
  range : Text.IsRange text.toList token.start token.stop
  cuts : Text.slice token.start token.stop text.toList = some token.lexeme

theorem Token.isCut_of_mem_tokenize {text : String} {token : Token}
    (member : token ∈ tokenize text) : token.IsCut text := by
  have nonempty := ByteGrammar.start_lt_stop_of_mem_tokenize member
  rw [Piece.tokenize_eq_scan] at member
  obtain ⟨before, after, whole, starts, stops, -⟩ := Piece.mem_scan member
  rw [Nat.zero_add] at starts
  have cuts : Text.slice token.start token.stop text.toList = some token.lexeme :=
    Text.slice_eq_some_iff.mpr ⟨before, after, whole, starts.symm, by rw [stops, starts]⟩
  exact ⟨nonempty, Text.slice_isSome_iff.mp (by rw [cuts]; rfl), cuts⟩

/-- What a binary search for an offset may answer: an index at which it stands, or the index at
which it can be inserted. -/
inductive Sought (starts : List Nat) (offset : Nat) : Except Nat Nat → Prop where
  | found {index : Nat} (there : starts[index]? = some offset) : Sought starts offset (.ok index)
  | missing {index : Nat} (inside : index ≤ starts.length)
      (before : ∀ start ∈ starts.take index, start < offset)
      (behind : ∀ start ∈ starts.drop index, offset < start) :
      Sought starts offset (.error index)

namespace Snapshot

/-- The line that an answer stands for: the one at the index, or the one before the place of an
insertion, unless that is the very beginning. -/
def lineOf? : Except Nat Nat → Option Nat
  | .ok index => some index
  | .error 0 => none
  | .error (index + 1) => some index

/-- The position of an offset from what a search for it answers. There is none if the answer stands
for no line, or for one that is not in the index or does not begin at a place of the text. -/
def positionFrom? (snapshot : Snapshot) (offset : Nat) (answer : Except Nat Nat) :
    Option Position := do
  let line ← lineOf? answer
  let start ← snapshot.lineStarts[line]?
  let rest ← Text.dropBytes start snapshot.text.toList
  let before := (Text.withOffsets 0 rest).takeWhile fun (place, _) => start + place < offset
  return Position.ofNat line before.length

end Snapshot

namespace Sought

variable {starts : List Nat} {offset : Nat} {answer : Except Nat Nat}

/-- An answer for the rest of the starts is one for all, counted from the first of them. -/
theorem cons {first : Nat} (later : Sought starts offset answer) (before : first < offset) :
    ∃ whole, Sought (first :: starts) offset whole := by
  cases later with
  | @found index there => exact ⟨.ok (index + 1), .found there⟩
  | @missing index inside earlier behind =>
      exact ⟨.error (index + 1),
        .missing (Nat.succ_le_succ inside) (List.forall_mem_cons.mpr ⟨before, earlier⟩) behind⟩

/-- There is an answer for every offset. -/
theorem exists_answer (ascending : starts.Pairwise (· < ·)) (offset : Nat) :
    ∃ answer, Sought starts offset answer := by
  induction starts with
  | nil => exact ⟨.error 0, .missing le_rfl (by simp) (by simp)⟩
  | cons first rest inductionHypothesis =>
      obtain ⟨least, ascending⟩ := List.pairwise_cons.mp ascending
      rcases Nat.lt_trichotomy first offset with before | rfl | behind
      · obtain ⟨answer, later⟩ := inductionHypothesis ascending
        exact later.cons before
      · exact ⟨.ok 0, .found rfl⟩
      · refine ⟨.error 0, .missing (Nat.zero_le _) (by simp) ?_⟩
        exact List.forall_mem_cons.mpr ⟨behind, fun start member =>
          behind.trans (least start member)⟩

/-- Starts that are split at an offset are counted up to there. -/
theorem length_filter_le {count : Nat} (inside : count ≤ starts.length)
    (before : ∀ start ∈ starts.take count, start ≤ offset)
    (behind : ∀ start ∈ starts.drop count, offset < start) :
    (starts.filter (· ≤ offset)).length = count := by
  have early : (starts.take count).filter (· ≤ offset) = starts.take count :=
    List.filter_eq_self.mpr fun start member => decide_eq_true (before start member)
  have late : (starts.drop count).filter (· ≤ offset) = [] :=
    List.filter_eq_nil_iff.mpr fun start member => by simpa using behind start member
  rw [← List.take_append_drop count starts, List.filter_append, early, late, List.append_nil,
    List.length_take_of_le inside]

/-- The line that an answer stands for is the last one that begins at or before the offset. -/
theorem exists_line (ascending : starts.Pairwise (· < ·)) (first : starts.head? = some 0)
    (sought : Sought starts offset answer) :
    ∃ line start, Snapshot.lineOf? answer = some line ∧ starts[line]? = some start ∧
      (starts.filter (· ≤ offset)).length = line + 1 := by
  cases sought with
  | @found index there =>
      obtain ⟨inside, here⟩ := List.getElem?_eq_some_iff.mp there
      have ordered := List.pairwise_iff_getElem.mp ascending
      refine ⟨index, offset, rfl, there, length_filter_le inside ?_ ?_⟩
      · intro start member
        obtain ⟨place, bound, rfl⟩ := List.mem_take_iff_getElem.mp member
        rcases Nat.lt_or_ge place index with before | last
        · exact here ▸ Nat.le_of_lt (ordered place index _ inside before)
        · obtain rfl : place = index := by omega
          exact here.le
      · intro start member
        obtain ⟨place, bound, rfl⟩ := List.mem_drop_iff_getElem.mp member
        exact here ▸ ordered index (index + 1 + place) inside _ (by omega)
  | @missing index inside before behind =>
      cases index with
      | zero =>
          have opens : 0 ∈ starts.drop 0 := List.mem_of_mem_head? first
          exact absurd (behind 0 opens) (Nat.not_lt_zero _)
      | succ line =>
          refine ⟨line, starts[line], rfl, List.getElem?_eq_getElem inside, ?_⟩
          exact length_filter_le inside (fun start member => (before start member).le) behind

end Sought

namespace Snapshot

variable {text : String} {path : SourcePath}

/-- A line goes from its start to the next one, or to the end of the text. -/
theorem isRange_line {index start : Nat}
    (there : (capture path text).lineStarts[index]? = some start) :
    Text.IsRange text.toList start
      ((capture path text).lineStarts[index + 1]?.getD (capture path text).length) := by
  have shown := isSome_line?.mpr (List.getElem?_eq_some_iff.mp there).1
  rw [line?, there] at shown
  refine Text.slice_isSome_iff.mp ?_
  rwa [Option.isSome_map] at shown

/-- Whatever the search answers, the position of an offset is found from it. -/
theorem positionFrom?_eq {offset : Nat} {answer : Except Nat Nat} (path : SourcePath)
    (sought : Sought (capture path text).lineStarts (min offset (capture path text).length)
      answer) :
    (capture path text).positionFrom? (min offset (capture path text).length) answer =
      some ((capture path text).positionAt offset) := by
  obtain ⟨line, start, stands, there, count⟩ :=
    sought.exists_line (pairwise_lineStarts path text) rfl
  obtain ⟨before, after, whole, rfl⟩ := (isRange_line there).starts
  have cut : (capture path text).text.toList = before ++ after := whole
  simp only [positionFrom?, stands, Option.bind_eq_bind, Option.bind_some, there, cut,
    Text.dropBytes_append, positionAt, count, Nat.add_sub_cancel, Option.getD_some,
    Text.countP_withOffsets_from]
  rfl

/-- No access to a text fails. A scanner of its bytes halts, it never leaves the text on the way,
and the tokens that it has found then can be cut out of the text. Lines begin behind the line feeds
among the bytes, which are places of the text, and each line that is counted can be cut out and is
shown. The search among their beginnings has an answer for every offset, and the position of the
offset is found from any answer that it may give. -/
theorem accesses_succeed (path : SourcePath) (text : String) :
    let bytes := text.toUTF8.data.toList
    let snapshot := capture path text
    (⟨.between, text.toUTF8.size, (tokenize text).map Token.extent⟩ ∈
        StateTransition.eval (ByteScanner.step bytes) ByteScanner.start ∧
      ∀ scanner, StateTransition.Reaches (ByteScanner.step bytes) ByteScanner.start scanner →
        scanner.position ≤ text.toUTF8.size) ∧
    (∀ token ∈ tokenize text, token.IsCut text) ∧
    (snapshot.lineStarts = 0 :: Text.feedEnds text ∧
      ∀ start ∈ snapshot.lineStarts, start ∈ Text.boundaries text.toList) ∧
    (∀ index < snapshot.lineCount, (snapshot.line? index).isSome = true ∧
      ∃ start, snapshot.lineStarts[index]? = some start ∧
        Text.IsRange text.toList start
          (snapshot.lineStarts[index + 1]?.getD snapshot.length)) ∧
    ∀ offset,
      (∃ answer, Sought snapshot.lineStarts (min offset snapshot.length) answer) ∧
      ∀ answer, Sought snapshot.lineStarts (min offset snapshot.length) answer →
        snapshot.positionFrom? (min offset snapshot.length) answer =
          some (snapshot.positionAt offset) := by
  intro bytes snapshot
  refine ⟨⟨ByteScanner.eval_tokenize text, fun scanner runs => ?_⟩,
    fun token => Token.isCut_of_mem_tokenize,
    ⟨lineStartsOf_eq_feedEnds text, fun start member => ?_⟩,
    fun index inside => ?_, fun offset =>
      ⟨Sought.exists_answer (pairwise_lineStarts path text) _, fun answer => positionFrom?_eq path⟩⟩
  · have inside := ByteScanner.position_le_of_reaches runs
    rwa [Array.length_toList, ByteArray.size_data] at inside
  · obtain ⟨index, there⟩ := List.mem_iff_getElem?.mp member
    exact (isRange_line there).starts
  · have there := List.getElem?_eq_getElem inside
    exact ⟨isSome_line?.mpr inside, _, there, isRange_line there⟩

end Snapshot

end ScriptAnalysis
