import Mathlib.Data.Prod.Lex
import Mathlib.Order.Monotone.Defs
import ScriptAnalysis.Proofs.Snapshot.Position

/-!
# The order of places and positions

Places between characters lie in a text in the order of their offsets, and their positions in the
order of lines and characters. `positionAt` carries the one order to the other and leaves out no
position on a line (`positionAt_orderEmbedding`). It does not find the character that an offset
lies in: inside a character it has already counted that character (`positionAt_eq_iff`).
-/

namespace ScriptAnalysis

namespace Position

/-- The two counts of a position in the order in which they are compared. -/
def counts (position : Position) : ℕ ×ₗ ℕ :=
  toLex (position.line.toNat, position.character.toNat)

theorem counts_injective : Function.Injective counts := by
  rintro ⟨line, character⟩ ⟨otherLine, otherCharacter⟩ same
  obtain ⟨lines, characters⟩ := Prod.mk.inj (toLex.injective same)
  obtain rfl : line = otherLine := UInt32.toNat_inj.mp lines
  obtain rfl : character = otherCharacter := UInt32.toNat_inj.mp characters
  rfl

instance : PartialOrder Position :=
  PartialOrder.lift counts counts_injective

/-- The order of positions is the one by which diagnostics are sorted. -/
theorem atMost_iff {left right : Position} : left.atMost right = true ↔ left ≤ right := by
  show _ ↔ left.counts ≤ right.counts
  rw [counts, counts, Prod.Lex.toLex_le_toLex, atMost, Bool.or_eq_true, Bool.and_eq_true,
    beq_iff_eq, decide_eq_true_eq, decide_eq_true_eq, UInt32.lt_iff_toNat_lt,
    UInt32.le_iff_toNat_le, UInt32.toNat_inj]

theorem lt_iff {left right : Position} :
    left < right ↔ left.line.toNat < right.line.toNat ∨
      left.line.toNat = right.line.toNat ∧ left.character.toNat < right.character.toNat :=
  Prod.Lex.toLex_lt_toLex

end Position

namespace Text

/-- The offsets between the characters of a text, and those of its two ends. -/
def boundaries (chars : List Char) : Set Nat :=
  {offset | ∃ before after, chars = before ++ after ∧ byteLength before = offset}

/-- From a place to a later one there stands at least one character. -/
theorem exists_eq_append_cons_of_byteLength_lt {left right after rest : List Char}
    (whole : left ++ after = right ++ rest) (later : byteLength left < byteLength right) :
    ∃ c middle, right = left ++ c :: middle := by
  rcases List.append_eq_append_iff.mp whole with ⟨middle, parts, -⟩ | ⟨middle, parts, -⟩
  · cases middle with
    | nil => simp [parts] at later
    | cons c middle => exact ⟨c, middle, parts⟩
  · rw [parts, byteLength_append] at later
    omega

end Text

namespace Snapshot

variable {text : String} {before after : List Char}

/-- A later place has a later position: either a line feed stands between the two, or more
characters on the same line stand before it. -/
theorem strictMonoOn_positionAt (path : SourcePath)
    (small : Text.byteLength text.toList < UInt32.size) :
    StrictMonoOn (capture path text).positionAt (Text.boundaries text.toList) := by
  rintro _ ⟨left, after, whole, rfl⟩ _ ⟨right, rest, same, rfl⟩ later
  obtain ⟨c, middle, rfl⟩ :=
    Text.exists_eq_append_cons_of_byteLength_lt (whole.symm.trans same) later
  obtain ⟨leftLine, leftCharacter⟩ := toNat_positionAt path small whole
  obtain ⟨rightLine, rightCharacter⟩ := toNat_positionAt path small same
  rw [Position.lt_iff, leftLine, leftCharacter, rightLine, rightCharacter, List.count_append]
  by_cases breaks : '\n' ∈ c :: middle
  · have feeds := List.count_pos_iff.mpr breaks
    exact .inl (by omega)
  · refine .inr ⟨by rw [List.count_eq_zero_of_not_mem breaks, Nat.add_zero], ?_⟩
    rw [Text.lastLine_append_of_notMem left breaks, List.length_append, List.length_cons]
    omega

/-- There is a place for every position on a line, the end of the line included. -/
theorem image_positionAt (path : SourcePath) (small : Text.byteLength text.toList < UInt32.size) :
    (capture path text).positionAt '' Text.boundaries text.toList =
      {position | position.line.toNat < (capture path text).lineCount ∧
        ∃ line, (Text.linesOf text.toList)[position.line.toNat]? = some line ∧
          position.character.toNat ≤ line.length} := by
  ext position
  constructor
  · rintro ⟨_, ⟨before, after, whole, rfl⟩, rfl⟩
    obtain ⟨onLine, line, there, inside, -⟩ := readsFrom_positionAt path small whole
    exact ⟨onLine, line, there, inside⟩
  · rintro ⟨-, line, there, inside⟩
    obtain ⟨above, below, cut, feeds, opens, unbroken⟩ :=
      Text.exists_cut_of_getElem?_linesOf there
    -- The place stands behind as many characters of the line as the position counts.
    have front : '\n' ∉ line.take position.character.toNat :=
      fun member => unbroken (List.mem_of_mem_take member)
    have whole : text.toList = (above ++ line.take position.character.toNat) ++
        (line.drop position.character.toNat ++ below) := by
      rw [cut, List.append_assoc, ← List.append_assoc (line.take _), List.take_append_drop]
    refine ⟨_, ⟨_, _, whole, rfl⟩, Position.counts_injective ?_⟩
    obtain ⟨lines, characters⟩ := toNat_positionAt path small whole
    rw [Position.counts, Position.counts, lines, characters, List.count_append, feeds,
      List.count_eq_zero_of_not_mem front, Nat.add_zero,
      Text.lastLine_append_of_notMem above front, opens, List.nil_append,
      List.length_take_of_le inside]

/-- Beyond the text stands its end. -/
theorem positionAt_of_length_le {snapshot : Snapshot} {offset : Nat}
    (beyond : snapshot.length ≤ offset) :
    snapshot.positionAt offset = snapshot.positionAt snapshot.length := by
  simp only [positionAt, Nat.min_eq_right beyond, Nat.min_self]

/-- Positions are the places of a text in their order: later places have later positions, the
counts are those of the line feeds before a place and of the characters on its line, every
position on a line is that of a place, and all offsets beyond the text stand for its end. -/
theorem positionAt_orderEmbedding (path : SourcePath) (text : String)
    (small : Text.byteLength text.toList < UInt32.size) :
    let snapshot := capture path text
    StrictMonoOn snapshot.positionAt (Text.boundaries text.toList) ∧
      (∀ before after, text.toList = before ++ after →
        let position := snapshot.positionAt (Text.byteLength before)
        position.line.toNat = before.count '\n' ∧
          position.character.toNat = (Text.lastLine before).length) ∧
      snapshot.positionAt '' Text.boundaries text.toList =
        {position | position.line.toNat < snapshot.lineCount ∧
          ∃ line, (Text.linesOf text.toList)[position.line.toNat]? = some line ∧
            position.character.toNat ≤ line.length} ∧
      ∀ offset, snapshot.length < offset →
        snapshot.positionAt offset = snapshot.positionAt snapshot.length :=
  ⟨strictMonoOn_positionAt path small, fun _ _ whole => toNat_positionAt path small whole,
    image_positionAt path small, fun _ beyond => positionAt_of_length_le (Nat.le_of_lt beyond)⟩

/-- A wide character, an empty line and a line feed at the end. -/
theorem positionAt_orderEmbedding_wide :
    Text.byteLength "é\n\nab\n".toList < UInt32.size ∧
      ((capture ⟨"/p/a.ts"⟩ "é\n\nab\n").positionAt 3 <
        (capture ⟨"/p/a.ts"⟩ "é\n\nab\n").positionAt 4) ∧
      (⟨3, 0⟩ : Position) ∈ (capture ⟨"/p/a.ts"⟩ "é\n\nab\n").positionAt ''
        Text.boundaries "é\n\nab\n".toList := by
  have small : Text.byteLength "é\n\nab\n".toList < UInt32.size := by decide
  obtain ⟨increasing, -, image, -⟩ :=
    positionAt_orderEmbedding ⟨"/p/a.ts"⟩ "é\n\nab\n" small
  refine ⟨small, increasing ?_ ?_ (by decide), ?_⟩
  · exact ⟨['é', '\n'], ['\n', 'a', 'b', '\n'], by decide, by decide⟩
  · exact ⟨['é', '\n', '\n'], ['a', 'b', '\n'], by decide, by decide⟩
  · rw [image]
    exact ⟨by decide, [], by decide, by decide⟩

/-- Offsets with the same line starts and the same characters before them have one position. -/
theorem positionAt_congr {snapshot : Snapshot} {left right : Nat}
    (leftInside : left ≤ snapshot.length) (rightInside : right ≤ snapshot.length)
    (starts : ∀ start ∈ snapshot.lineStarts, start ≤ left ↔ start ≤ right)
    (places : ∀ entry ∈ Text.withOffsets 0 snapshot.text.toList,
      entry.1 < left ↔ entry.1 < right) :
    snapshot.positionAt left = snapshot.positionAt right := by
  have lines : (snapshot.lineStarts.filter fun start => start ≤ left) =
      snapshot.lineStarts.filter fun start => start ≤ right :=
    List.filter_congr fun start member => decide_eq_decide.mpr (starts start member)
  simp only [positionAt, Nat.min_eq_left leftInside, Nat.min_eq_left rightInside, lines]
  congr 1
  refine List.countP_congr fun entry member => ?_
  rw [Bool.and_eq_true, Bool.and_eq_true, decide_eq_true_eq, decide_eq_true_eq, decide_eq_true_eq,
    places entry member]

/-- Between two bytes of a character no line begins and no other character does, so an offset
there has the position behind the character. -/
theorem positionAt_of_inside (path : SourcePath) {c : Char} {offset : Nat}
    (whole : text.toList = before ++ c :: after) (inside : Text.byteLength before < offset)
    (ends : offset < Text.byteLength before + c.utf8Size) :
    (capture path text).positionAt offset =
      (capture path text).positionAt (Text.byteLength before + c.utf8Size) := by
  have wide : c ≠ '\n' := by
    rintro rfl
    have size : '\n'.utf8Size = 1 := rfl
    omega
  have total : (capture path text).length =
      Text.byteLength before + (c.utf8Size + Text.byteLength after) := by
    show Text.byteLength text.toList = _
    rw [whole, Text.byteLength_append, Text.byteLength_cons]
  refine positionAt_congr (by omega) (by omega) (fun start member => ?_) (fun entry member => ?_)
  · rw [lineStarts_capture, whole, breaksFrom_append, breaksFrom_cons, if_neg wide] at member
    rcases List.mem_cons.mp member with rfl | member
    · omega
    · rcases List.mem_append.mp member with early | late
      · have bounds := bounds_of_mem_breaksFrom early
        omega
      · have bounds := bounds_of_mem_breaksFrom late
        omega
  · have cut : (capture path text).text.toList = before ++ c :: after := whole
    rw [cut, Text.withOffsets_append] at member
    rcases List.mem_append.mp member with early | late
    · have bound := Text.lt_of_mem_withOffsets early
      omega
    · rcases List.mem_cons.mp late with rfl | late
      · show 0 + Text.byteLength before < offset ↔ 0 + Text.byteLength before < _
        omega
      · have bounds := (Text.bounds_of_mem_withOffsets late).1
        omega

/-- Of the offsets of a character only the first has the position of the character. Each other one
has the position behind it. -/
theorem positionAt_eq_iff (path : SourcePath) {c : Char} {offset : Nat}
    (small : Text.byteLength text.toList < UInt32.size)
    (whole : text.toList = before ++ c :: after) (starts : Text.byteLength before ≤ offset)
    (ends : offset < Text.byteLength before + c.utf8Size) :
    let snapshot := capture path text
    (snapshot.positionAt offset = snapshot.positionAt (Text.byteLength before) ↔
      offset = Text.byteLength before) ∧
      (offset ≠ Text.byteLength before → snapshot.positionAt offset =
        snapshot.positionAt (Text.byteLength before + c.utf8Size)) := by
  intro snapshot
  have behind : offset ≠ Text.byteLength before → snapshot.positionAt offset =
      snapshot.positionAt (Text.byteLength before + c.utf8Size) := fun inner =>
    positionAt_of_inside path whole (by omega) ends
  refine ⟨⟨fun same => ?_, fun first => by rw [first]⟩, behind⟩
  by_contra inner
  have here : Text.byteLength before ∈ Text.boundaries text.toList :=
    ⟨before, c :: after, whole, rfl⟩
  have next : Text.byteLength before + c.utf8Size ∈ Text.boundaries text.toList :=
    ⟨before ++ [c], after, by rw [whole, List.append_assoc]; rfl, Text.byteLength_append _ _⟩
  have grows := strictMonoOn_positionAt path small here next (by omega)
  rw [behind inner] at same
  exact absurd same (ne_of_gt grows)

/-- The second byte of an accented letter has the position behind the letter. -/
theorem positionAt_eq_iff_accented :
    Text.byteLength "é".toList < UInt32.size ∧ "é".toList = [] ++ 'é' :: [] ∧
      Text.byteLength [] ≤ 1 ∧ 1 < Text.byteLength [] + 'é'.utf8Size ∧
      (capture ⟨"/p/a.ts"⟩ "é").positionAt 1 = (capture ⟨"/p/a.ts"⟩ "é").positionAt 2 := by
  have small : Text.byteLength "é".toList < UInt32.size := by decide
  have whole : "é".toList = [] ++ 'é' :: [] := by decide
  have starts : Text.byteLength [] ≤ 1 := by decide
  have ends : 1 < Text.byteLength [] + 'é'.utf8Size := by decide
  exact ⟨small, whole, starts, ends,
    (positionAt_eq_iff ⟨"/p/a.ts"⟩ small whole starts ends).2 (by decide)⟩

/-- An offset inside a character does not resolve to that character. -/
theorem positionAt_inside_ne_accented :
    (1 < 'é'.utf8Size) ∧
      (capture ⟨"/p/a.ts"⟩ "é").positionAt 0 = ⟨0, 0⟩ ∧
      (capture ⟨"/p/a.ts"⟩ "é").positionAt 1 = ⟨0, 1⟩ ∧
      ¬ ∀ (text : String) (before after : List Char) (c : Char) (offset : Nat),
        text.toList = before ++ c :: after → Text.byteLength text.toList < UInt32.size →
          Text.byteLength before ≤ offset → offset < Text.byteLength before + c.utf8Size →
            (capture ⟨"/p/a.ts"⟩ text).positionAt offset =
              (capture ⟨"/p/a.ts"⟩ text).positionAt (Text.byteLength before) := by
  refine ⟨by decide, by decide, by decide, fun resolves => ?_⟩
  have same := resolves "é" [] [] 'é' 1 (by decide) (by decide) (by decide) (by decide)
  exact absurd same (by decide)

end Snapshot

end ScriptAnalysis
