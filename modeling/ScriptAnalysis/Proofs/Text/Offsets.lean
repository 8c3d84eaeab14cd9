import Mathlib.Data.List.DropRight
import ScriptAnalysis.Text.Blank
import ScriptAnalysis.Text.Offsets

/-!
# Laws of byte offsets

A place in a text is a way to cut it in two, and its offset is the number of bytes before the
cut. So every law here is about a text written as `before ++ after`: the offsets of the two
parts lie on their own sides of the cut, and `slice` finds a part that stands between two.
-/

namespace ScriptAnalysis.Text

theorem withOffsets_append (start : Nat) (left right : List Char) :
    withOffsets start (left ++ right) =
      withOffsets start left ++ withOffsets (start + byteLength left) right := by
  induction left generalizing start with
  | nil => simp [withOffsets]
  | cons c rest inductionHypothesis =>
      simp [withOffsets, inductionHypothesis, Nat.add_assoc]

/-- A character lies with all its bytes between the ends of the text. -/
theorem bounds_of_mem_withOffsets {start place : Nat} {c : Char} {chars : List Char}
    (member : (place, c) ∈ withOffsets start chars) :
    start ≤ place ∧ place + c.utf8Size ≤ start + byteLength chars := by
  induction chars generalizing start with
  | nil => cases member
  | cons first rest inductionHypothesis =>
      rw [byteLength_cons]
      rcases List.mem_cons.mp member with same | later
      · cases same
        omega
      · have inside := inductionHypothesis later
        omega

/-- Every character has its place before the end of the text. -/
theorem lt_of_mem_withOffsets {start place : Nat} {c : Char} {chars : List Char}
    (member : (place, c) ∈ withOffsets start chars) : place < start + byteLength chars := by
  have inside := bounds_of_mem_withOffsets member
  have size := c.utf8Size_pos
  omega

theorem length_withOffsets (start : Nat) (chars : List Char) :
    (withOffsets start chars).length = chars.length := by
  induction chars generalizing start with
  | nil => rfl
  | cons c rest inductionHypothesis => simp [withOffsets, inductionHypothesis]

/-- A character takes at least one byte. -/
theorem length_le_byteLength (chars : List Char) : chars.length ≤ byteLength chars := by
  induction chars with
  | nil => rfl
  | cons c rest inductionHypothesis =>
      have size := c.utf8Size_pos
      rw [List.length_cons, byteLength_cons]
      omega

/-- The bytes of a first character are there to be taken, and leave those of the others. -/
theorem exists_byteLength_cons (c : Char) (rest : List Char) :
    ∃ count, byteLength (c :: rest) = count + 1 ∧ c.utf8Size ≤ count + 1 ∧
      count + 1 - c.utf8Size = byteLength rest := by
  have size := c.utf8Size_pos
  refine ⟨byteLength (c :: rest) - 1, ?_⟩
  rw [byteLength_cons]
  omega

/-- Dropping the bytes of the first part leaves the second. -/
theorem dropBytes_append (before after : List Char) :
    dropBytes (byteLength before) (before ++ after) = some after := by
  induction before with
  | nil => cases after <;> rfl
  | cons c rest inductionHypothesis =>
      obtain ⟨count, whole, fits, remains⟩ := exists_byteLength_cons c rest
      rw [whole, List.cons_append, dropBytes, if_pos fits, remains, inductionHypothesis]

/-- Taking the bytes of the first part gives the first part. -/
theorem takeBytes_append (before after : List Char) :
    takeBytes (byteLength before) (before ++ after) = some before := by
  induction before with
  | nil => cases after <;> rfl
  | cons c rest inductionHypothesis =>
      obtain ⟨count, whole, fits, remains⟩ := exists_byteLength_cons c rest
      rw [whole, List.cons_append, takeBytes, if_pos fits, remains, inductionHypothesis]
      rfl

/-- What stands between two places is found by their offsets. -/
theorem slice_append (before middle after : List Char) :
    slice (byteLength before) (byteLength before + byteLength middle)
      (before ++ (middle ++ after)) = some middle := by
  rw [slice, if_pos (Nat.le_add_right _ _), dropBytes_append, Option.bind_some,
    Nat.add_sub_cancel_left, takeBytes_append]

/-- What is left without some bytes follows characters of as many bytes. -/
theorem dropBytes_eq_some_iff {count : Nat} {chars after : List Char} :
    dropBytes count chars = some after ↔
      ∃ before, chars = before ++ after ∧ byteLength before = count := by
  constructor
  · intro dropped
    fun_induction dropBytes count chars with
    | case1 chars =>
        cases dropped
        exact ⟨[], rfl, rfl⟩
    | case2 => cases dropped
    | case3 count c rest fits inductionHypothesis =>
        obtain ⟨before, rfl, length⟩ := inductionHypothesis dropped
        refine ⟨c :: before, rfl, ?_⟩
        rw [byteLength_cons, length, Nat.add_sub_cancel' fits]
    | case4 => cases dropped
  · rintro ⟨before, rfl, rfl⟩
    exact dropBytes_append before after

/-- What is taken of some bytes are characters of as many bytes. -/
theorem takeBytes_eq_some_iff {count : Nat} {chars before : List Char} :
    takeBytes count chars = some before ↔
      ∃ after, chars = before ++ after ∧ byteLength before = count := by
  constructor
  · intro taken
    fun_induction takeBytes count chars generalizing before with
    | case1 chars =>
        cases taken
        exact ⟨chars, rfl, rfl⟩
    | case2 => cases taken
    | case3 count c rest fits inductionHypothesis =>
        obtain ⟨others, found, rfl⟩ := Option.map_eq_some_iff.mp taken
        obtain ⟨after, rfl, length⟩ := inductionHypothesis found
        refine ⟨after, rfl, ?_⟩
        rw [byteLength_cons, length, Nat.add_sub_cancel' fits]
    | case4 => cases taken
  · rintro ⟨after, rfl, rfl⟩
    exact takeBytes_append before after

/-- What is cut out stands between two places. -/
theorem slice_eq_some_iff {start stop : Nat} {chars middle : List Char} :
    slice start stop chars = some middle ↔
      ∃ before after, chars = before ++ (middle ++ after) ∧ byteLength before = start ∧
        byteLength before + byteLength middle = stop := by
  constructor
  · intro sliced
    rw [slice] at sliced
    split at sliced
    · next ordered =>
        obtain ⟨rest, dropped, taken⟩ := Option.bind_eq_some_iff.mp sliced
        obtain ⟨before, rfl, rfl⟩ := dropBytes_eq_some_iff.mp dropped
        obtain ⟨after, rfl, length⟩ := takeBytes_eq_some_iff.mp taken
        exact ⟨before, after, rfl, rfl, by rw [length, Nat.add_sub_cancel' ordered]⟩
    · cases sliced
  · rintro ⟨before, after, rfl, rfl, rfl⟩
    exact slice_append before middle after

variable {drop : Char → Bool} {chars : List Char}

/-- A last character of the class makes no difference. -/
theorem trimEnd_concat {c : Char} (dropped : drop c = true) (chars : List Char) :
    trimEnd drop (chars ++ [c]) = trimEnd drop chars :=
  List.rdropWhile_concat_pos drop chars c dropped

/-- What is trimmed away is the rest of the text and lies in the class. -/
theorem exists_eq_trimEnd_append (drop : Char → Bool) (chars : List Char) :
    ∃ dropped, chars = trimEnd drop chars ++ dropped ∧ ∀ c ∈ dropped, drop c = true :=
  ⟨chars.rtakeWhile drop, List.rdropWhile_append_rtakeWhile.symm, fun _ =>
    List.mem_rtakeWhile_imp⟩

/-- No character of the class is left at the end. -/
theorem drop_getLast?_trimEnd {c : Char} (last : c ∈ (trimEnd drop chars).getLast?) :
    drop c = false := by
  have some : trimEnd drop chars ≠ [] := by
    rintro nothing
    rw [nothing] at last
    cases last
  rw [List.getLast?_eq_some_getLast some, Option.mem_some_iff] at last
  rw [← last]
  exact Bool.eq_false_iff.mpr (List.rdropWhile_last_not drop chars some)

end ScriptAnalysis.Text
