import ScriptAnalysis.Proofs.Text.Offsets

/-!
# The bytes of a text

In UTF-8 an ASCII character is a byte of its own, and any other character takes bytes beyond ASCII
only (`encoded`). So a class of characters that does not tell characters beyond ASCII apart can be
read off single bytes (`Alike`), and a text can be scanned byte by byte.
-/

namespace ScriptAnalysis.Text

/-- The UTF-8 form of a text. -/
def bytes (chars : List Char) : List UInt8 :=
  chars.flatMap String.utf8EncodeChar

theorem bytes_cons (c : Char) (rest : List Char) :
    bytes (c :: rest) = String.utf8EncodeChar c ++ bytes rest := rfl

theorem bytes_append (left right : List Char) :
    bytes (left ++ right) = bytes left ++ bytes right :=
  List.flatMap_append

theorem length_bytes (chars : List Char) : (bytes chars).length = byteLength chars := by
  induction chars with
  | nil => rfl
  | cons c rest inductionHypothesis =>
      rw [bytes_cons, List.length_append, String.length_utf8EncodeChar, inductionHypothesis,
        byteLength_cons]

theorem toList_toUTF8 (text : String) : text.toUTF8.data.toList = bytes text.toList := by
  have encoded : text.toUTF8 = (bytes text.toList).toByteArray := String.utf8Encode_toList.symm
  rw [encoded, List.data_toByteArray, List.toList_toArray]

theorem size_toUTF8 (text : String) : text.toUTF8.size = byteLength text.toList := by
  rw [← length_bytes, ← toList_toUTF8, Array.length_toList, ByteArray.size_data]

/-- The byte of an ASCII character. -/
def byteOf (c : Char) : UInt8 :=
  UInt8.ofNat c.toNat

/-- The bytes of a character: itself, if it is in ASCII, or bytes beyond ASCII. -/
inductive Encoded (c : Char) : List UInt8 → Prop where
  | ascii (narrow : c.toNat < 128) : Encoded c [byteOf c]
  | wide (beyond : 128 ≤ c.toNat) (first : UInt8) (others : List UInt8)
      (high : ∀ b ∈ first :: others, 128 ≤ b.toNat) : Encoded c (first :: others)

theorem encoded (c : Char) : Encoded c (String.utf8EncodeChar c) := by
  have high : ∀ value base : Nat, 128 ≤ base → base + value < 256 →
      128 ≤ (UInt8.ofNat (value + base)).toNat := by
    intro value base low fits
    rw [UInt8.toNat_ofNat_of_lt' (by show value + base < 256; omega)]
    omega
  have toNat : c.val.toNat = c.toNat := rfl
  unfold String.utf8EncodeChar
  simp only [toNat]
  split
  · exact .ascii (by omega)
  · have beyond : 128 ≤ c.toNat := by omega
    split
    · refine .wide beyond _ _ fun b member => ?_
      simp only [List.mem_cons, List.not_mem_nil, or_false] at member
      rcases member with rfl | rfl <;> exact high _ _ (by omega) (by omega)
    · split
      · refine .wide beyond _ _ fun b member => ?_
        simp only [List.mem_cons, List.not_mem_nil, or_false] at member
        rcases member with rfl | rfl | rfl <;> exact high _ _ (by omega) (by omega)
      · refine .wide beyond _ _ fun b member => ?_
        simp only [List.mem_cons, List.not_mem_nil, or_false] at member
        rcases member with rfl | rfl | rfl | rfl <;> exact high _ _ (by omega) (by omega)

/-- A class of characters and a class of bytes: all bytes of a character are in the second exactly
if the character is in the first, and else none is. -/
def Alike (inside : Char → Bool) (insideByte : UInt8 → Bool) : Prop :=
  ∀ c, ∀ b ∈ String.utf8EncodeChar c, insideByte b = inside c

/-- Classes are alike if they agree on ASCII and do not tell anything beyond it apart. -/
theorem alike_of_ascii {inside : Char → Bool} {insideByte : UInt8 → Bool} (beyond : Bool)
    (narrow : ∀ code < 128, insideByte (UInt8.ofNat code) = inside (Char.ofNat code))
    (wide : ∀ c : Char, 128 ≤ c.toNat → inside c = beyond)
    (high : ∀ code < 256, 128 ≤ code → insideByte (UInt8.ofNat code) = beyond) :
    Alike inside insideByte := by
  intro c b member
  have shape := encoded c
  generalize String.utf8EncodeChar c = all at shape member
  cases shape with
  | ascii ascii =>
      rw [List.mem_singleton.mp member, byteOf, narrow c.toNat ascii, Char.ofNat_toNat]
  | wide large first others bytes =>
      have same := high b.toNat (UInt8.toNat_lt b) (bytes b member)
      rw [UInt8.ofNat_toNat] at same
      rw [same, wide c large]

theorem utf8EncodeChar_of_ascii {c : Char} (ascii : c.toNat < 128) :
    String.utf8EncodeChar c = [byteOf c] := by
  have shape := encoded c
  generalize String.utf8EncodeChar c = all at shape
  cases shape with
  | ascii narrow => rfl
  | wide beyond first others high => omega

theorem toNat_byteOf {c : Char} (ascii : c.toNat < 128) : (byteOf c).toNat = c.toNat :=
  UInt8.toNat_ofNat_of_lt' (Nat.lt_trans ascii (by decide))

/-- An ASCII character is known by its byte. -/
theorem alike_byteOf {a : Char} (ascii : a.toNat < 128) : Alike (· == a) (· == byteOf a) := by
  intro c b member
  have shape := encoded c
  generalize String.utf8EncodeChar c = all at shape member
  rw [Bool.eq_iff_iff, beq_iff_eq, beq_iff_eq]
  cases shape with
  | ascii narrow =>
      rw [List.mem_singleton.mp member, ← UInt8.toNat_inj, ← Char.toNat_inj, toNat_byteOf narrow,
        toNat_byteOf ascii]
  | wide large first others high =>
      have beyond := high b member
      refine iff_of_false ?_ ?_
      · rintro rfl
        rw [toNat_byteOf ascii] at beyond
        omega
      · rintro rfl
        omega

section Classes

variable {inside : Char → Bool} {insideByte : UInt8 → Bool} {chars : List Char} {b : UInt8}

theorem exists_mem_of_mem_bytes (member : b ∈ bytes chars) :
    ∃ c ∈ chars, b ∈ String.utf8EncodeChar c :=
  List.mem_flatMap.mp member

/-- The first byte is one of the first character. -/
theorem exists_head_of_head_bytes (first : b ∈ (bytes chars).head?) :
    ∃ c ∈ chars.head?, b ∈ String.utf8EncodeChar c := by
  cases chars with
  | nil => cases first
  | cons c rest =>
      refine ⟨c, rfl, ?_⟩
      have shape := encoded c
      rw [bytes_cons] at first
      generalize String.utf8EncodeChar c = all at shape first ⊢
      cases shape with
      | ascii narrow =>
          cases first
          exact List.mem_singleton_self _
      | wide large head others high =>
          cases first
          exact List.mem_cons_self

/-- All bytes of a run of a class are in the class of bytes. -/
theorem Alike.all (alike : Alike inside insideByte) (run : ∀ c ∈ chars, inside c = true) :
    ∀ b ∈ bytes chars, insideByte b = true := by
  intro b member
  obtain ⟨c, there, encodes⟩ := exists_mem_of_mem_bytes member
  rw [alike c b encodes, run c there]

/-- A run that ends before a character ends before its first byte. -/
theorem Alike.head (alike : Alike inside insideByte) (ends : ∀ c ∈ chars.head?, inside c = false) :
    ∀ b ∈ (bytes chars).head?, insideByte b = false := by
  intro b first
  obtain ⟨c, there, encodes⟩ := exists_head_of_head_bytes first
  rw [alike c b encodes, ends c there]

/-- The byte of an ASCII character stands only where the character does. -/
theorem eq_of_byteOf_mem {a c : Char} (ascii : a.toNat < 128)
    (member : byteOf a ∈ String.utf8EncodeChar c) : c = a := by
  have same : (byteOf a == byteOf a) = (c == a) := alike_byteOf ascii c _ member
  rw [beq_self_eq_true] at same
  exact beq_iff_eq.mp same.symm

theorem byteOf_notMem {a : Char} (ascii : a.toNat < 128) (absent : a ∉ chars) :
    byteOf a ∉ bytes chars := by
  intro member
  obtain ⟨c, there, encodes⟩ := exists_mem_of_mem_bytes member
  exact absent (eq_of_byteOf_mem ascii encodes ▸ there)

theorem head_bytes_ne {a : Char} (ascii : a.toNat < 128) (other : chars.head? ≠ some a) :
    (bytes chars).head? ≠ some (byteOf a) := by
  intro first
  obtain ⟨c, there, encodes⟩ := exists_head_of_head_bytes (Option.mem_def.mpr first)
  rw [eq_of_byteOf_mem ascii encodes] at there
  exact other there

end Classes

end ScriptAnalysis.Text
