import Mathlib.Data.List.Basic
import ScriptAnalysis.Proofs.Wire
import ScriptAnalysis.ScriptKind

/-!
# Texts that are read as content hashes

A hash has one written form, 32 lowercase digits, but more than one text is read as it: digits of
either case, and a plus sign in place of the first digit of any pair, which stands for a zero there.
Every text that is read spells its hash in this way (`parse_outcome`), so the texts without a plus
sign that are read are exactly those of 32 digits.
-/

namespace ScriptAnalysis

namespace Text

/-- A hexadecimal digit of either case. -/
def IsHexDigit (c : Char) : Prop :=
  (hexValue? c).isSome = true

instance (c : Char) : Decidable (IsHexDigit c) :=
  inferInstanceAs (Decidable ((hexValue? c).isSome = true))

/-- A digit is written back in lowercase. -/
theorem digitChar_of_hexValue? {c : Char} {value : Nat} (read : hexValue? c = some value) :
    value < 16 ∧ value.digitChar = c.toLower := by
  have table : ∀ code < 128, ∀ value ∈ hexValue? (Char.ofNat code),
      value < 16 ∧ value.digitChar = (Char.ofNat code).toLower := by decide
  have ascii : c.toNat < 128 := by
    have below : ∀ {last : Char}, last.toNat < 128 → c ≤ last → c.toNat < 128 :=
      fun small le => Nat.lt_of_le_of_lt (UInt32.le_iff_toNat_le.mp le) small
    unfold hexValue? at read
    split at read
    · next decimal => exact below (by decide) decimal.2
    · split at read
      · next small => exact below (by decide) small.2
      · split at read
        · next capital => exact below (by decide) capital.2
        · cases read
  have same := table c.toNat ascii
  rw [Char.ofNat_toNat] at same
  exact same value read

end Text

namespace ContentHash

open Text (IsHexDigit hexValue? digitChar_of_hexValue?)

/-- The digit that a character of a spelling stands for: a plus sign is a zero. -/
def spelledDigit (c : Char) : Char :=
  if c = '+' then '0' else c.toLower

/-- The characters come in pairs that each stand for a byte: two digits, the first of which may be
a plus sign instead. -/
inductive Paired : List Char → Prop where
  | nil : Paired []
  | cons {first second : Char} {rest : List Char} (leads : IsHexDigit first ∨ first = '+')
      (follows : IsHexDigit second) (paired : Paired rest) : Paired (first :: second :: rest)

theorem not_isHexDigit_plus : ¬ IsHexDigit '+' := by decide

theorem byteDigits_ofNat {high low : Nat} (highSmall : high < 16) (lowSmall : low < 16) :
    byteDigits (UInt8.ofNat (16 * high + low)) = [high.digitChar, low.digitChar] := by
  have value : (UInt8.ofNat (16 * high + low)).toNat = 16 * high + low :=
    UInt8.toNat_ofNat_of_lt' (by simp only [UInt8.size]; omega)
  have first : (16 * high + low) / 16 = high := by omega
  have second : (16 * high + low) % 16 = low := by omega
  rw [byteDigits, value, first, second]

/-- The byte that a pair stands for has the digits that the pair spells. -/
theorem pairByte_eq_some {first second : Char} {byte : UInt8}
    (read : pairByte first second = some byte) :
    (IsHexDigit first ∨ first = '+') ∧ IsHexDigit second ∧
      byteDigits byte = [spelledDigit first, spelledDigit second] := by
  have digit : ∀ {c : Char} {value : Nat}, hexValue? c = some value →
      IsHexDigit c ∧ value < 16 ∧ value.digitChar = spelledDigit c := by
    intro c value found
    have isDigit : IsHexDigit c := Option.isSome_of_eq_some found
    have unsigned : c ≠ '+' := fun plus => not_isHexDigit_plus (plus ▸ isDigit)
    rw [spelledDigit, if_neg unsigned]
    exact ⟨isDigit, digitChar_of_hexValue? found⟩
  unfold pairByte at read
  split at read
  · next plus =>
      obtain ⟨low, found, rfl⟩ := Option.map_eq_some_iff.mp read
      obtain ⟨isDigit, small, written⟩ := digit found
      have digits := byteDigits_ofNat (by decide : 0 < 16) small
      rw [Nat.mul_zero, Nat.zero_add, written] at digits
      rw [digits, plus]
      exact ⟨.inr rfl, isDigit, rfl⟩
  · split at read
    · next high low foundHigh foundLow =>
        cases read
        obtain ⟨isHigh, highSmall, highWritten⟩ := digit foundHigh
        obtain ⟨isLow, lowSmall, lowWritten⟩ := digit foundLow
        rw [byteDigits_ofNat highSmall lowSmall, highWritten, lowWritten]
        exact ⟨.inl isHigh, isLow, rfl⟩
    · cases read

theorem exists_pairByte {first second : Char} (leads : IsHexDigit first ∨ first = '+')
    (follows : IsHexDigit second) : ∃ byte, pairByte first second = some byte := by
  obtain ⟨low, foundLow⟩ := Option.isSome_iff_exists.mp follows
  rcases leads with isDigit | rfl
  · obtain ⟨high, foundHigh⟩ := Option.isSome_iff_exists.mp isDigit
    have unsigned : first ≠ '+' := fun plus => not_isHexDigit_plus (plus ▸ isDigit)
    exact ⟨_, by rw [pairByte, if_neg unsigned, foundHigh, foundLow]⟩
  · exact ⟨_, by rw [pairByte, if_pos rfl, foundLow, Option.map_some]⟩

/-- Bytes that are read have the digits that the characters spell. -/
theorem pairBytes_eq_some {chars : List Char} {bytes : List UInt8}
    (read : pairBytes chars = some bytes) :
    Paired chars ∧ bytes.flatMap byteDigits = chars.map spelledDigit := by
  fun_induction pairBytes chars generalizing bytes with
  | case1 =>
      cases read
      exact ⟨.nil, rfl⟩
  | case2 => cases read
  | case3 first second rest byte others found foundByte inductionHypothesis =>
      cases read
      obtain ⟨leads, follows, digits⟩ := pairByte_eq_some foundByte
      obtain ⟨paired, spelled⟩ := inductionHypothesis found
      refine ⟨.cons leads follows paired, ?_⟩
      rw [List.flatMap_cons, digits, spelled]
      rfl
  | case4 => cases read

theorem Paired.exists_pairBytes {chars : List Char} (paired : Paired chars) :
    ∃ bytes, pairBytes chars = some bytes := by
  induction paired with
  | nil => exact ⟨[], rfl⟩
  | cons leads follows paired inductionHypothesis =>
      obtain ⟨byte, foundByte⟩ := exists_pairByte leads follows
      obtain ⟨bytes, found⟩ := inductionHypothesis
      exact ⟨byte :: bytes, by rw [pairBytes, foundByte, found]⟩

/-- Digits alone are paired if their number is even. -/
theorem paired_of_digits : {chars : List Char} → chars.length % 2 = 0 →
    (∀ c ∈ chars, IsHexDigit c) → Paired chars
  | [], _, _ => .nil
  | [_], even, _ => absurd even Nat.one_ne_zero
  | first :: second :: _, even, digits =>
      .cons (.inl (digits first List.mem_cons_self))
        (digits second (List.mem_cons_of_mem _ List.mem_cons_self))
        (paired_of_digits (Nat.add_mod_right .. ▸ even) fun c member =>
          digits c (List.mem_cons_of_mem _ (List.mem_cons_of_mem _ member)))

/-- Every character of a pair is a digit or a plus sign. -/
theorem Paired.isHexDigit {chars : List Char} (paired : Paired chars) (unsigned : '+' ∉ chars) :
    ∀ c ∈ chars, IsHexDigit c := by
  induction paired with
  | nil => exact nofun
  | @cons first second rest leads follows paired inductionHypothesis =>
      obtain ⟨notFirst, -, notRest⟩ : '+' ≠ first ∧ '+' ≠ second ∧ '+' ∉ rest := by
        simpa using unsigned
      intro c member
      rcases List.mem_cons.mp member with rfl | later
      · exact leads.resolve_right (Ne.symm notFirst)
      · rcases List.mem_cons.mp later with rfl | last
        · exact follows
        · exact inductionHypothesis notRest c last

theorem map_spelledDigit_of_unsigned {chars : List Char} (unsigned : '+' ∉ chars) :
    chars.map spelledDigit = chars.map Char.toLower :=
  List.map_congr_left fun _ member => if_neg (ne_of_mem_of_not_mem member unsigned)

theorem length_flatMap_byteDigits (bytes : List UInt8) :
    (bytes.flatMap byteDigits).length = bytes.length * 2 := by
  simp [List.length_flatMap, byteDigits]

/-- A text spells a hash if it consists of sixteen pairs. -/
def Spells (text : String) : Prop :=
  text.length = 32 ∧ Paired text.toList

/-- What is read has the digits that the text spells. -/
theorem parse_eq_ok {text : String} {hash : ContentHash} (read : parse text = .ok hash) :
    Spells text ∧ hash.hex = String.ofList (text.toList.map spelledDigit) := by
  unfold parse at read
  split at read
  · cases read
  · next bytes found =>
      split at read
      · next full =>
          cases read
          obtain ⟨paired, digits⟩ := pairBytes_eq_some found
          refine ⟨⟨?_, paired⟩, congrArg String.ofList digits⟩
          rw [← String.length_toList, ← List.length_map spelledDigit, ← digits,
            length_flatMap_byteDigits, ← List.size_toArray, full]
      · cases read

theorem Spells.exists_parse {text : String} (spells : Spells text) :
    ∃ hash, parse text = .ok hash := by
  obtain ⟨length, paired⟩ := spells
  obtain ⟨bytes, found⟩ := paired.exists_pairBytes
  have full : bytes.toArray.size = 16 := by
    have twice := length_flatMap_byteDigits bytes
    rw [(pairBytes_eq_some found).2, List.length_map, String.length_toList, length] at twice
    rw [List.size_toArray]
    omega
  exact ⟨⟨⟨bytes.toArray, full⟩⟩, by rw [parse, found]; exact dif_pos full⟩

theorem parse_eq_error {text : String} {error : ContentHashError}
    (read : parse text = .error error) : error = ⟨text⟩ := by
  unfold parse at read
  split at read
  · exact (Except.error.inj read).symm
  · split at read
    · cases read
    · exact (Except.error.inj read).symm

theorem decode_string (text : String) :
    decode (.string text) = (parse text).mapError fun error => .refused error.message := rfl

/-- A text is read as a hash exactly if it consists of sixteen pairs, each of two digits or of a
plus sign and a digit, and every other text is refused with an error that quotes it; a text inside
of JSON is read alike. The hash has the digits that the text spells, so it is written as the text in
lowercase exactly if the text consists of 32 digits. -/
theorem parse_outcome (text : String) :
    ((∃ hash, parse text = .ok hash ∧ hash.hex = lowered text) ↔
      text.length = 32 ∧ ∀ c ∈ text.toList, IsHexDigit c) ∧
    match parse text with
    | .ok hash =>
        Spells text ∧ hash.hex = String.ofList (text.toList.map spelledDigit) ∧
          decode (.string text) = .ok hash
    | .error error =>
        ¬ Spells text ∧ error.message = "invalid content hash '" ++ text ++ "'" ∧
          decode (.string text) = .error (.refused error.message) := by
  constructor
  · constructor
    · rintro ⟨hash, read, lowercase⟩
      obtain ⟨⟨length, paired⟩, digits⟩ := parse_eq_ok read
      have same : text.toList.map spelledDigit = text.toList.map Char.toLower :=
        String.ofList_injective (digits.symm.trans lowercase)
      have unsigned : '+' ∉ text.toList := fun member => by
        have zero := List.map_inj_left.mp same '+' member
        revert zero
        decide
      exact ⟨length, paired.isHexDigit unsigned⟩
    · rintro ⟨length, digits⟩
      have paired := paired_of_digits (by rw [String.length_toList, length]) digits
      obtain ⟨hash, read⟩ := Spells.exists_parse ⟨length, paired⟩
      have unsigned : '+' ∉ text.toList := fun member => not_isHexDigit_plus (digits _ member)
      refine ⟨hash, read, (parse_eq_ok read).2.trans ?_⟩
      rw [map_spelledDigit_of_unsigned unsigned, lowered]
  · cases read : parse text with
    | ok hash =>
        obtain ⟨spells, digits⟩ := parse_eq_ok read
        exact ⟨spells, digits, by rw [decode_string, read]; rfl⟩
    | error error =>
        have quoted : error = ⟨text⟩ := parse_eq_error read
        refine ⟨fun spells => ?_, by rw [quoted]; rfl, by rw [decode_string, read]; rfl⟩
        obtain ⟨hash, found⟩ := spells.exists_parse
        rw [read] at found
        cases found

/-- A hash whose first digits are zeros can be written with plus signs. -/
theorem parse_accepts_plus_signs :
    let text := "+f+f+f+f+f+f+f+f+f+f+f+f+f+f+f+f"
    ¬ (∀ c ∈ text.toList, IsHexDigit c) ∧
      ∃ hash, parse text = .ok hash ∧ hash.hex = "0f0f0f0f0f0f0f0f0f0f0f0f0f0f0f0f" := by
  intro text
  have signed : '+' ∈ text.toList := by decide +kernel
  exact ⟨fun digits => not_isHexDigit_plus (digits '+' signed),
    ⟨Vector.replicate 16 15⟩, by decide +kernel, by decide +kernel⟩

end ContentHash

end ScriptAnalysis
