import Mathlib.Data.List.Infix
import Mathlib.Data.List.TakeWhile
import ScriptAnalysis.Json.Written
import ScriptAnalysis.Proofs.Json.OneLine

/-!
# Numbers read back

A number is `Legible` if its text reads back as the number. Every integer of 64 bits is
(`Json.Number.legible_integer`). The readers of a number are `Steady`: what they take off the
front of a text does not depend on where the text stands, nor on what follows it, as long as
that is `Apart`. So a legible number is found inside a larger text as well
(`Json.Number.Legible.takes`).
-/

namespace ScriptAnalysis.Json

open ScriptAnalysis.Text (Cursor Scan)

variable {α : Type}

/-- Wherever the characters stand, the reader makes the same of them and leaves the same. -/
def Takes (scan : Scan α) (chars : List Char) (found : α) (left : List Char) : Prop :=
  ∀ offset, ∃ stop, scan ⟨chars, offset⟩ = some (found, ⟨left, stop⟩)

/-- Whether a number may go on with the character. -/
def goesOn (c : Char) : Bool :=
  c.isDigit || c == '.' || c == 'e' || c == 'E' || c == '+' || c == '-'

/-- Nothing that could go on with a number. -/
def Apart (rest : List Char) : Prop :=
  ∀ c ∈ rest.head?, goesOn c = false

theorem apart_nil : Apart [] := by
  simp [Apart]

theorem apart_cons {c : Char} (stops : goesOn c = false) (rest : List Char) :
    Apart (c :: rest) := by
  simpa [Apart] using stops

/-- What a reader finds at the front of a text it finds whatever stands apart behind it. -/
structure Steady (scan : Scan α) : Prop where
  suffix : ∀ {chars : List Char} {offset : Nat} {found : α} {after : Cursor},
    scan ⟨chars, offset⟩ = some (found, after) → after.rest <:+ chars
  takes : ∀ {chars rest : List Char} {offset : Nat} {found : α} {after : Cursor},
    Apart rest → scan ⟨chars, offset⟩ = some (found, after) →
      Takes scan (chars ++ rest) found (after.rest ++ rest)

/-! ### The readers of a number -/

theorem next?_eq_some_iff {chars : List Char} {offset : Nat} {c : Char} {after : Cursor} :
    (Cursor.mk chars offset).next? = some (c, after) ↔
      chars.head? = some c ∧ after = ⟨chars.tail, offset + c.utf8Size⟩ := by
  cases chars with
  | nil => simp [Cursor.next?]
  | cons first others =>
      simp only [Cursor.next?, Option.some.injEq, Prod.mk.injEq, List.head?_cons, List.tail_cons]
      constructor <;> rintro ⟨rfl, rfl⟩ <;> exact ⟨rfl, rfl⟩

/-- A run of characters ends where what follows begins with another one. -/
theorem takeWhile_append_of_head {test : Char → Bool} {rest : List Char}
    (ends : ∀ c ∈ rest.head?, test c = false) (chars : List Char) :
    (chars ++ rest).takeWhile test = chars.takeWhile test ∧
      (chars ++ rest).dropWhile test = chars.dropWhile test ++ rest := by
  induction chars with
  | nil =>
      cases rest with
      | nil => simp
      | cons c others =>
          have stop := ends c rfl
          simp [stop]
  | cons c others inductionHypothesis =>
      cases passed : test c with
      | true => simp [passed, inductionHypothesis]
      | false => simp [passed]

/-- A run of digits is found if there is a first one. -/
theorem scanDigits_eq_some_iff {chars : List Char} {offset : Nat} {found : List Char}
    {after : Cursor} :
    scanDigits ⟨chars, offset⟩ = some (found, after) ↔
      found ≠ [] ∧ found = chars.takeWhile Char.isDigit ∧
        after = ⟨chars.dropWhile Char.isDigit, offset + Text.byteLength found⟩ := by
  simp only [scanDigits, Cursor.takeWhile]
  cases chars.takeWhile Char.isDigit with
  | nil => aesop
  | cons first others => aesop

theorem steady_scanDigits : Steady scanDigits where
  suffix digits := by
    obtain ⟨-, -, rfl⟩ := scanDigits_eq_some_iff.mp digits
    exact List.dropWhile_suffix _
  takes := by
    intro chars rest offset found after apart digits start
    obtain ⟨some_digit, rfl, rfl⟩ := scanDigits_eq_some_iff.mp digits
    have ends : ∀ c ∈ rest.head?, c.isDigit = false := by
      intro c head
      have stop := apart c head
      simp only [goesOn, Bool.or_eq_false_iff] at stop
      exact stop.1.1.1.1.1
    obtain ⟨taken, dropped⟩ := takeWhile_append_of_head ends chars
    exact ⟨_, scanDigits_eq_some_iff.mpr ⟨some_digit, taken.symm, by rw [dropped]⟩⟩

/-- What is made of a finding leaves the reader steady. -/
theorem Steady.map {β : Type} {scan : Scan α} (steady : Steady scan) (make : α → β) :
    Steady fun cursor => (scan cursor).map fun read => (make read.1, read.2) where
  suffix := by
    intro chars offset found after mapped
    obtain ⟨⟨inner, _⟩, read, same⟩ := Option.map_eq_some_iff.mp mapped
    cases same
    exact steady.suffix read
  takes := by
    intro chars rest offset found after apart mapped start
    obtain ⟨⟨inner, _⟩, read, same⟩ := Option.map_eq_some_iff.mp mapped
    cases same
    obtain ⟨stop, again⟩ := steady.takes apart read start
    exact ⟨stop, Option.map_eq_some_iff.mpr ⟨_, again, rfl⟩⟩

/-- One steady reader after another. -/
theorem Steady.andThen {β : Type} {first : Scan α} {next : α → Scan β} (steady : Steady first)
    (each : ∀ value, Steady (next value)) :
    Steady fun cursor => (first cursor).bind fun read => next read.1 read.2 where
  suffix := by
    intro chars offset found after both
    obtain ⟨⟨value, middle⟩, read, others⟩ := Option.bind_eq_some_iff.mp both
    exact ((each value).suffix others).trans (steady.suffix read)
  takes := by
    intro chars rest offset found after apart both start
    obtain ⟨⟨value, middle⟩, read, others⟩ := Option.bind_eq_some_iff.mp both
    obtain ⟨reached, again⟩ := steady.takes apart read start
    obtain ⟨stop, onward⟩ := (each value).takes apart others reached
    exact ⟨stop, Option.bind_eq_some_iff.mpr ⟨_, again, onward⟩⟩

/-- A reader that takes nothing. -/
theorem steady_pure (value : α) : Steady fun cursor => some (value, cursor) where
  suffix := by
    rintro chars offset found after ⟨⟩
    exact List.suffix_refl _
  takes := by
    rintro chars rest offset found after apart ⟨⟩ start
    exact ⟨start, rfl⟩

/-- A reader that looks at the first character: if it is a mark, one reader goes on after it,
and otherwise another one starts with it. -/
theorem Steady.ofMark {scan second : Scan α} {first : Char → Scan α} (marks : Char → Prop)
    (steadyFirst : ∀ c, Steady (first c)) (steadySecond : Steady second)
    (continues : ∀ c, marks c → goesOn c = true)
    (marked : ∀ c, marks c → ∀ chars offset,
      scan ⟨c :: chars, offset⟩ = first c ⟨chars, offset + c.utf8Size⟩)
    (unmarked : ∀ chars, (∀ c ∈ chars.head?, ¬marks c) → ∀ offset,
      scan ⟨chars, offset⟩ = second ⟨chars, offset⟩) : Steady scan where
  suffix := by
    intro chars offset found after read
    by_cases mark : ∃ c ∈ chars.head?, marks c
    · obtain ⟨c, head, mark⟩ := mark
      obtain ⟨others, rfl⟩ := List.head?_eq_some_iff.mp head
      rw [marked c mark] at read
      exact ((steadyFirst c).suffix read).trans (List.suffix_cons ..)
    · rw [unmarked chars fun c head mark' => mark ⟨c, head, mark'⟩] at read
      exact steadySecond.suffix read
  takes := by
    intro chars rest offset found after apart read start
    by_cases mark : ∃ c ∈ chars.head?, marks c
    · obtain ⟨c, head, mark⟩ := mark
      obtain ⟨others, rfl⟩ := List.head?_eq_some_iff.mp head
      rw [marked c mark] at read
      obtain ⟨stop, again⟩ := (steadyFirst c).takes apart read (start + c.utf8Size)
      exact ⟨stop, (marked c mark _ start).trans again⟩
    · rw [unmarked chars fun c head mark' => mark ⟨c, head, mark'⟩] at read
      obtain ⟨stop, again⟩ := steadySecond.takes apart read start
      refine ⟨stop, (unmarked _ ?_ start).trans again⟩
      -- Nothing that stands apart is a mark, so it does not matter where the characters end.
      intro c head mark'
      cases chars with
      | nil => exact absurd (continues c mark') (by simp [apart c head])
      | cons first others => exact mark ⟨c, head, mark'⟩

/-- The digits before a point are a run of digits without a zero before them. -/
theorem scanWhole_eq_some_iff {cursor : Cursor} {found : List Char} {after : Cursor} :
    scanWhole cursor = some (found, after) ↔
      scanDigits cursor = some (found, after) ∧ ∀ others, found = '0' :: others → others = [] := by
  unfold scanWhole
  split <;> aesop

theorem steady_scanWhole : Steady scanWhole where
  suffix digits := steady_scanDigits.suffix (scanWhole_eq_some_iff.mp digits).1
  takes := by
    intro chars rest offset found after apart digits start
    obtain ⟨run, plain⟩ := scanWhole_eq_some_iff.mp digits
    obtain ⟨stop, again⟩ := steady_scanDigits.takes apart run start
    exact ⟨stop, scanWhole_eq_some_iff.mpr ⟨again, plain⟩⟩

theorem steady_scanFraction : Steady scanFraction := by
  refine Steady.ofMark (· = '.') (fun _ => steady_scanDigits) (steady_pure []) ?_ ?_ ?_
  · rintro c rfl
    rfl
  · rintro c rfl chars offset
    rfl
  · intro chars unmarked offset
    unfold scanFraction
    split
    · next after point => exact absurd rfl (unmarked '.' (next?_eq_some_iff.mp point).1)
    · rfl

/-- The digits of an exponent after its sign. -/
def scanPower (down : Bool) : Scan (Option (Bool × List Char)) := fun cursor =>
  (scanDigits cursor).map fun digits => (some (down, digits.1), digits.2)

theorem steady_scanPower (down : Bool) : Steady (scanPower down) :=
  steady_scanDigits.map fun found => some (down, found)

/-- The sign and the digits of an exponent. -/
def scanSigned : Scan (Option (Bool × List Char)) := fun cursor =>
  match cursor.next? with
  | some ('-', digits) => scanPower true digits
  | some ('+', digits) => scanPower false digits
  | _ => scanPower false cursor

theorem steady_scanSigned : Steady scanSigned := by
  refine Steady.ofMark (fun c => c = '-' ∨ c = '+') (fun c => steady_scanPower (c == '-'))
    (steady_scanPower false) ?_ ?_ ?_
  · rintro c (rfl | rfl) <;> rfl
  · rintro c (rfl | rfl) chars offset <;> rfl
  · intro chars unmarked offset
    unfold scanSigned
    split
    · next after minus => exact absurd (.inl rfl) (unmarked '-' (next?_eq_some_iff.mp minus).1)
    · next after plus => exact absurd (.inr rfl) (unmarked '+' (next?_eq_some_iff.mp plus).1)
    · rfl

theorem steady_scanExponent : Steady scanExponent := by
  refine Steady.ofMark (fun c => c = 'e' ∨ c = 'E') (fun _ => steady_scanSigned)
    (steady_pure none) ?_ ?_ ?_
  · rintro c (rfl | rfl) <;> rfl
  · rintro c (rfl | rfl) chars offset <;> rfl
  · intro chars unmarked offset
    unfold scanExponent
    split
    · next c after mark =>
        rw [if_neg (by simpa using unmarked c (next?_eq_some_iff.mp mark).1)]
    · rfl

/-- A number after its sign. -/
def scanUnsigned (negative : Bool) : Scan NumberText := fun cursor =>
  (scanWhole cursor).bind fun whole =>
    (scanFraction whole.2).bind fun fraction =>
      (scanExponent fraction.2).map fun exponent =>
        (⟨negative, whole.1, fraction.1, exponent.1⟩, exponent.2)

theorem steady_scanUnsigned (negative : Bool) : Steady (scanUnsigned negative) := by
  have exponents (whole fraction : List Char) :
      Steady fun cursor => (scanExponent cursor).map fun exponent =>
        (NumberText.mk negative whole fraction exponent.1, exponent.2) :=
    steady_scanExponent.map fun exponent => NumberText.mk negative whole fraction exponent
  have fractions (whole : List Char) :
      Steady fun cursor => (scanFraction cursor).bind fun fraction =>
        (scanExponent fraction.2).map fun exponent =>
          (NumberText.mk negative whole fraction.1 exponent.1, exponent.2) :=
    steady_scanFraction.andThen (exponents whole)
  exact steady_scanWhole.andThen fractions

/-- A number is read after its minus sign. -/
theorem scanNumber_minus (chars : List Char) (offset : Nat) :
    scanNumber ⟨'-' :: chars, offset⟩ = scanUnsigned true ⟨chars, offset + 1⟩ := by
  have after : offset + '-'.utf8Size = offset + 1 := rfl
  simp only [scanNumber, scanUnsigned, Cursor.next?, after]
  cases scanWhole ⟨chars, offset + 1⟩ with
  | none => rfl
  | some whole =>
      simp only [Option.bind_some]
      cases scanFraction whole.2 with
      | none => rfl
      | some fraction =>
          simp only [Option.bind_some]
          cases scanExponent fraction.2 <;> rfl

theorem scanNumber_of_head {chars : List Char} (unsigned : ∀ c ∈ chars.head?, c ≠ '-')
    (offset : Nat) : scanNumber ⟨chars, offset⟩ = scanUnsigned false ⟨chars, offset⟩ := by
  unfold scanNumber scanUnsigned
  split
  next negative start sign =>
    split at sign
    · next after minus => exact absurd rfl (unsigned '-' (next?_eq_some_iff.mp minus).1)
    · cases sign
      cases scanWhole ⟨chars, offset⟩ with
      | none => rfl
      | some whole =>
          simp only [Option.bind_some]
          cases scanFraction whole.2 with
          | none => rfl
          | some fraction =>
              simp only [Option.bind_some]
              cases scanExponent fraction.2 <;> rfl

theorem steady_scanNumber : Steady scanNumber := by
  refine Steady.ofMark (· = '-') (fun _ => steady_scanUnsigned true)
    (steady_scanUnsigned false) ?_ ?_ ?_
  · rintro c rfl
    rfl
  · rintro c rfl chars offset
    exact scanNumber_minus chars offset
  · intro chars unsigned offset
    exact scanNumber_of_head unsigned offset

/-- A minus sign or a digit: what a number begins with. -/
def LeadsNumber (c : Char) : Prop :=
  c = '-' ∨ c.isDigit = true

theorem exists_leadsNumber {chars : List Char} {offset : Nat} {found : NumberText}
    {after : Cursor} (number : scanNumber ⟨chars, offset⟩ = some (found, after)) :
    ∃ c others, chars = c :: others ∧ LeadsNumber c := by
  cases chars with
  | nil => cases number
  | cons c others =>
      refine ⟨c, others, rfl, ?_⟩
      by_cases minus : c = '-'
      · exact .inl minus
      · rw [scanNumber_of_head (by simpa using minus)] at number
        obtain ⟨whole, digits, -⟩ := Option.bind_eq_some_iff.mp number
        obtain ⟨run, -⟩ := scanWhole_eq_some_iff.mp digits
        obtain ⟨nonempty, taken, -⟩ := scanDigits_eq_some_iff.mp run
        refine .inr (by_contra fun other => nonempty ?_)
        rw [taken, List.takeWhile_cons_of_neg other]

/-! ### Values that are numbers -/

theorem LeadsNumber.ne {c other : Char} (leads : LeadsNumber c)
    (elsewhere : ¬LeadsNumber other) : c ≠ other := by
  rintro rfl
  exact elsewhere leads

instance (c : Char) : Decidable (LeadsNumber c) :=
  inferInstanceAs (Decidable (_ ∨ _))

/-- Where a minus sign or a digit stands, a number is read. -/
theorem scanValue_of_leadsNumber {c : Char} (leads : LeadsNumber c) (fuel : Nat)
    (others : List Char) (offset : Nat) :
    scanValue (fuel + 1) ⟨c :: others, offset⟩ =
      (scanNumber ⟨c :: others, offset⟩).map fun read =>
        (.number ⟨offset, read.2.offset⟩ read.1, read.2) := by
  rw [scanValue]
  split
  case h_8 => rfl
  case h_1 absent => cases absent
  all_goals
    next after mark =>
      cases (next?_eq_some_iff.mp mark).1
      exact absurd leads (by decide)

/-- What means a number was read as one. -/
theorem scanNumber_of_scanValue {fuel depth offset : Nat} {chars : List Char} {written : Written}
    {after : Cursor} {number : Number}
    (read : scanValue fuel ⟨chars, offset⟩ = some (written, after))
    (means : written.valueWithin depth = some (.number number)) :
    ∃ text, scanNumber ⟨chars, offset⟩ = some (text, after) ∧ text.number? = some number := by
  cases written with
  | number span text =>
      refine ⟨text, ?_, by simpa [Written.valueWithin] using means⟩
      cases fuel with
      | zero => simp [scanValue] at read
      | succ fuel =>
          rw [scanValue] at read
          split at read
          case h_8 =>
            have both := by simpa using read
            exact both.1
          case h_6 | h_7 =>
            dsimp only at read
            split at read
            · simp at read
            · split at read <;> simp at read
          all_goals simp at read
  | null span => simp [Written.valueWithin] at means
  | bool span value => simp [Written.valueWithin] at means
  | string span parts => simp [Written.valueWithin] at means
  | array span items => cases depth <;> simp [Written.valueWithin] at means
  | object span members => cases depth <;> simp [Written.valueWithin] at means

/-- The number's text reads back as the number. -/
def Number.Legible (number : Number) : Prop :=
  ofText? number.text = some (.number number)

theorem skipBlanks_of_head {chars : List Char}
    (visible : ∀ c ∈ chars.head?, isJsonBlank c = false) (offset : Nat) :
    skipBlanks ⟨chars, offset⟩ = ⟨chars, offset⟩ := by
  cases chars with
  | nil => rfl
  | cons c others => simp [skipBlanks, Cursor.skipWhile, Cursor.takeWhile, visible c rfl,
      Text.byteLength]

theorem isJsonBlank_of_graphic {c : Char} (graphic : 0x20 < c.toNat) : isJsonBlank c = false := by
  have other (blank : Char) (low : blank.toNat ≤ 0x20) : c ≠ blank := by
    rintro rfl
    omega
  simp [isJsonBlank, other ' ' (by decide), other '\n' (by decide), other '\t' (by decide),
    other '\r' (by decide)]

theorem Number.head_text_visible (number : Number) :
    ∀ c ∈ number.text.toList.head?, isJsonBlank c = false :=
  fun c head => isJsonBlank_of_graphic (number.graphic_text c (List.mem_of_mem_head? head))

/-- Only blanks stand between the end of a text and what atEnd accepts. -/
theorem rest_eq_nil_of_graphic {after : Cursor} (graphic : ∀ c ∈ after.rest, 0x20 < c.toNat)
    (ended : (skipBlanks after).atEnd = true) : after.rest = [] := by
  have visible : ∀ c ∈ after.rest.head?, isJsonBlank c = false :=
    fun c head => isJsonBlank_of_graphic (graphic c (List.mem_of_mem_head? head))
  rw [skipBlanks_of_head visible] at ended
  simpa [Cursor.atEnd] using ended

namespace Number

variable {number : Number}

/-- A number is legible if and only if its text is read as a number to its end, and means it. -/
theorem legible_iff :
    number.Legible ↔ ∃ text stop,
      scanNumber ⟨number.text.toList, 0⟩ = some (text, ⟨[], stop⟩) ∧
        text.number? = some number := by
  have start : skipBlanks (Cursor.ofText number.text) = ⟨number.text.toList, 0⟩ :=
    skipBlanks_of_head number.head_text_visible 0
  constructor
  · intro legible
    obtain ⟨written, read, means⟩ := Option.bind_eq_some_iff.mp legible
    simp only [Written.ofText?, start] at read
    split at read
    · next found after scanned =>
        split at read
        · next ended =>
            cases read
            obtain ⟨text, scan, value⟩ := scanNumber_of_scanValue scanned means
            have graphic : ∀ c ∈ after.rest, 0x20 < c.toNat := fun c member =>
              number.graphic_text c ((steady_scanNumber.suffix scan).subset member)
            obtain ⟨rest, stop⟩ := after
            obtain rfl := rest_eq_nil_of_graphic graphic ended
            exact ⟨text, stop, scan, value⟩
        · cases read
    · cases read
  · rintro ⟨text, stop, scan, value⟩
    obtain ⟨c, others, spelled, leads⟩ := exists_leadsNumber scan
    have scanned : scanValue (2 * number.text.toList.length + 2) ⟨number.text.toList, 0⟩ =
        some (.number ⟨0, stop⟩ text, ⟨[], stop⟩) := by
      rw [spelled] at scan ⊢
      rw [scanValue_of_leadsNumber leads, scan]
      rfl
    have read : Written.ofText? number.text = some (.number ⟨0, stop⟩ text) := by
      simp only [Written.ofText?, start, scanned]
      rfl
    rw [Legible, ofText?, read]
    simp [Written.value?, Written.valueWithin, value]

/-- A legible number is found in front of whatever stands apart from it. -/
theorem Legible.takes (legible : number.Legible) :
    ∃ text, text.number? = some number ∧ ∀ rest, Apart rest →
      Takes scanNumber (number.text.toList ++ rest) text rest := by
  obtain ⟨text, stop, scan, value⟩ := legible_iff.mp legible
  exact ⟨text, value, fun rest apart => steady_scanNumber.takes apart scan⟩

theorem Legible.exists_leads (legible : number.Legible) :
    ∃ c others, number.text.toList = c :: others ∧ LeadsNumber c := by
  obtain ⟨text, stop, scan, -⟩ := legible_iff.mp legible
  exact exists_leadsNumber scan

/-! ### Integers -/

/-- Digits are written without a zero before them. -/
theorem toDigits_eq_zero_cons {value : Nat} {others : List Char}
    (zero : Nat.toDigits 10 value = '0' :: others) : others = [] := by
  induction value using Nat.strongRecOn generalizing others with
  | ind value inductionHypothesis =>
      by_cases small : value < 10
      · rw [Nat.toDigits_of_lt_base small] at zero
        simpa using (List.cons.inj zero).2.symm
      · have shorter : value / 10 < value := by omega
        rw [Nat.toDigits_of_base_le (by decide) (by omega)] at zero
        cases digits : Nat.toDigits 10 (value / 10) with
        | nil => exact absurd digits (List.ne_nil_of_length_pos Nat.length_toDigits_pos)
        | cons first tail =>
            rw [digits] at zero
            obtain ⟨rfl, -⟩ := List.cons.inj zero
            obtain rfl := inductionHypothesis _ shorter digits
            -- The digits before the last one would be a zero alone.
            have nothing : value / 10 = 0 :=
              calc value / 10
                _ = Nat.ofDigitChars 10 (Nat.toDigits 10 (value / 10)) 0 :=
                    (Nat.ofDigitChars_toDigits (by decide) (by decide)).symm
                _ = 0 := by rw [digits]; rfl
            omega

theorem le_ofDigitChars (digits : List Char) (start : Nat) :
    start ≤ Nat.ofDigitChars 10 digits start := by
  induction digits generalizing start with
  | nil => exact Nat.le_refl _
  | cons c rest inductionHypothesis =>
      rw [Nat.ofDigitChars_cons]
      exact le_trans (by omega) (inductionHypothesis _)

/-- Digits are taken as long as their value fits into 64 bits. -/
theorem gather_of_lt {digits : List Char} {start : Nat}
    (fits : Nat.ofDigitChars 10 digits start < UInt64.size) :
    gather start digits = (Nat.ofDigitChars 10 digits start, []) := by
  induction digits generalizing start with
  | nil => rfl
  | cons c rest inductionHypothesis =>
      have step : start * 10 + digit c = 10 * start + (c.toNat - '0'.toNat) := by
        rw [Nat.mul_comm]
        rfl
      rw [Nat.ofDigitChars_cons] at fits ⊢
      rw [gather, step, if_pos (lt_of_le_of_lt (le_ofDigitChars _ _) fits)]
      exact inductionHypothesis fits

theorem gather_toDigits {value : Nat} (fits : value < UInt64.size) :
    gather 0 (Nat.toDigits 10 value) = (value, []) := by
  have same : Nat.ofDigitChars 10 (Nat.toDigits 10 value) 0 = value :=
    Nat.ofDigitChars_toDigits (by decide) (by decide)
  rw [gather_of_lt (by rwa [same]), same]

/-- The digits of a number are read to their end. -/
theorem scanUnsigned_toDigits (negative : Bool) (value offset : Nat) :
    ∃ stop, scanUnsigned negative ⟨Nat.toDigits 10 value, offset⟩ =
      some (⟨negative, Nat.toDigits 10 value, [], none⟩, ⟨[], stop⟩) := by
  have digits : ∀ c ∈ Nat.toDigits 10 value, c.isDigit = true :=
    fun c member => Nat.isDigit_of_mem_toDigits (by decide) (by decide) member
  have run : scanDigits ⟨Nat.toDigits 10 value, offset⟩ = some (Nat.toDigits 10 value,
      ⟨[], offset + Text.byteLength (Nat.toDigits 10 value)⟩) := by
    refine scanDigits_eq_some_iff.mpr ⟨List.ne_nil_of_length_pos Nat.length_toDigits_pos, ?_, ?_⟩
    · exact (List.takeWhile_eq_self_iff.mpr digits).symm
    · rw [List.dropWhile_eq_nil_iff.mpr digits]
  have whole := scanWhole_eq_some_iff.mpr ⟨run, fun others zero => toDigits_eq_zero_cons zero⟩
  refine ⟨offset + Text.byteLength (Nat.toDigits 10 value), ?_⟩
  rw [scanUnsigned, whole]
  rfl

/-- What the digits of a number mean. -/
theorem number?_toDigits {value : Nat} (fits : value < UInt64.size) :
    NumberText.number? ⟨false, Nat.toDigits 10 value, [], none⟩ = some (.integer value) := by
  simp [NumberText.number?, gather_toDigits fits]

/-- What they mean after a minus sign. -/
theorem number?_negative {value : Nat} (positive : 0 < value) (fits : value ≤ 9223372036854775808) :
    NumberText.number? ⟨true, Nat.toDigits 10 value, [], none⟩ = some (.integer (-value)) := by
  have size : value < UInt64.size := lt_of_le_of_lt fits (by decide)
  have range : 0 < value ∧ value ≤ 9223372036854775808 := ⟨positive, fits⟩
  simp [NumberText.number?, gather_toDigits size, range]

/-- Every integer of 64 bits is legible. -/
theorem legible_integer {value : Int} (least : -9223372036854775808 ≤ value)
    (most : value < UInt64.size) : (Number.integer value).Legible := by
  cases value with
  | ofNat count =>
      have spelled : (Number.integer count).text.toList = Nat.toDigits 10 count := Nat.toList_repr
      have unsigned : ∀ c ∈ (Nat.toDigits 10 count).head?, c ≠ '-' := by
        rintro c head rfl
        exact absurd (Nat.isDigit_of_mem_toDigits (by decide) (by decide)
          (List.mem_of_mem_head? head)) (by decide)
      have fits : count < UInt64.size := Int.ofNat_lt.mp most
      obtain ⟨stop, read⟩ := scanUnsigned_toDigits false count 0
      rw [← scanNumber_of_head unsigned, ← spelled] at read
      exact legible_iff.mpr ⟨_, stop, read, spelled ▸ number?_toDigits fits⟩
  | negSucc count =>
      have spelled : (Number.integer (Int.negSucc count)).text.toList =
          '-' :: Nat.toDigits 10 (count + 1) := by
        rw [← Nat.toList_repr]
        exact String.toList_append
      have fits : count + 1 ≤ 9223372036854775808 := by omega
      obtain ⟨stop, read⟩ := scanUnsigned_toDigits true (count + 1) 1
      have scan : scanNumber ⟨(Number.integer (Int.negSucc count)).text.toList, 0⟩ =
          some (⟨true, Nat.toDigits 10 (count + 1), [], none⟩, ⟨[], stop⟩) := by
        rw [spelled, scanNumber_minus]
        exact read
      exact legible_iff.mpr ⟨_, stop, scan, number?_negative (Nat.succ_pos count) fits⟩

/-- The digits that are taken fit into 64 bits. -/
theorem gather_lt {start : Nat} (fits : start < UInt64.size) (digits : List Char) :
    (gather start digits).1 < UInt64.size := by
  induction digits generalizing start with
  | nil => exact fits
  | cons c rest inductionHypothesis =>
      rw [gather]
      split
      · next more => exact inductionHypothesis more
      · exact fits

theorem float_ne_integer (text : NumberText) (significand : Nat) (shift value : Int) :
    text.float significand shift ≠ some (.integer value) := by
  have floats (negative : Bool) (result : Option Float) :
      result.map (signed negative) ≠ some (.integer value) := by
    cases result <;> simp [signed]
  unfold NumberText.float
  dsimp only
  split
  · exact floats _ _
  · split
    · split <;> simp [signed]
    · exact floats _ _

/-- An integer that was read is legible. -/
theorem legible_of_number? {text : NumberText} {value : Int}
    (means : text.number? = some (.integer value)) : (Number.integer value).Legible := by
  have size : (gather 0 text.whole).1 < UInt64.size := gather_lt (by decide) text.whole
  simp only [NumberText.number?] at means
  split at means
  · split at means
    · split at means
      · next range =>
          cases means
          exact legible_integer (by omega) (by simp only [UInt64.size]; omega)
      · simp [signed] at means
    · cases means
      exact legible_integer (by omega) (Int.ofNat_lt.mpr size)
  · exact (float_ne_integer _ _ _ _ means).elim

end Number

end ScriptAnalysis.Json
