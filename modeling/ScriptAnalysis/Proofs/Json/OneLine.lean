import ScriptAnalysis.Json.Printer

/-!
# Values on one line

The text of a number is made of characters above the blank (`Json.Number.graphic_text`), and a
string is written with its control characters escaped. So no character of a value's compact
text is a control character (`Json.printable_compact`): whatever texts a value holds, it stands
on one line.
-/

namespace ScriptAnalysis

/-- Every character stands above the blank. -/
def Text.Graphic (text : String) : Prop :=
  ∀ c ∈ text.toList, 0x20 < c.toNat

/-- No character is a control character of the first thirty-two. -/
def Text.Printable (text : String) : Prop :=
  ∀ c ∈ text.toList, 0x20 ≤ c.toNat

namespace Text

instance (text : String) : Decidable (Graphic text) :=
  List.decidableBAll (fun c : Char => 0x20 < c.toNat) text.toList

instance (text : String) : Decidable (Printable text) :=
  List.decidableBAll (fun c : Char => 0x20 ≤ c.toNat) text.toList

theorem Graphic.append {left right : String} (first : Graphic left) (second : Graphic right) :
    Graphic (left ++ right) := by
  intro c member
  rw [String.toList_append, List.mem_append] at member
  exact member.elim (first c) (second c)

theorem Printable.append {left right : String} (first : Printable left)
    (second : Printable right) : Printable (left ++ right) := by
  intro c member
  rw [String.toList_append, List.mem_append] at member
  exact member.elim (first c) (second c)

theorem Graphic.printable {text : String} (graphic : Graphic text) : Printable text :=
  fun c member => Nat.le_of_lt (graphic c member)

/-- A part of the characters of a graphic text is graphic. -/
theorem Graphic.ofList {text : String} {chars : List Char} (graphic : Graphic text)
    (part : chars ⊆ text.toList) : Graphic (String.ofList chars) := by
  intro c member
  rw [String.toList_ofList] at member
  exact graphic c (part member)

/-- A printable text has no line break. -/
theorem Printable.no_break {text : String} (printable : Printable text) :
    ∀ c ∈ text.toList, c ≠ '\n' ∧ c ≠ '\r' := by
  intro c member
  have above := printable c member
  constructor
  · rintro rfl
    exact absurd above (by decide)
  · rintro rfl
    exact absurd above (by decide)

/-- Decimal digits are graphic. -/
theorem graphic_toString_nat (value : Nat) : Graphic (toString value) := by
  intro c member
  have spelled : c ∈ Nat.toDigits 10 value := Nat.toList_repr ▸ member
  have digit : c.isDigit = true := Nat.isDigit_of_mem_toDigits (by decide) (by decide) spelled
  exact Nat.lt_of_lt_of_le (by decide) (Char.isDigit_iff_toNat.mp digit).1

theorem graphic_toString_int (value : Int) : Graphic (toString value) := by
  cases value with
  | ofNat count => exact graphic_toString_nat count
  | negSucc count =>
      have minus : Graphic "-" := by decide
      exact minus.append (graphic_toString_nat (count + 1))

end Text

namespace Decimal

open Text

theorem graphic_zeros (count : Nat) : Graphic (zeros count) := by
  intro c member
  rw [zeros, String.toList_ofList] at member
  rw [List.eq_of_mem_replicate member]
  decide

theorem graphic_positional (value : Digits) : Graphic (positional value) := by
  have digits := graphic_toString_nat value.digits
  have point : Graphic "." := by decide
  have leading : Graphic "0." := by decide
  simp only [positional]
  split
  · exact digits.append (graphic_zeros _)
  · split
    · exact ((digits.ofList (List.take_subset ..)).append point).append
        (digits.ofList (List.drop_subset ..))
    · exact (leading.append (graphic_zeros _)).append digits

theorem graphic_exponentText (exponent : Int) : Graphic (exponentText exponent) := by
  have plus : Graphic "+" := by decide
  unfold exponentText
  split
  · exact graphic_toString_int exponent
  · exact plus.append (graphic_toString_int exponent)

theorem graphic_scientific (value : Digits) : Graphic (scientific value) := by
  have digits := graphic_toString_nat value.digits
  have mark : Graphic "e" := by decide
  simp only [scientific]
  split
  · next first second rest spelled =>
      refine (Graphic.append ?_ mark).append (graphic_exponentText _)
      intro c member
      rw [String.toList_ofList] at member
      unfold Graphic at digits
      rw [spelled] at digits
      rcases List.mem_cons.mp member with rfl | member
      · exact digits c List.mem_cons_self
      · rcases List.mem_cons.mp member with rfl | member
        · decide
        · exact digits c (List.mem_cons_of_mem _ member)
  · refine (Graphic.append ?_ mark).append (graphic_exponentText _)
    exact digits.ofList (List.Subset.refl _)

end Decimal

namespace Json

open Text

theorem graphic_finiteText (value : Decimal.Digits) : Graphic (finiteText value) := by
  have ending : Graphic ".0" := by decide
  simp only [finiteText]
  split
  · exact (Decimal.graphic_positional value).append ending
  · split
    · exact Decimal.graphic_positional value
    · exact Decimal.graphic_scientific value

/-- The text of a number holds no blank and no control character. -/
theorem Number.graphic_text (number : Number) : Graphic number.text := by
  cases number with
  | integer value => exact graphic_toString_int value
  | float bits =>
      have sign : Graphic (if Decimal.isNegative bits then "-" else "") := by
        split <;> decide
      have zero : Graphic "0.0" := by decide
      have null : Graphic "null" := by decide
      simp only [Number.text, floatText]
      cases Decimal.magnitude bits with
      | zero => exact sign.append zero
      | finite value => exact sign.append (graphic_finiteText _)
      | infinite => exact null
      | undefined => exact null

/-- Inside a string, no control character is written as it is. -/
theorem printable_escapedChar (c : Char) :
    (escapedChar c).all fun written => decide (0x20 ≤ written.toNat) := by
  have control : ∀ code < 0x20,
      ['\\', 'u', '0', '0', controlDigit (code / 16), controlDigit (code % 16)].all
        fun written => decide (0x20 ≤ written.toNat) := by decide
  unfold escapedChar
  repeat' split
  case isFalse.isFalse.isFalse.isFalse.isFalse.isFalse.isFalse.isTrue low => exact control _ low
  case isFalse.isFalse.isFalse.isFalse.isFalse.isFalse.isFalse.isFalse high => simpa using high
  all_goals decide

theorem printable_stringText (text : String) : Printable (stringText text) := by
  intro c member
  rw [stringText, String.toList_ofList] at member
  simp only [List.cons_append, List.mem_cons, List.mem_append, List.mem_flatMap,
    List.not_mem_nil, or_false] at member
  rcases member with rfl | ⟨origin, -, member⟩ | rfl
  · decide
  · exact of_decide_eq_true (List.all_eq_true.mp (printable_escapedChar origin) c member)
  · decide

mutual

/-- The compact text of a value holds no control character. -/
theorem printable_compact : (value : Json) → Printable value.compact
  | .null => by rw [compact]; decide
  | .bool value => by rw [compact]; cases value <;> decide
  | .number value => by rw [compact]; exact value.graphic_text.printable
  | .string text => by rw [compact]; exact printable_stringText text
  | .array items => by
      have opening : Printable "[" := by decide
      have closing : Printable "]" := by decide
      rw [compact]
      exact (opening.append (printable_compactItems items)).append closing
  | .object members => by
      have opening : Printable "\x7b" := by decide
      have closing : Printable "\x7d" := by decide
      rw [compact]
      exact (opening.append (printable_compactMembers members)).append closing

theorem printable_compactItems : (items : List Json) → Printable (compactItems items)
  | [] => by rw [compactItems]; decide
  | [item] => by rw [compactItems]; exact printable_compact item
  | item :: next :: rest => by
      have comma : Printable "," := by decide
      rw [compactItems]
      · exact ((printable_compact item).append comma).append (printable_compactItems _)
      · simp

theorem printable_compactMembers :
    (members : List (String × Json)) → Printable (compactMembers members)
  | [] => by rw [compactMembers]; decide
  | [(name, value)] => by
      have colon : Printable ":" := by decide
      rw [compactMembers]
      exact ((printable_stringText name).append colon).append (printable_compact value)
  | (name, value) :: next :: rest => by
      have colon : Printable ":" := by decide
      have comma : Printable "," := by decide
      rw [compactMembers]
      · exact ((((printable_stringText name).append colon).append
          (printable_compact value)).append comma).append (printable_compactMembers _)
      · simp

end

end Json

end ScriptAnalysis
