/-!
# Hexadecimal digits

The value of one digit, in either case, and the digits of a number in small letters.
Main statement: every value below sixteen is the value of the digit that is written
for it.
-/

namespace ScriptAnalysis.Text

/-- The value of a digit of either case. -/
def hexValue? (c : Char) : Option Nat :=
  if '0' ≤ c ∧ c ≤ '9' then some (c.toNat - 48)
  else if 'a' ≤ c ∧ c ≤ 'f' then some (c.toNat - 87)
  else if 'A' ≤ c ∧ c ≤ 'F' then some (c.toNat - 55)
  else none

/-- The lowercase digits of a number, without leading zeros. -/
def hexadecimal (value : Nat) : String :=
  String.ofList (Nat.toDigits 16 value)

/-- A written digit reads back as its value. -/
theorem hexValue?_digitChar {value : Nat} (small : value < 16) :
    hexValue? value.digitChar = some value := by
  revert small value
  decide

end ScriptAnalysis.Text
