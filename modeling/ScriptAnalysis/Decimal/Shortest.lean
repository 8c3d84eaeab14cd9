/-!
# Shortest decimal text of a binary number

A finite double is `mantissa * 2 ^ power`. Every real in the interval around it rounds
to it, the ends included when the mantissa is even. `shortest` finds the decimal
with the fewest digits inside that interval, and of two with as many digits the nearer
one. `scientific` and `positional` are the two layouts of the result.
-/

namespace ScriptAnalysis.Decimal

/-- A positive binary number `mantissa * 2 ^ power`; `narrow` says that the gap to the
number below is half as wide as the gap to the number above. -/
structure Binary where
  mantissa : Nat
  power : Int
  narrow : Bool
  deriving DecidableEq, Repr

/-- What the 64 bits of a double stand for, apart from the sign. -/
inductive Magnitude where
  | zero
  | finite (value : Binary)
  | infinite
  | undefined
  deriving DecidableEq, Repr

/-- The sign bit. -/
def isNegative (bits : UInt64) : Bool :=
  bits.toNat / 0x8000000000000000 == 1

/-- The magnitude that the bits encode. -/
def magnitude (bits : UInt64) : Magnitude :=
  let fraction : Nat := bits.toNat % 0x10000000000000
  let exponent : Nat := bits.toNat / 0x10000000000000 % 0x800
  if exponent = 2047 then
    if fraction = 0 then .infinite else .undefined
  else if exponent = 0 then
    if fraction = 0 then .zero else .finite ⟨fraction, -1074, false⟩
  else .finite ⟨fraction + 0x10000000000000, (exponent : Int) - 1075, fraction = 0 && 1 < exponent⟩

/-- A decimal `digits * 10 ^ exponent`. -/
structure Digits where
  digits : Nat
  exponent : Int
  deriving DecidableEq, Repr

/-- The fraction `numerator / denominator` that equals `units * 2 ^ power / 10 ^ exponent`. -/
def scaled (units : Nat) (power exponent : Int) : Nat × Nat :=
  (units * Nat.pow 2 power.toNat * Nat.pow 10 (-exponent).toNat,
    Nat.pow 2 (-power).toNat * Nat.pow 10 exponent.toNat)

/-- Whether `digits * 10 ^ exponent` lies in the interval of reals that round to the
value. The interval is measured in quarters of the last binary place. -/
def rounds (value : Binary) (candidate : Digits) : Bool :=
  let center := 4 * value.mantissa
  let least := if value.narrow then center - 1 else center - 2
  let greatest := center + 2
  let (leastTop, bottom) := scaled least (value.power - 2) candidate.exponent
  let (greatestTop, _) := scaled greatest (value.power - 2) candidate.exponent
  let point := candidate.digits * bottom
  if value.mantissa % 2 = 0 then leastTop ≤ point && point ≤ greatestTop
  else leastTop < point && point < greatestTop

/-- The neighbour on the grid of multiples of `10 ^ exponent` that rounds to the value:
the nearer one if both do, and the even one of two that are as near. -/
def onGrid (value : Binary) (exponent : Int) : Option Digits :=
  let (top, bottom) := scaled (4 * value.mantissa) (value.power - 2) exponent
  let below : Digits := ⟨top / bottom, exponent⟩
  let above : Digits := ⟨top / bottom + 1, exponent⟩
  let twice := 2 * (top % bottom)
  match rounds value below, rounds value above with
  | true, true =>
      if twice < bottom || (twice = bottom && below.digits % 2 = 0) then some below
      else some above
  | true, false => some below
  | false, true => some above
  | false, false => none

/-- The first grid with a hit, from the given exponent downwards. -/
def search (value : Binary) (exponent : Int) : Nat → Option Digits
  | 0 => none
  | remaining + 1 =>
      match onGrid value exponent with
      | some found => some found
      | none => search value (exponent - 1) remaining

/-- The digits without the zeros at their end. -/
def stripZeros (found : Digits) : Nat → Digits
  | 0 => found
  | remaining + 1 =>
      if found.digits ≠ 0 && found.digits % 10 = 0 then
        stripZeros ⟨found.digits / 10, found.exponent + 1⟩ remaining
      else found

/-- The shortest decimal that rounds to the value. A double lies between `10 ^ -324` and
`10 ^ 309`, and seventeen digits always suffice. -/
def shortest (value : Binary) : Digits :=
  let start : Int := ((value.mantissa.log2 : Int) + value.power) * 30103 / 100000 + 2
  match search value start 24 with
  | some found => stripZeros found 20
  | none => ⟨value.mantissa, 0⟩

/-- Zeros. -/
def zeros (count : Nat) : String :=
  String.ofList (List.replicate count '0')

/-- The positional layout: all digits, a point only before a fraction. -/
def positional (value : Digits) : String :=
  let text := toString value.digits
  if 0 ≤ value.exponent then text ++ zeros value.exponent.toNat
  else
    let places := (-value.exponent).toNat
    if places < text.length then
      let whole := text.length - places
      String.ofList (text.toList.take whole) ++ "." ++ String.ofList (text.toList.drop whole)
    else "0." ++ zeros (places - text.length) ++ text

/-- An exponent with its sign. -/
def exponentText (exponent : Int) : String :=
  if exponent < 0 then toString exponent else "+" ++ toString exponent

/-- The layout with a signed exponent after `e`: one digit before the point. -/
def scientific (value : Digits) : String :=
  let text := (toString value.digits).toList
  let exponent := exponentText (value.exponent + (text.length : Int) - 1)
  match text with
  | first :: second :: rest => String.ofList (first :: '.' :: second :: rest) ++ "e" ++ exponent
  | _ => String.ofList text ++ "e" ++ exponent

end ScriptAnalysis.Decimal
