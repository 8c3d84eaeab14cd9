import ScriptAnalysis.Text.Cursor
import ScriptAnalysis.Text.Hexadecimal

/-!
# TOML numbers

Integers are decimal with a sign or unsigned with a base, and fit into 64 bits. A float
is rounded to the nearest double; one that is too large is refused unless it is
negative. Underscores may stand between digits.
-/

namespace ScriptAnalysis.Toml

open ScriptAnalysis.Text (Cursor Scan hexValue?)

/-- More digits after the first: each may have an underscore before it. -/
def digitTail (isDigit : Char → Bool) (offset : Nat) : List Char → List Char × Cursor
  | '_' :: c :: rest =>
      if isDigit c then
        let (digits, after) := digitTail isDigit (offset + 2) rest
        (c :: digits, after)
      else ([], ⟨'_' :: c :: rest, offset⟩)
  | c :: rest =>
      if isDigit c then
        let (digits, after) := digitTail isDigit (offset + 1) rest
        (c :: digits, after)
      else ([], ⟨c :: rest, offset⟩)
  | [] => ([], ⟨[], offset⟩)

/-- A run of digits, underscores left out. -/
def scanRun (isDigit : Char → Bool) : Scan (List Char) := fun cursor =>
  match cursor.next? with
  | some (c, after) =>
      if isDigit c then
        let (digits, after) := digitTail isDigit after.offset after.rest
        some (c :: digits, after)
      else none
  | none => none

/-- A sign, if there is one: whether it is negative. -/
def scanSign : Scan Bool := fun cursor =>
  match cursor.next? with
  | some ('-', after) => some (true, after)
  | some ('+', after) => some (false, after)
  | _ => some (false, cursor)

/-- Decimal digits without a leading zero. -/
def scanDecimal : Scan (List Char) := fun cursor =>
  match cursor.next? with
  | some ('0', after) => some (['0'], after)
  | _ => scanRun Char.isDigit cursor

/-- The value of digits in a base up to sixteen. -/
def digitsValue (base : Nat) (digits : List Char) : Nat :=
  digits.foldl (fun value c => value * base + (hexValue? c).getD 0) 0

/-- An integer within 64 bits. -/
def bounded (value : Int) : Option Int :=
  if -9223372036854775808 ≤ value ∧ value < 9223372036854775808 then some value else none

/-- Digits of a base after its mark. -/
def scanBase (base : Nat) (isDigit : Char → Bool) : Scan Int := fun cursor => do
  let (digits, after) ← scanRun isDigit cursor
  let value ← bounded (digitsValue base digits)
  pure (value, after)

/-- An integer. -/
def scanInteger : Scan Int := fun cursor =>
  match cursor.skipChars? ['0', 'x'], cursor.skipChars? ['0', 'o'],
      cursor.skipChars? ['0', 'b'] with
  | some after, _, _ => scanBase 16 (fun c => (hexValue? c).isSome) after
  | _, some after, _ => scanBase 8 (fun c => '0' ≤ c && c ≤ '7') after
  | _, _, some after => scanBase 2 (fun c => c == '0' || c == '1') after
  | none, none, none => do
      let (negative, cursor) ← scanSign cursor
      let (digits, cursor) ← scanDecimal cursor
      let size : Int := digitsValue 10 digits
      let value ← bounded (if negative then -size else size)
      pure (value, cursor)

/-- The double nearest to `digits * 10 ^ exponent`. -/
def nearestDouble (digits : Nat) (exponent : Int) : Float :=
  let size : Int := (toString digits).length
  if digits = 0 || exponent + size < -400 then 0.0
  else if 400 < exponent + size then Float.ofScientific 1 false 400
  else Float.ofScientific digits (exponent < 0) exponent.natAbs

/-- The digits after a point. -/
def scanPlaces : Scan (List Char) := fun cursor =>
  match cursor.next? with
  | some ('.', after) => scanRun Char.isDigit after
  | _ => none

/-- An exponent after its mark. -/
def scanPower : Scan Int := fun cursor =>
  match cursor.next? with
  | some (mark, after) =>
      if mark = 'e' || mark = 'E' then do
        let (negative, cursor) ← scanSign after
        let (digits, cursor) ← scanRun Char.isDigit cursor
        let size : Int := digitsValue 10 digits
        pure (if negative then -size else size, cursor)
      else none
  | none => none

/-- The bits of a float that is not too large; the largest negative ones become
infinite. -/
def floatBits (negative : Bool) (digits : Nat) (exponent : Int) : Option UInt64 :=
  let value := nearestDouble digits exponent
  if value.isInf && !negative then none
  else some (if negative then -value else value).toBits

/-- A float with a fraction, an exponent, or both. -/
def scanFinite : Scan UInt64 := fun cursor => do
  let (negative, cursor) ← scanSign cursor
  let (whole, cursor) ← scanDecimal cursor
  match scanPlaces cursor, scanPower cursor with
  | some (places, afterPlaces), _ =>
      let digits := digitsValue 10 (whole ++ places)
      match scanPower afterPlaces with
      | some (power, after) =>
          let bits ← floatBits negative digits (power - places.length)
          pure (bits, after)
      | none =>
          let bits ← floatBits negative digits (-(places.length : Int))
          pure (bits, afterPlaces)
  | none, some (power, after) =>
      let bits ← floatBits negative (digitsValue 10 whole) power
      pure (bits, after)
  | none, none => none

/-- Infinity or an undefined number, with or without a sign. -/
def scanSpecial : Scan UInt64 := fun cursor => do
  let (negative, cursor) ← scanSign cursor
  let sign : UInt64 := if negative then 0x8000000000000000 else 0
  match cursor.skipChars? ['i', 'n', 'f'], cursor.skipChars? ['n', 'a', 'n'] with
  | some after, _ => pure (0x7FF0000000000000 ||| sign, after)
  | _, some after => pure (0x7FF8000000000000 ||| sign, after)
  | none, none => none

end ScriptAnalysis.Toml
