import ScriptAnalysis.Text.Cursor

/-!
# Dates and times

A moment is a date, a time of day, or a date with a time and perhaps an offset from
universal time. It is read from its written form and put into one plain form: a `T`
between date and time, no zeros at the end of a fraction.
-/

namespace ScriptAnalysis.Toml

open ScriptAnalysis.Text (Cursor Scan)

/-- A number as digits of a fixed count. -/
def padded (width value : Nat) : String :=
  let text := toString value
  String.ofList (List.replicate (width - text.length) '0') ++ text

/-- A number of exactly `count` digits. -/
def scanCount (count : Nat) : Scan Nat := fun cursor =>
  let digits := cursor.rest.take count
  if digits.length = count && digits.all Char.isDigit then
    some (digits.foldl (fun value c => value * 10 + (c.toNat - 48)) 0,
      ⟨cursor.rest.drop count, cursor.offset + count⟩)
  else none

/-- A number of two digits within bounds. -/
def scanTwo (least greatest : Nat) : Scan Nat := fun cursor =>
  match scanCount 2 cursor with
  | some (value, after) => if least ≤ value ∧ value ≤ greatest then some (value, after) else none
  | none => none

/-- The number of days of a month. -/
def daysInMonth (year month : Nat) : Nat :=
  let leap := year % 4 = 0 ∧ (year % 100 ≠ 0 ∨ year % 400 = 0)
  if month = 2 then (if leap then 29 else 28)
  else if month = 4 ∨ month = 6 ∨ month = 9 ∨ month = 11 then 30
  else 31

/-- A date: four digits of year, two of month and two of day. -/
def scanDate : Scan String := fun cursor => do
  let (year, cursor) ← scanCount 4 cursor
  let cursor ← cursor.skipChars? ['-']
  let (month, cursor) ← scanTwo 1 12 cursor
  let cursor ← cursor.skipChars? ['-']
  let (day, cursor) ← scanTwo 1 (daysInMonth year month) cursor
  pure (padded 4 year ++ "-" ++ padded 2 month ++ "-" ++ padded 2 day, cursor)

/-- The digits of a fraction of a second; nine of them count. -/
def scanFractionOfSecond : Scan String := fun cursor =>
  match cursor.next? with
  | some ('.', after) =>
      match after.takeWhile Char.isDigit with
      | ([], _) => some ("", cursor)
      | (digits, after) =>
          let kept := ((digits.take 9).reverse.dropWhile (· == '0')).reverse
          some (if kept.isEmpty then "" else "." ++ String.ofList kept, after)
  | _ => some ("", cursor)

/-- A time of day with seconds. -/
def scanTime : Scan String := fun cursor => do
  let (hour, cursor) ← scanTwo 0 23 cursor
  let cursor ← cursor.skipChars? [':']
  let (minute, cursor) ← scanTwo 0 59 cursor
  let cursor ← cursor.skipChars? [':']
  let (second, cursor) ← scanTwo 0 60 cursor
  let (fraction, cursor) ← scanFractionOfSecond cursor
  pure (padded 2 hour ++ ":" ++ padded 2 minute ++ ":" ++ padded 2 second ++ fraction, cursor)

/-- An offset from universal time, if one follows. No offset has a negative sign. -/
def scanOffset : Scan String := fun cursor =>
  match cursor.next? with
  | some (mark, after) =>
      if mark = 'Z' || mark = 'z' then some ("Z", after)
      else if mark = '+' || mark = '-' then do
        let (hour, cursor) ← scanTwo 0 23 after
        let cursor ← cursor.skipChars? [':']
        let (minute, cursor) ← scanTwo 0 59 cursor
        let sign := if mark = '-' && 0 < hour + minute then "-" else "+"
        pure (sign ++ padded 2 hour ++ ":" ++ padded 2 minute, cursor)
      else some ("", cursor)
  | none => some ("", cursor)

/-- A time with the separator before it and an offset after it. -/
def scanTimeOfDate : Scan String := fun cursor =>
  match cursor.next? with
  | some (mark, after) =>
      if mark = 'T' || mark = 't' || mark = ' ' then do
        let (time, cursor) ← scanTime after
        let (offset, cursor) ← scanOffset cursor
        pure ("T" ++ time ++ offset, cursor)
      else none
  | none => none

/-- A moment in its plain form. -/
def scanMoment : Scan String := fun cursor =>
  match scanDate cursor with
  | some (date, after) =>
      match scanTimeOfDate after with
      | some (time, after) => some (date ++ time, after)
      | none => some (date, after)
  | none => scanTime cursor

/-- The plain form of a text that holds a moment and nothing else. -/
def momentOfText? (text : String) : Option String :=
  match scanMoment (Cursor.ofText text) with
  | some (moment, after) => if after.atEnd then some moment else none
  | none => none

end ScriptAnalysis.Toml
