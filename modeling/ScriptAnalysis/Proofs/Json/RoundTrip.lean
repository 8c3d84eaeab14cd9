import ScriptAnalysis.Proofs.Json.Bounded
import ScriptAnalysis.Proofs.Json.Number

/-!
# Values read back

The compact text of a value is read back by the readers of JSON, wherever it stands
(`Json.readsBack`). Each kind of value has a lemma of its own, and the recursion over values puts
them together. What a whole text means is the value with its members in order
(`Json.ofText?_compact`).
-/

namespace ScriptAnalysis.Json

open ScriptAnalysis.Text (Cursor Scan)

/-! ### Strings -/

theorem scanParts_letter {letter c : Char} (named : simpleEscape letter = some c)
    (rest : List Char) (offset : Nat) :
    scanParts offset ('\\' :: letter :: rest) =
      (scanParts (offset + 2) rest).map fun read => (.char c :: read.1, read.2) := by
  have other : letter ≠ 'u' := by
    rintro rfl
    cases named
  rw [scanParts]
  · rw [named]
    cases scanParts (offset + 2) rest <;> rfl
  · rintro a b c d tail rfl
    simp_all

theorem scanParts_unit {a b c d : Char} {code : Nat} (digits : hexUnit a b c d = some code)
    (rest : List Char) (offset : Nat) :
    scanParts offset ('\\' :: 'u' :: a :: b :: c :: d :: rest) =
      (scanParts (offset + 6) rest).map fun read => (.unit code :: read.1, read.2) := by
  rw [scanParts, digits]
  cases scanParts (offset + 6) rest <;> rfl

theorem scanParts_plain {c : Char} (quote : c ≠ '\x22') (slash : c ≠ '\\')
    (high : 0x20 ≤ c.toNat) (rest : List Char) (offset : Nat) :
    scanParts offset (c :: rest) =
      (scanParts (offset + c.utf8Size) rest).map fun read => (.char c :: read.1, read.2) := by
  have printable : (decide (c = '\\') || decide (c.toNat < 0x20)) = false := by
    simpa [slash] using high
  rw [scanParts, if_neg quote, printable]
  · cases scanParts (offset + c.utf8Size) rest <;> rfl
  · exact fun a b c d tail escaped => absurd escaped slash
  · exact fun letter tail escaped => absurd escaped slash

/-- The four digits of a control character stand for its code. -/
theorem hexUnit_controlDigit {code : Nat} (low : code < 0x20) :
    hexUnit '0' '0' (controlDigit (code / 16)) (controlDigit (code % 16)) = some code := by
  revert low code
  decide

/-- One character of a string is read back, as itself or as an escaped control character, and
then the rest of the string. -/
theorem scanParts_escapedChar (c : Char) :
    ∃ part, (part = .char c ∨ c.toNat < 0x20 ∧ part = .unit c.toNat) ∧
      ∀ rest offset, ∃ next, scanParts offset (escapedChar c ++ rest) =
        (scanParts next rest).map fun read => (part :: read.1, read.2) := by
  unfold escapedChar
  repeat' split
  case isFalse.isFalse.isFalse.isFalse.isFalse.isFalse.isFalse.isTrue low =>
    exact ⟨.unit c.toNat, .inr ⟨low, rfl⟩, fun rest offset =>
      ⟨_, scanParts_unit (hexUnit_controlDigit low) rest offset⟩⟩
  case isFalse.isFalse.isFalse.isFalse.isFalse.isFalse.isFalse.isFalse quote slash _ _ _ _ _ high =>
    exact ⟨.char c, .inl rfl, fun rest offset =>
      ⟨_, scanParts_plain quote slash (Nat.le_of_not_lt high) rest offset⟩⟩
  all_goals
    subst c
    exact ⟨.char _, .inl rfl, fun rest offset => ⟨_, scanParts_letter rfl rest offset⟩⟩

/-- The unit of a control character is that character, whatever follows it. -/
theorem joinParts_unit {code : Nat} (low : code < 0x20) (parts : List StringPart) :
    joinParts (.unit code :: parts) = (joinParts parts).map (Char.ofNat code :: ·) := by
  have leading : isLeading code = false := by
    simp only [isLeading, Bool.and_eq_false_iff, decide_eq_false_iff_not]
    omega
  have trailing : isTrailing code = false := by
    simp only [isTrailing, Bool.and_eq_false_iff, decide_eq_false_iff_not]
    omega
  cases parts with
  | nil => simp [joinParts, leading, trailing]
  | cons next rest => cases next <;> simp [joinParts, leading, trailing]

theorem scanParts_quote (rest : List Char) (offset : Nat) :
    scanParts offset ('\x22' :: rest) = some ([], ⟨rest, offset + 1⟩) := by
  rw [scanParts, if_pos rfl] <;> simp

/-- The characters of a string are read back up to the closing quote. -/
theorem scanParts_escaped (chars : List Char) :
    ∃ parts, joinParts parts = some chars ∧ ∀ rest offset, ∃ stop,
      scanParts offset (chars.flatMap escapedChar ++ '\x22' :: rest) =
        some (parts, ⟨rest, stop⟩) := by
  induction chars with
  | nil => exact ⟨[], rfl, fun rest offset => ⟨_, scanParts_quote rest offset⟩⟩
  | cons c others inductionHypothesis =>
      obtain ⟨parts, joined, scanned⟩ := inductionHypothesis
      obtain ⟨part, kind, first⟩ := scanParts_escapedChar c
      refine ⟨part :: parts, ?_, fun rest offset => ?_⟩
      · obtain rfl | ⟨low, rfl⟩ := kind
        · rw [joinParts, joined, Option.map_some]
        · rw [joinParts_unit low, joined, Option.map_some, Char.ofNat_toNat]
      · obtain ⟨next, escaped⟩ := first (others.flatMap escapedChar ++ '\x22' :: rest) offset
        obtain ⟨stop, inner⟩ := scanned rest next
        refine ⟨stop, ?_⟩
        rw [List.flatMap_cons, List.append_assoc, escaped, inner, Option.map_some]

/-- A string that was written is read back. -/
theorem takes_stringText (text : String) :
    ∃ parts, partsText parts = some text ∧
      ∀ rest, Takes scanString ((stringText text).toList ++ rest) parts rest := by
  obtain ⟨parts, joined, scanned⟩ := scanParts_escaped text.toList
  refine ⟨parts, by rw [partsText, joined, Option.map_some, String.ofList_toList], ?_⟩
  intro rest offset
  obtain ⟨stop, read⟩ := scanned rest (offset + 1)
  refine ⟨stop, ?_⟩
  rw [stringText, String.toList_ofList, List.append_assoc]
  exact read

/-! ### Steps of the readers -/

section Steps

variable {fuel offset stop : Nat} {c : Char} {chars rest : List Char} {cursor after : Cursor}

theorem skipBlanks_cons (visible : isJsonBlank c = false) (chars : List Char) (offset : Nat) :
    skipBlanks ⟨c :: chars, offset⟩ = ⟨c :: chars, offset⟩ :=
  skipBlanks_of_head (by simpa using visible) offset

theorem scanItems_last {item : Written}
    (read : scanValue fuel cursor = some (item, ⟨']' :: rest, stop⟩)) :
    scanItems (fuel + 1) cursor = some ([item], ⟨rest, stop + 1⟩) := by
  have bracket : isJsonBlank ']' = false := by decide
  rw [scanItems, read]
  simp only [skipBlanks_cons bracket]
  rfl

theorem scanItems_comma {item : Written} {items : List Written}
    (read : scanValue fuel cursor = some (item, ⟨',' :: c :: chars, stop⟩))
    (visible : isJsonBlank c = false)
    (others : scanItems fuel ⟨c :: chars, stop + 1⟩ = some (items, after)) :
    scanItems (fuel + 1) cursor = some (item :: items, after) := by
  have comma : isJsonBlank ',' = false := by decide
  rw [scanItems, read]
  simp only [skipBlanks_cons comma, skipBlanks_cons visible, Cursor.next?]
  have next : stop + ','.utf8Size = stop + 1 := rfl
  rw [next, others]

theorem scanValue_array {items : List Written} (visible : isJsonBlank c = false)
    (opened : c ≠ ']') (read : scanItems fuel ⟨c :: chars, offset + 1⟩ = some (items, after)) :
    scanValue (fuel + 1) ⟨'[' :: c :: chars, offset⟩ =
      some (.array ⟨offset, after.offset⟩ items, after) := by
  have next : offset + '['.utf8Size = offset + 1 := rfl
  rw [scanValue]
  simp only [Cursor.next?, skipBlanks_cons visible, next]
  split
  · next closed => simp_all
  · rw [read]

theorem scanValue_emptyArray (fuel offset : Nat) (rest : List Char) :
    scanValue (fuel + 1) ⟨'[' :: ']' :: rest, offset⟩ =
      some (.array ⟨offset, offset + 2⟩ [], ⟨rest, offset + 2⟩) := by
  have bracket : isJsonBlank ']' = false := by decide
  rw [scanValue]
  simp only [Cursor.next?, skipBlanks_cons bracket]
  rfl

/-- A name, a colon and a value, up to what follows the value. -/
theorem scanMembers_last {parts : List StringPart} {item : Written} {between : Nat}
    (name : scanString cursor = some (parts, ⟨':' :: c :: chars, between⟩))
    (visible : isJsonBlank c = false)
    (read : scanValue fuel ⟨c :: chars, between + 1⟩ = some (item, ⟨'\x7d' :: rest, stop⟩)) :
    scanMembers (fuel + 1) cursor =
      some ([(⟨⟨cursor.offset, between⟩, parts⟩, item)], ⟨rest, stop + 1⟩) := by
  have colon : isJsonBlank ':' = false := by decide
  have brace : isJsonBlank '\x7d' = false := by decide
  have next : between + ':'.utf8Size = between + 1 := rfl
  rw [scanMembers, name]
  simp only [skipBlanks_cons colon, skipBlanks_cons visible, Cursor.next?, next, read,
    skipBlanks_cons brace]
  rfl

theorem scanMembers_comma {parts : List StringPart} {item : Written} {between : Nat}
    {members : List (WrittenName × Written)} {d : Char} {tail : List Char}
    (name : scanString cursor = some (parts, ⟨':' :: c :: chars, between⟩))
    (visible : isJsonBlank c = false)
    (read : scanValue fuel ⟨c :: chars, between + 1⟩ = some (item, ⟨',' :: d :: tail, stop⟩))
    (onward : isJsonBlank d = false)
    (others : scanMembers fuel ⟨d :: tail, stop + 1⟩ = some (members, after)) :
    scanMembers (fuel + 1) cursor =
      some ((⟨⟨cursor.offset, between⟩, parts⟩, item) :: members, after) := by
  have colon : isJsonBlank ':' = false := by decide
  have comma : isJsonBlank ',' = false := by decide
  have next : between + ':'.utf8Size = between + 1 := rfl
  have further : stop + ','.utf8Size = stop + 1 := rfl
  rw [scanMembers, name]
  simp only [skipBlanks_cons colon, skipBlanks_cons visible, Cursor.next?, next, read,
    skipBlanks_cons comma, skipBlanks_cons onward, further, others]

theorem scanValue_object {members : List (WrittenName × Written)}
    (visible : isJsonBlank c = false) (opened : c ≠ '\x7d')
    (read : scanMembers fuel ⟨c :: chars, offset + 1⟩ = some (members, after)) :
    scanValue (fuel + 1) ⟨'\x7b' :: c :: chars, offset⟩ =
      some (.object ⟨offset, after.offset⟩ members, after) := by
  have next : offset + '\x7b'.utf8Size = offset + 1 := rfl
  rw [scanValue]
  simp only [Cursor.next?, skipBlanks_cons visible, next]
  split
  · next closed => simp_all
  · rw [read]

theorem scanValue_emptyObject (fuel offset : Nat) (rest : List Char) :
    scanValue (fuel + 1) ⟨'\x7b' :: '\x7d' :: rest, offset⟩ =
      some (.object ⟨offset, offset + 2⟩ [], ⟨rest, offset + 2⟩) := by
  have brace : isJsonBlank '\x7d' = false := by decide
  rw [scanValue]
  simp only [Cursor.next?, skipBlanks_cons brace]
  rfl

theorem scanValue_string {parts : List StringPart}
    (read : scanString ⟨'\x22' :: chars, offset⟩ = some (parts, after)) :
    scanValue (fuel + 1) ⟨'\x22' :: chars, offset⟩ =
      some (.string ⟨offset, after.offset⟩ parts, after) := by
  rw [scanValue]
  simp only [Cursor.next?, read]
  rfl

end Steps

/-! ### Values -/

theorem toList_compactItems (item next : Json) (rest : List Json) :
    (compactItems (item :: next :: rest)).toList =
      item.compact.toList ++ ',' :: (compactItems (next :: rest)).toList := by
  rw [compactItems]
  · simp
  · simp

theorem toList_compactMembers (name : String) (value : Json) (next : String × Json)
    (rest : List (String × Json)) :
    (compactMembers ((name, value) :: next :: rest)).toList =
      (stringText name).toList ++ ':' :: (value.compact.toList ++
        ',' :: (compactMembers (next :: rest)).toList) := by
  rw [compactMembers]
  · simp
  · simp

/-- The characters begin with one that is neither a blank nor a closing bracket or brace. -/
def Opens (chars : List Char) : Prop :=
  ∃ c others, chars = c :: others ∧ isJsonBlank c = false ∧ c ≠ ']' ∧ c ≠ '\x7d'

theorem opens_cons {c : Char} (visible : isJsonBlank c = false) (item : c ≠ ']')
    (member : c ≠ '\x7d') (chars : List Char) : Opens (c :: chars) :=
  ⟨c, chars, rfl, visible, item, member⟩

theorem Opens.append {chars : List Char} (opens : Opens chars) (rest : List Char) :
    Opens (chars ++ rest) := by
  obtain ⟨c, others, rfl, visible⟩ := opens
  exact ⟨c, others ++ rest, rfl, visible⟩

/-- With enough fuel the value is found in front of what stands apart from it, and what is found
means the value with its members in order. -/
structure ReadsBack (value : Json) : Prop where
  opens : Opens value.compact.toList
  reads : ∀ fuel rest offset, 2 * value.compact.toList.length ≤ fuel → Apart rest →
    ∃ written stop,
      scanValue fuel ⟨value.compact.toList ++ rest, offset⟩ = some (written, ⟨rest, stop⟩) ∧
        ∀ depth, value.nesting ≤ depth → written.valueWithin depth = some value.sorted

/-- The items are found in front of the closing bracket. -/
structure ItemsReadBack (items : List Json) : Prop where
  opens : Opens (compactItems items).toList
  reads : ∀ fuel rest offset, 2 * (compactItems items).toList.length + 1 ≤ fuel →
    ∃ written stop,
      scanItems fuel ⟨(compactItems items).toList ++ ']' :: rest, offset⟩ =
          some (written, ⟨rest, stop⟩) ∧
        ∀ depth, itemsNesting items ≤ depth →
          itemsWithin depth written = some (sortedItems items)

/-- The members are found in front of the closing brace. -/
structure MembersReadBack (members : List (String × Json)) : Prop where
  opens : Opens (compactMembers members).toList
  reads : ∀ fuel rest offset, 2 * (compactMembers members).toList.length + 1 ≤ fuel →
    ∃ written stop,
      scanMembers fuel ⟨(compactMembers members).toList ++ '\x7d' :: rest, offset⟩ =
          some (written, ⟨rest, stop⟩) ∧
        ∀ depth, membersNesting members ≤ depth →
          membersWithin depth written = some (sortedMembers members)

theorem readsBack_null : ReadsBack .null where
  opens := opens_cons (by decide) (by decide) (by decide) _
  reads := by
    intro fuel rest offset enough apart
    obtain _ | fuel := fuel
    · simp [compact] at enough
    · exact ⟨.null ⟨offset, offset + 4⟩, offset + 4, rfl, fun depth _ => rfl⟩

theorem readsBack_bool (value : Bool) : ReadsBack (.bool value) where
  opens := by cases value <;> exact opens_cons (by decide) (by decide) (by decide) _
  reads := by
    intro fuel rest offset enough apart
    obtain _ | fuel := fuel
    · cases value <;> simp [compact] at enough
    · cases value with
      | true => exact ⟨.bool ⟨offset, offset + 4⟩ true, offset + 4, rfl, fun depth _ => rfl⟩
      | false => exact ⟨.bool ⟨offset, offset + 5⟩ false, offset + 5, rfl, fun depth _ => rfl⟩

theorem readsBack_number {number : Number} (legible : number.Legible) :
    ReadsBack (.number number) where
  opens := by
    obtain ⟨c, others, spelled, leads⟩ := legible.exists_leads
    have visible := number.head_text_visible c (by rw [spelled]; rfl)
    exact ⟨c, others, spelled, visible, leads.ne (by decide), leads.ne (by decide)⟩
  reads := by
    intro fuel rest offset enough apart
    obtain ⟨text, value, takes⟩ := legible.takes
    obtain ⟨stop, scan⟩ := takes rest apart offset
    obtain ⟨c, others, spelled, leads⟩ := legible.exists_leads
    rw [compact] at enough ⊢
    obtain _ | fuel := fuel
    · simp [spelled] at enough
    · refine ⟨.number ⟨offset, stop⟩ text, stop, ?_, fun depth _ => ?_⟩
      · rw [spelled, List.cons_append] at scan ⊢
        rw [scanValue_of_leadsNumber leads, scan, Option.map_some]
      · rw [Written.valueWithin, value]
        rfl

theorem toList_stringText (text : String) :
    (stringText text).toList = '\x22' :: (text.toList.flatMap escapedChar ++ ['\x22']) := by
  rw [stringText, String.toList_ofList, List.cons_append]

theorem opens_stringText (text : String) : Opens (stringText text).toList := by
  rw [toList_stringText]
  exact opens_cons (by decide) (by decide) (by decide) _

theorem readsBack_string (text : String) : ReadsBack (.string text) where
  opens := by
    rw [compact]
    exact opens_stringText text
  reads := by
    intro fuel rest offset enough apart
    obtain ⟨parts, meaning, takes⟩ := takes_stringText text
    obtain ⟨stop, scan⟩ := takes rest offset
    rw [compact] at enough ⊢
    obtain _ | fuel := fuel
    · simp [toList_stringText] at enough
    · refine ⟨.string ⟨offset, stop⟩ parts, stop, ?_, fun depth _ => ?_⟩
      · rw [toList_stringText] at scan ⊢
        exact scanValue_string scan
      · rw [Written.valueWithin, meaning]
        rfl

theorem ReadsBack.items {item : Json} (first : ReadsBack item) : ItemsReadBack [item] where
  opens := by
    rw [compactItems]
    exact first.opens
  reads := by
    intro fuel rest offset enough
    rw [compactItems] at enough ⊢
    obtain _ | fuel := fuel
    · omega
    · obtain ⟨written, stop, scan, means⟩ :=
        first.reads fuel (']' :: rest) offset (by omega) (apart_cons (by decide) rest)
      refine ⟨[written], stop + 1, scanItems_last scan, fun depth deep => ?_⟩
      have value := means depth (by simpa [itemsNesting] using deep)
      simp [itemsWithin, sortedItems, value]

theorem ReadsBack.consItems {item next : Json} {rest : List Json} (first : ReadsBack item)
    (others : ItemsReadBack (next :: rest)) : ItemsReadBack (item :: next :: rest) where
  opens := by
    rw [toList_compactItems]
    exact first.opens.append _
  reads := by
    intro fuel tail offset enough
    obtain ⟨c, chars, spelled, visible, -⟩ := others.opens
    rw [toList_compactItems] at enough ⊢
    simp only [List.length_append, List.length_cons] at enough
    obtain _ | fuel := fuel
    · omega
    · obtain ⟨written, between, scan, means⟩ :=
        first.reads fuel (',' :: ((compactItems (next :: rest)).toList ++ ']' :: tail)) offset
          (by omega) (apart_cons (by decide) _)
      obtain ⟨writtens, stop, scans, meaning⟩ :=
        others.reads fuel tail (between + 1) (by omega)
      refine ⟨written :: writtens, stop, ?_, fun depth deep => ?_⟩
      · rw [spelled] at scan scans ⊢
        rw [List.append_assoc, List.cons_append]
        exact scanItems_comma scan visible scans
      · rw [itemsNesting] at deep
        have value := means depth (by omega)
        have values := meaning depth (by omega)
        rw [itemsWithin, value, values]
        rfl

theorem readsBack_emptyArray : ReadsBack (.array []) where
  opens := opens_cons (by decide) (by decide) (by decide) _
  reads := by
    intro fuel rest offset enough apart
    obtain _ | fuel := fuel
    · simp [compact] at enough
    · refine ⟨_, _, scanValue_emptyArray fuel offset rest, fun depth deep => ?_⟩
      obtain _ | inner := depth
      · simp [nesting] at deep
      · rfl

theorem ItemsReadBack.array {items : List Json} (readBack : ItemsReadBack items) :
    ReadsBack (.array items) where
  opens := by
    rw [compact, String.toList_append, String.toList_append]
    exact opens_cons (by decide) (by decide) (by decide) _
  reads := by
    intro fuel rest offset enough apart
    obtain ⟨c, chars, spelled, visible, opened, -⟩ := readBack.opens
    have text : (compact (.array items)).toList =
        '[' :: ((compactItems items).toList ++ [']']) := by
      rw [compact, String.toList_append, String.toList_append]
      rfl
    rw [text] at enough ⊢
    simp only [List.length_cons, List.length_append, List.length_nil] at enough
    obtain _ | fuel := fuel
    · omega
    · obtain ⟨written, stop, scan, means⟩ :=
        readBack.reads fuel rest (offset + 1) (by omega)
      refine ⟨.array ⟨offset, stop⟩ written, stop, ?_, fun depth deep => ?_⟩
      · rw [List.cons_append, List.append_assoc, List.singleton_append]
        rw [spelled] at scan ⊢
        exact scanValue_array visible opened scan
      · rw [nesting] at deep
        obtain _ | inner := depth
        · omega
        · rw [Written.valueWithin, means inner (by omega)]
          rfl

theorem ReadsBack.members {value : Json} (name : String) (first : ReadsBack value) :
    MembersReadBack [(name, value)] where
  opens := by
    rw [compactMembers, String.toList_append, String.toList_append, List.append_assoc]
    exact (opens_stringText name).append _
  reads := by
    intro fuel rest offset enough
    obtain ⟨parts, meaning, takes⟩ := takes_stringText name
    obtain ⟨c, chars, spelled, visible, -⟩ := first.opens
    have text : (compactMembers [(name, value)]).toList =
        (stringText name).toList ++ ':' :: value.compact.toList := by
      rw [compactMembers, String.toList_append, String.toList_append, List.append_assoc]
      rfl
    rw [text] at enough ⊢
    simp only [List.length_cons, List.length_append] at enough
    obtain _ | fuel := fuel
    · omega
    · obtain ⟨between, named⟩ :=
        takes (':' :: (value.compact.toList ++ '\x7d' :: rest)) offset
      obtain ⟨written, stop, scan, means⟩ :=
        first.reads fuel ('\x7d' :: rest) (between + 1) (by omega) (apart_cons (by decide) rest)
      refine ⟨[(⟨⟨offset, between⟩, parts⟩, written)], stop + 1, ?_, fun depth deep => ?_⟩
      · rw [List.append_assoc, List.cons_append]
        rw [spelled] at named scan ⊢
        exact scanMembers_last named visible scan
      · have item := means depth (by simpa [membersNesting] using deep)
        simp [membersWithin, sortedMembers, meaning, item]

theorem ReadsBack.consMembers {value : Json} {next : String × Json}
    {rest : List (String × Json)} (name : String) (first : ReadsBack value)
    (others : MembersReadBack (next :: rest)) :
    MembersReadBack ((name, value) :: next :: rest) where
  opens := by
    rw [toList_compactMembers]
    exact (opens_stringText name).append _
  reads := by
    intro fuel tail offset enough
    obtain ⟨parts, meaning, takes⟩ := takes_stringText name
    obtain ⟨c, chars, spelled, visible, -⟩ := first.opens
    obtain ⟨d, following, onward, apparent, -⟩ := others.opens
    rw [toList_compactMembers] at enough ⊢
    simp only [List.length_append, List.length_cons] at enough
    let behind := ',' :: ((compactMembers (next :: rest)).toList ++ '\x7d' :: tail)
    obtain _ | fuel := fuel
    · omega
    · obtain ⟨between, named⟩ := takes (':' :: (value.compact.toList ++ behind)) offset
      obtain ⟨written, reached, scan, means⟩ :=
        first.reads fuel behind (between + 1) (by omega) (apart_cons (by decide) _)
      obtain ⟨writtens, stop, scans, meanings⟩ :=
        others.reads fuel tail (reached + 1) (by omega)
      refine ⟨(⟨⟨offset, between⟩, parts⟩, written) :: writtens, stop, ?_, fun depth deep => ?_⟩
      · simp only [List.append_assoc, List.cons_append]
        rw [spelled, List.cons_append] at named scan
        simp only [behind, onward, List.cons_append] at named scan scans
        rw [spelled, onward]
        exact scanMembers_comma named visible scan apparent scans
      · rw [membersNesting] at deep
        have item := means depth (by omega)
        have items := meanings depth (by omega)
        simp [membersWithin, sortedMembers, meaning, item, items]

theorem readsBack_emptyObject : ReadsBack (.object []) where
  opens := opens_cons (by decide) (by decide) (by decide) _
  reads := by
    intro fuel rest offset enough apart
    obtain _ | fuel := fuel
    · simp [compact] at enough
    · refine ⟨_, _, scanValue_emptyObject fuel offset rest, fun depth deep => ?_⟩
      obtain _ | inner := depth
      · simp [nesting] at deep
      · rfl

theorem MembersReadBack.object {members : List (String × Json)}
    (readBack : MembersReadBack members) : ReadsBack (.object members) where
  opens := by
    rw [compact, String.toList_append, String.toList_append]
    exact opens_cons (by decide) (by decide) (by decide) _
  reads := by
    intro fuel rest offset enough apart
    obtain ⟨c, chars, spelled, visible, -, opened⟩ := readBack.opens
    have text : (compact (.object members)).toList =
        '\x7b' :: ((compactMembers members).toList ++ ['\x7d']) := by
      rw [compact, String.toList_append, String.toList_append]
      rfl
    rw [text] at enough ⊢
    simp only [List.length_cons, List.length_append, List.length_nil] at enough
    obtain _ | fuel := fuel
    · omega
    · obtain ⟨written, stop, scan, means⟩ :=
        readBack.reads fuel rest (offset + 1) (by omega)
      refine ⟨.object ⟨offset, stop⟩ written, stop, ?_, fun depth deep => ?_⟩
      · rw [List.cons_append, List.append_assoc, List.singleton_append]
        rw [spelled] at scan ⊢
        exact scanValue_object visible opened scan
      · rw [nesting] at deep
        obtain _ | inner := depth
        · omega
        · rw [Written.valueWithin, means inner (by omega)]
          rfl

mutual

/-- A value whose numbers are legible is found in front of whatever stands apart from it. -/
theorem readsBack :
    (value : Json) → (∀ number ∈ value.numbers, number.Legible) → ReadsBack value
  | .null, _ => readsBack_null
  | .bool value, _ => readsBack_bool value
  | .number value, legible => readsBack_number (legible value (by simp [numbers]))
  | .string text, _ => readsBack_string text
  | .array [], _ => readsBack_emptyArray
  | .array (item :: rest), legible => by
      rw [numbers] at legible
      exact (itemsReadBack (item :: rest) (List.cons_ne_nil _ _) legible).array
  | .object [], _ => readsBack_emptyObject
  | .object (member :: rest), legible => by
      rw [numbers] at legible
      exact (membersReadBack (member :: rest) (List.cons_ne_nil _ _) legible).object

theorem itemsReadBack : (items : List Json) → items ≠ [] →
    (∀ number ∈ itemsNumbers items, number.Legible) → ItemsReadBack items
  | [], nonempty, _ => absurd rfl nonempty
  | [item], _, legible => by
      rw [itemsNumbers, List.forall_mem_append] at legible
      exact (readsBack item legible.1).items
  | item :: next :: rest, _, legible => by
      rw [itemsNumbers, List.forall_mem_append] at legible
      exact (readsBack item legible.1).consItems
        (itemsReadBack (next :: rest) (List.cons_ne_nil _ _) legible.2)

theorem membersReadBack : (members : List (String × Json)) → members ≠ [] →
    (∀ number ∈ membersNumbers members, number.Legible) → MembersReadBack members
  | [], nonempty, _ => absurd rfl nonempty
  | [(name, value)], _, legible => by
      rw [membersNumbers, List.forall_mem_append] at legible
      exact (readsBack value legible.1).members name
  | (name, value) :: next :: rest, _, legible => by
      rw [membersNumbers, List.forall_mem_append] at legible
      exact (readsBack value legible.1).consMembers name
        (membersReadBack (next :: rest) (List.cons_ne_nil _ _) legible.2)

end

/-- The text of a value reads back as the value with the members of every object in ascending
order, if the value is not nested too deeply and its numbers are legible. -/
theorem ofText?_compact {value : Json} (bounded : Bounded Number.Legible deepestNesting value) :
    ofText? value.compact = some value.sorted := by
  obtain ⟨⟨c, others, spelled, visible, -⟩, reads⟩ := readsBack value bounded.numbers
  have start : skipBlanks (Cursor.ofText value.compact) = ⟨value.compact.toList, 0⟩ := by
    rw [Cursor.ofText, spelled]
    exact skipBlanks_cons visible others 0
  obtain ⟨written, stop, scan, means⟩ :=
    reads (2 * value.compact.toList.length + 2) [] 0 (by omega) apart_nil
  rw [List.append_nil] at scan
  have read : Written.ofText? value.compact = some written := by
    simp only [Written.ofText?, start, scan]
    rfl
  rw [ofText?, read, Option.bind_some]
  exact means deepestNesting bounded.nesting

end ScriptAnalysis.Json
