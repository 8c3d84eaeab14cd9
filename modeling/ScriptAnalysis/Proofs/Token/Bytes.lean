import ScriptAnalysis.Proofs.Text.Bytes
import ScriptAnalysis.Proofs.Token.Pieces

/-!
# The grammar of tokens on bytes

The bytes of a script are gaps and tokens in turn (`Lexed`): a gap is made of blanks and comments,
and a token is as long as its kind lets it be. Nothing here knows of characters. A scan by
characters gives the same tokens, as all marks are in ASCII and everything beyond ASCII belongs to
names, literals and comments (`tokenize_lexed`).
-/

namespace ScriptAnalysis.ByteGrammar

open Text (byteOf bytes bytes_cons bytes_append)

/-- Space, tab, line feed, form feed and carriage return. -/
def isBlank (b : UInt8) : Bool :=
  b == byteOf ' ' || b == byteOf '\t' || b == byteOf '\n' || b == byteOf '\x0c' ||
    b == byteOf '\r'

def isLetter (b : UInt8) : Bool :=
  (byteOf 'A' ≤ b && b ≤ byteOf 'Z') || (byteOf 'a' ≤ b && b ≤ byteOf 'z')

def isDigit (b : UInt8) : Bool :=
  byteOf '0' ≤ b && b ≤ byteOf '9'

/-- Letters, the underscore, the dollar sign and everything beyond ASCII. -/
def startsName (b : UInt8) : Bool :=
  isLetter b || b == byteOf '_' || b == byteOf '$' || 0x80 ≤ b

def continuesName (b : UInt8) : Bool :=
  startsName b || isDigit b

def continuesNumber (b : UInt8) : Bool :=
  isLetter b || isDigit b || b == byteOf '.' || b == byteOf '_'

/-- The end of the script or of a line. -/
def EndsLine (after : List UInt8) : Prop :=
  after = [] ∨ ∃ rest, after = byteOf '\n' :: rest

/-- Blanks and comments in front of the rest of a script. -/
inductive IsGap : List UInt8 → List UInt8 → Prop where
  | nil (after : List UInt8) : IsGap [] after
  | blank {b : UInt8} {gap after : List UInt8} (blank : isBlank b = true)
      (later : IsGap gap after) : IsGap (b :: gap) after
  | lineComment {body gap after : List UInt8} (unbroken : byteOf '\n' ∉ body)
      (ends : EndsLine (gap ++ after)) (later : IsGap gap after) :
      IsGap (byteOf '/' :: byteOf '/' :: body ++ gap) after
  /-- No end of the comment comes before its last two bytes. -/
  | blockComment {body gap after : List UInt8}
      (firstEnd : ¬ [byteOf '*', byteOf '/'] <:+: body ++ [byteOf '*'])
      (later : IsGap gap after) :
      IsGap (byteOf '/' :: byteOf '*' :: body ++ byteOf '*' :: byteOf '/' :: gap) after

/-- A byte of the first class, and then the longest run of the second. -/
def LongestRun (starts continues : UInt8 → Bool) (lexeme after : List UInt8) : Prop :=
  ∃ first taken, lexeme = first :: taken ∧ starts first = true ∧
    (∀ b ∈ taken, continues b = true) ∧ ∀ b ∈ after.head?, continues b = false

/-- What stands in a literal: a backslash with the next byte, or a byte that is neither a
backslash nor the quote, and no line feed in strings. -/
inductive Units (quote : UInt8) (multiline : Bool) : List UInt8 → Prop where
  | nil : Units quote multiline []
  | escape (escaped : UInt8) {rest : List UInt8} (later : Units quote multiline rest) :
      Units quote multiline (byteOf '\\' :: escaped :: rest)
  | plain {b : UInt8} {rest : List UInt8} (unescaped : b ≠ byteOf '\\') (inside : b ≠ quote)
      (sameLine : b = byteOf '\n' → multiline = true) (later : Units quote multiline rest) :
      Units quote multiline (b :: rest)

/-- A literal behind its opening quote: whether it is closed, what it is, and what follows. -/
inductive Literal (quote : UInt8) (multiline : Bool) :
    Bool → List UInt8 → List UInt8 → Prop where
  | closed {inner : List UInt8} (units : Units quote multiline inner) (after : List UInt8) :
      Literal quote multiline true (inner ++ [quote]) after
  | cut {inner : List UInt8} (units : Units quote multiline inner) (single : multiline = false)
      (rest : List UInt8) : Literal quote multiline false inner (byteOf '\n' :: rest)
  | ended {inner : List UInt8} (units : Units quote multiline inner) :
      Literal quote multiline false inner []
  /-- A backslash at the very end has nothing to escape. -/
  | endedEscape {inner : List UInt8} (units : Units quote multiline inner) :
      Literal quote multiline false (inner ++ [byteOf '\\']) []

/-- A token of a kind in front of the rest of a script. -/
inductive Fits : TokenKind → List UInt8 → List UInt8 → Prop where
  | identifier {lexeme after : List UInt8}
      (run : LongestRun startsName continuesName lexeme after) :
      Fits .identifier lexeme after
  | number {lexeme after : List UInt8} (run : LongestRun isDigit continuesNumber lexeme after) :
      Fits .number lexeme after
  | string {quote : UInt8} {terminated : Bool} {taken after : List UInt8}
      (quotes : quote = byteOf '\x27' ∨ quote = byteOf '\x22')
      (literal : Literal quote false terminated taken after) :
      Fits (.string terminated) (quote :: taken) after
  | template {terminated : Bool} {taken after : List UInt8}
      (literal : Literal (byteOf '\x60') true terminated taken after) :
      Fits (.template terminated) (byteOf '\x60' :: taken) after
  | openComment {body : List UInt8} (endless : ¬ [byteOf '*', byteOf '/'] <:+: body) :
      Fits .openComment (byteOf '/' :: byteOf '*' :: body) []
  /-- A single byte that begins nothing else. -/
  | punctuation {c : Char} {after : List UInt8} (ascii : c.toNat < 128)
      (visible : isBlank (byteOf c) = false) (unnamed : startsName (byteOf c) = false)
      (uncounted : isDigit (byteOf c) = false)
      (unquoted : c ≠ '\x27' ∧ c ≠ '\x22' ∧ c ≠ '\x60')
      (noComment : c = '/' → after.head? ≠ some (byteOf '/') ∧ after.head? ≠ some (byteOf '*')) :
      Fits (.punctuation c) [byteOf c] after

/-- The bytes of a script from an offset are the tokens with gaps before, between and after
them, each token at its place. -/
inductive Lexed : Nat → List Token → List UInt8 → Prop where
  | done {start : Nat} {gap : List UInt8} (isGap : IsGap gap []) : Lexed start [] gap
  | token {start : Nat} {token : Token} {tokens : List Token} {gap after : List UInt8}
      (isGap : IsGap gap (bytes token.lexeme ++ after))
      (starts : token.start = start + gap.length)
      (stops : token.stop = token.start + (bytes token.lexeme).length)
      (fits : Fits token.kind (bytes token.lexeme) after) (later : Lexed token.stop tokens after) :
      Lexed start (token :: tokens) (gap ++ (bytes token.lexeme ++ after))

section Lexed

variable {start : Nat} {tokens : List Token} {lexeme after piece rest : List UInt8}

/-- No token is empty. -/
theorem Fits.ne_nil {kind : TokenKind} (fits : Fits kind lexeme after) : lexeme ≠ [] := by
  cases fits with
  | identifier run =>
      obtain ⟨first, taken, rfl, _⟩ := run
      exact List.cons_ne_nil _ _
  | number run =>
      obtain ⟨first, taken, rfl, _⟩ := run
      exact List.cons_ne_nil _ _
  | _ => exact List.cons_ne_nil _ _

/-- What may stand before every gap that the rest of a script begins with may stand before the
script. -/
theorem Lexed.skip (lengthens : ∀ gap after, gap ++ after = rest → IsGap gap after →
      IsGap (piece ++ gap) after)
    (lexed : Lexed (start + piece.length) tokens rest) : Lexed start tokens (piece ++ rest) := by
  cases lexed with
  | done isGap => exact .done (lengthens rest [] (List.append_nil _) isGap)
  | token isGap starts stops fits later =>
      rw [← List.append_assoc]
      refine .token (lengthens _ _ rfl isGap) ?_ stops fits later
      rw [starts, List.length_append, Nat.add_assoc]

/-- The tokens follow each other, and each takes at least one byte of the script. -/
theorem Lexed.bounds (lexed : Lexed start tokens rest) :
    tokens.Pairwise (fun left right => left.stop ≤ right.start) ∧
      ∀ token ∈ tokens, start ≤ token.start ∧ token.start < token.stop ∧
        token.stop ≤ start + rest.length := by
  induction lexed with
  | done isGap => exact ⟨.nil, fun token member => by cases member⟩
  | @token start token tokens gap after isGap starts stops fits later inductionHypothesis =>
      obtain ⟨apart, inside⟩ := inductionHypothesis
      have some : 0 < (bytes token.lexeme).length := List.length_pos_iff.mpr fits.ne_nil
      refine ⟨.cons (fun other member => (inside other member).1) apart, ?_⟩
      intro other member
      rw [List.length_append, List.length_append]
      rcases List.mem_cons.mp member with rfl | further
      · omega
      · have bound := inside other further
        omega

end Lexed

section Classes

theorem alike_isBlank : Text.Alike Text.isAsciiBlank isBlank := by
  refine Text.alike_of_ascii false (by decide +kernel) (fun c beyond => ?_)
    (by decide +kernel)
  by_contra blank
  simp only [Text.isAsciiBlank, Bool.not_eq_false, Bool.or_eq_true, beq_iff_eq] at blank
  rcases blank with (((rfl | rfl) | rfl) | rfl) | rfl <;> exact absurd beyond (by decide)

theorem alike_startsName : Text.Alike Piece.startsIdentifier startsName := by
  refine Text.alike_of_ascii true (by decide +kernel) (fun c beyond => ?_)
    (by decide +kernel)
  simp [Piece.startsIdentifier, beyond]

/-- No character beyond ASCII is a digit. -/
theorem isDigit_of_wide {c : Char} (beyond : 128 ≤ c.toNat) : c.isDigit = false := by
  refine Bool.eq_false_iff.mpr fun digit => ?_
  have last := (Char.isDigit_iff_toNat.mp digit).2
  exact absurd (beyond.trans last) (by decide)

/-- No character beyond ASCII is one of its letters. -/
theorem isAlpha_of_wide {c : Char} (beyond : 128 ≤ c.toNat) : c.isAlpha = false := by
  refine Bool.eq_false_iff.mpr fun letter => ?_
  have last := (Piece.bounds_of_isAlpha letter).2
  exact absurd (beyond.trans last) (by decide)

theorem alike_isDigit : Text.Alike Char.isDigit isDigit :=
  Text.alike_of_ascii false (by decide +kernel) (fun _ beyond => isDigit_of_wide beyond)
    (by decide +kernel)

theorem alike_continuesName : Text.Alike Piece.continuesIdentifier continuesName := by
  intro c b encodes
  rw [Piece.continuesIdentifier, continuesName, alike_startsName c b encodes,
    alike_isDigit c b encodes]

theorem alike_continuesNumber : Text.Alike Piece.continuesNumber continuesNumber := by
  refine Text.alike_of_ascii false (by decide +kernel) (fun c beyond => ?_)
    (by decide +kernel)
  have named : c ≠ '.' ∧ c ≠ '_' := by
    constructor <;> rintro rfl <;> exact absurd beyond (by decide)
  simp [Piece.continuesNumber, Char.isAlphanum, isAlpha_of_wide beyond, isDigit_of_wide beyond,
    named]

end Classes

section Bytes

variable {chars taken after : List Char} {quote : Char} {multiline terminated : Bool}

/-- A run of ordinary bytes is made of units. -/
theorem units_run {quote : UInt8} {run rest : List UInt8}
    (ordinary : ∀ b ∈ run, b ≠ byteOf '\\' ∧ b ≠ quote ∧ (b = byteOf '\n' → multiline = true))
    (later : Units quote multiline rest) : Units quote multiline (run ++ rest) := by
  induction run with
  | nil => exact later
  | cons b run inductionHypothesis =>
      obtain ⟨unescaped, inside, sameLine⟩ := ordinary b List.mem_cons_self
      exact .plain unescaped inside sameLine
        (inductionHypothesis fun other member => ordinary other (List.mem_cons_of_mem _ member))

/-- Bytes beyond ASCII are ordinary in every literal. -/
theorem ordinary_of_high {a : Char} (ascii : a.toNat < 128) {b : UInt8} (high : 128 ≤ b.toNat) :
    b ≠ byteOf a := by
  rintro rfl
  rw [Text.toNat_byteOf ascii] at high
  omega

/-- The bytes of units are units. A backslash takes the first byte of the escaped character, and
its other bytes are ordinary. -/
theorem units_bytes (ascii : quote.toNat < 128) (units : Piece.Units quote multiline chars) :
    Units (byteOf quote) multiline (bytes chars) := by
  induction units with
  | nil => exact .nil
  | @escape escaped rest later inductionHypothesis =>
      have spelled : bytes ('\\' :: escaped :: rest) =
          byteOf '\\' :: (String.utf8EncodeChar escaped ++ bytes rest) := rfl
      rw [spelled]
      have shape := Text.encoded escaped
      generalize String.utf8EncodeChar escaped = all at shape
      cases shape with
      | ascii narrow => exact .escape _ inductionHypothesis
      | wide beyond first others high =>
          refine .escape first (units_run (fun b member => ?_) inductionHypothesis)
          have large := high b (List.mem_cons_of_mem _ member)
          exact ⟨ordinary_of_high (by decide) large, ordinary_of_high ascii large,
            fun feed => absurd feed (ordinary_of_high (by decide) large)⟩
  | @plain c rest unescaped inside sameLine later inductionHypothesis =>
      rw [bytes_cons]
      refine units_run (fun b member => ⟨?_, ?_, ?_⟩) inductionHypothesis
      · rintro rfl
        exact unescaped (Text.eq_of_byteOf_mem (by decide) member)
      · rintro rfl
        exact inside (Text.eq_of_byteOf_mem ascii member)
      · rintro rfl
        exact sameLine (Text.eq_of_byteOf_mem (by decide) member)

/-- The bytes of a literal are a literal. -/
theorem literal_bytes (ascii : quote.toNat < 128)
    (literal : Piece.Literal quote multiline terminated taken after) :
    Literal (byteOf quote) multiline terminated (bytes taken) (bytes after) := by
  cases literal with
  | closed units after =>
      rw [bytes_append, bytes_cons, Text.utf8EncodeChar_of_ascii ascii]
      exact .closed (units_bytes ascii units) _
  | cut units multiline rest => exact .cut (units_bytes ascii units) multiline _
  | ended units => exact .ended (units_bytes ascii units)
  | endedEscape units =>
      rw [bytes_append]
      exact .endedEscape (units_bytes ascii units)

/-- The bytes of a longest run are one. -/
theorem longestRun_bytes {starts continues : Char → Bool} {startsByte continuesByte : UInt8 → Bool}
    (startsAlike : Text.Alike starts startsByte)
    (continuesAlike : Text.Alike continues continuesByte)
    {c : Char} (first : starts c = true) (goesOn : continues c = true)
    (run : ∀ next ∈ taken, continues next = true) (ends : Piece.Ends continues after) :
    LongestRun startsByte continuesByte (bytes (c :: taken)) (bytes after) := by
  have all : ∀ b ∈ bytes (c :: taken), continuesByte b = true :=
    continuesAlike.all (List.forall_mem_cons.mpr ⟨goesOn, run⟩)
  have head := startsAlike c
  have shape := Text.encoded c
  rw [bytes_cons] at all ⊢
  generalize String.utf8EncodeChar c = spelled at shape all head ⊢
  obtain ⟨b, others, rfl⟩ : ∃ b others, spelled = b :: others := by
    cases shape <;> exact ⟨_, _, rfl⟩
  refine ⟨b, others ++ bytes taken, rfl, ?_, ?_, continuesAlike.head ends⟩
  · rw [head b List.mem_cons_self, first]
  · exact fun other member => all other (List.mem_cons_of_mem _ member)

/-- Where no comment ends, none ends in bytes. -/
theorem end_infix_of_bytes (inside : [byteOf '*', byteOf '/'] <:+: bytes chars) :
    ['*', '/'] <:+: chars := by
  refine Piece.end_infix_of_spelled (fun c starred => ?_) (fun c slashed => ?_) (fun c => ?_) inside
  · have same := Text.eq_of_byteOf_mem (by decide) starred
    rw [same]
    exact ⟨rfl, rfl⟩
  · exact Text.eq_of_byteOf_mem (by decide) (List.mem_of_mem_head? slashed)
  · have shape := Text.encoded c
    generalize String.utf8EncodeChar c = spelled at shape
    cases shape <;> exact List.cons_ne_nil _ _

theorem endsLine_bytes (ends : Piece.EndsLine after) : EndsLine (bytes after) := by
  rcases ends with rfl | ⟨rest, rfl⟩
  · exact .inl rfl
  · exact .inr ⟨bytes rest, rfl⟩

/-- The bytes of a lexeme fit its kind. -/
theorem fits_bytes {kind : TokenKind} (leads : Piece.Leads (.lexeme kind chars) after) :
    Fits kind (bytes chars) (bytes after) := by
  cases leads with
  | @openComment body endless =>
      exact .openComment fun inside => endless (end_infix_of_bytes inside)
  | @identifier c taken _ starts run ends =>
      have goesOn : Piece.continuesIdentifier c = true := by
        rw [Piece.continuesIdentifier, starts, Bool.true_or]
      exact .identifier
        (longestRun_bytes alike_startsName alike_continuesName starts goesOn run ends)
  | @number c taken _ starts run ends =>
      have goesOn : Piece.continuesNumber c = true := by
        simp [Piece.continuesNumber, Char.isAlphanum, starts]
      exact .number (longestRun_bytes alike_isDigit alike_continuesNumber starts goesOn run ends)
  | @string quote terminated taken _ quotes literal =>
      rcases quotes with rfl | rfl
      · exact .string (.inl rfl) (literal_bytes (by decide) literal)
      · exact .string (.inr rfl) (literal_bytes (by decide) literal)
  | @template terminated taken _ literal =>
      exact .template (literal_bytes (by decide) literal)
  | @punctuation c _ punctuation noComment =>
      obtain ⟨visible, unnamed, uncounted, unquoted⟩ := punctuation
      have ascii : c.toNat < 128 := by
        by_contra beyond
        simp [Piece.startsIdentifier, Nat.le_of_not_lt beyond] at unnamed
      have spelled := Text.utf8EncodeChar_of_ascii ascii
      have member : byteOf c ∈ String.utf8EncodeChar c := by
        rw [spelled]
        exact List.mem_singleton_self _
      have whole : bytes [c] = [byteOf c] := by rw [bytes_cons, spelled]; rfl
      rw [whole]
      refine .punctuation ascii ?_ ?_ ?_ unquoted fun slash => ⟨?_, ?_⟩
      · rw [alike_isBlank c _ member, visible]
      · rw [alike_startsName c _ member, unnamed]
      · rw [alike_isDigit c _ member, uncounted]
      · exact Text.head_bytes_ne (by decide) (noComment slash).1
      · exact Text.head_bytes_ne (by decide) (noComment slash).2

/-- The bytes of a piece without token lengthen every gap that they stand before. -/
theorem isGap_bytes {piece : Piece} {start : Nat} (leads : Piece.Leads piece after)
    (skipped : piece.token? start = none) {gap rest : List UInt8}
    (whole : gap ++ rest = bytes after)
    (isGap : IsGap gap rest) : IsGap (bytes piece.chars ++ gap) rest := by
  cases leads with
  | @blank c blank =>
      have ascii : c.toNat < 128 := by
        simp only [Text.isAsciiBlank, Bool.or_eq_true, beq_iff_eq] at blank
        rcases blank with (((rfl | rfl) | rfl) | rfl) | rfl <;> decide
      have spelled := Text.utf8EncodeChar_of_ascii ascii
      have same := alike_isBlank c (byteOf c) (by rw [spelled]; exact List.mem_singleton_self _)
      have bytes : bytes [c] = [byteOf c] := by rw [bytes_cons, spelled]; rfl
      rw [Piece.chars, bytes]
      exact .blank (same.trans blank) isGap
  | @lineComment body _ unbroken ends =>
      have ends' : EndsLine (gap ++ rest) := by
        rw [whole]
        exact endsLine_bytes ends
      exact .lineComment (Text.byteOf_notMem (by decide) unbroken) ends' isGap
  | @blockComment body firstEnd =>
      have spelled : bytes (body ++ ['*']) = bytes body ++ [byteOf '*'] := bytes_append _ _
      have firstEnd' : ¬ [byteOf '*', byteOf '/'] <:+: bytes body ++ [byteOf '*'] := by
        rw [← spelled]
        exact fun inside => firstEnd (end_infix_of_bytes inside)
      have shape : bytes (Piece.blockComment body).chars ++ gap = byteOf '/' :: byteOf '*' ::
          bytes body ++ byteOf '*' :: byteOf '/' :: gap := by
        rw [Piece.chars, bytes_append, List.append_assoc]
        rfl
      rw [shape]
      exact .blockComment firstEnd' isGap
  | _ => cases skipped

/-- The rest of a script from an offset is lexed in bytes as its characters are scanned. -/
theorem lexed_scan (start : Nat) (script : List Char) :
    Lexed start (Piece.scan start script) (bytes script) := by
  induction script using Piece.script_induction generalizing start with
  | nil =>
      rw [Piece.scan_nil]
      exact .done (.nil [])
  | piece piece after leads inductionHypothesis =>
      have later := inductionHypothesis (start + Text.byteLength piece.chars)
      rw [leads.scan_append, bytes_append]
      cases skipped : piece.token? start with
      | none =>
          rw [← Text.length_bytes] at later ⊢
          exact later.skip fun gap rest whole isGap => isGap_bytes leads skipped whole isGap
      | some token =>
          cases piece with
          | lexeme kind chars =>
              cases skipped
              refine .token (.nil _) rfl ?_ (fits_bytes leads) later
              rw [Text.length_bytes]
          | _ => cases skipped

end Bytes

/-- No token of a script is empty. -/
theorem start_lt_stop_of_mem_tokenize {source : String} {token : Token}
    (member : token ∈ tokenize source) : token.start < token.stop := by
  rw [Piece.tokenize_eq_scan] at member
  exact ((lexed_scan 0 source.toList).bounds.2 token member).2.1

/-- The bytes of every script are its tokens with gaps before, between and after them. The tokens
follow each other and are not empty. -/
theorem tokenize_lexed (source : String) :
    Lexed 0 (tokenize source) source.toUTF8.data.toList ∧
      (tokenize source).Pairwise (fun left right => left.stop ≤ right.start) ∧
      ∀ token ∈ tokenize source, token.start < token.stop ∧ token.stop ≤ source.toUTF8.size := by
  have lexed := lexed_scan 0 source.toList
  rw [← Text.toList_toUTF8] at lexed
  obtain ⟨apart, inside⟩ := lexed.bounds
  refine ⟨lexed, apart, fun token member => ?_⟩
  obtain ⟨_, some, bound⟩ := inside token member
  rw [Array.length_toList, ByteArray.size_data, Nat.zero_add] at bound
  exact ⟨some, bound⟩

end ScriptAnalysis.ByteGrammar
