import Mathlib.Computability.StateTransition
import ScriptAnalysis.Proofs.Token.Bytes

/-!
# Scanning byte by byte

A scanner walks over the bytes of a script and knows nothing of characters (`ByteScanner.step`).
Behind a backslash it skips one byte, so it may go on in the middle of a character. It never leaves
the script (`ByteScanner.position_le_of_reaches`), it halts on every text, and it has found the
tokens of the text then, which are made of whole characters (`ByteScanner.eval_tokenize`). Each run
lemma below takes it over one stretch of the grammar of bytes.
-/

namespace ScriptAnalysis

open Text (byteOf bytes)
open StateTransition (Reaches)

/-- What a token is and which bytes it takes. -/
structure Extent where
  kind : TokenKind
  start : Nat
  stop : Nat
  deriving DecidableEq, Repr

/-- The extent of a token. -/
def Token.extent (token : Token) : Extent :=
  ⟨token.kind, token.start, token.stop⟩

namespace ByteScanner

/-- Tokens that are runs of bytes of one class. -/
inductive Word where
  | name
  | number
  deriving DecidableEq, Repr

namespace Word

def kind : Word → TokenKind
  | .name => .identifier
  | .number => .number

def continues : Word → UInt8 → Bool
  | .name => ByteGrammar.continuesName
  | .number => ByteGrammar.continuesNumber

end Word

/-- What a scanner is in the middle of, with the offset at which that began. -/
inductive Task where
  | between
  | lineComment
  | blockComment (start : Nat)
  | word (word : Word) (start : Nat)
  | literal (quote : UInt8) (multiline : Bool) (start : Nat)
  deriving DecidableEq, Repr

/-- The kind of a literal: those that may go over lines are templates. -/
def literalKind (multiline terminated : Bool) : TokenKind :=
  if multiline then .template terminated else .string terminated

end ByteScanner

/-- A scanner at an offset of a script, with the tokens that it has found. -/
structure ByteScanner where
  task : ByteScanner.Task
  position : Nat
  found : List Extent
  deriving DecidableEq, Repr

namespace ByteScanner

/-- The scanner at the beginning of a script. -/
def start : ByteScanner :=
  ⟨.between, 0, []⟩

/-- Go on with a task some bytes later. -/
def advance (count : Nat) (task : Task) (scanner : ByteScanner) : ByteScanner :=
  { scanner with task := task, position := scanner.position + count }

/-- End a token some bytes later. -/
def finish (count : Nat) (kind : TokenKind) (start : Nat) (scanner : ByteScanner) : ByteScanner :=
  ⟨.between, scanner.position + count,
    scanner.found ++ [⟨kind, start, scanner.position + count⟩]⟩

/-- Take a byte that is in no comment and in no token, with the byte behind it. -/
def begin (b : UInt8) (next : Option UInt8) (scanner : ByteScanner) : ByteScanner :=
  if ByteGrammar.isBlank b then scanner.advance 1 .between
  else if b = byteOf '/' ∧ next = some (byteOf '/') then scanner.advance 0 .lineComment
  else if b = byteOf '/' ∧ next = some (byteOf '*') then
    scanner.advance 2 (.blockComment scanner.position)
  else if ByteGrammar.startsName b then scanner.advance 0 (.word .name scanner.position)
  else if ByteGrammar.isDigit b then scanner.advance 0 (.word .number scanner.position)
  else if b = byteOf '\x27' ∨ b = byteOf '\x22' then
    scanner.advance 1 (.literal b false scanner.position)
  else if b = byteOf '\x60' then scanner.advance 1 (.literal b true scanner.position)
  else scanner.finish 1 (.punctuation (Char.ofNat b.toNat)) scanner.position

/-- Take a byte of a script of the given length, with the byte behind it. -/
def take (length : Nat) (b : UInt8) (next : Option UInt8) (scanner : ByteScanner) :
    ByteScanner :=
  match scanner.task with
  | .between => scanner.begin b next
  | .lineComment =>
      if b = byteOf '\n' then scanner.advance 0 .between else scanner.advance 1 .lineComment
  | .blockComment start =>
      if b = byteOf '*' ∧ next = some (byteOf '/') then scanner.advance 2 .between
      else scanner.advance 1 (.blockComment start)
  | .word word start =>
      if word.continues b then scanner.advance 1 (.word word start)
      else scanner.finish 0 word.kind start
  | .literal quote multiline start =>
      if b = byteOf '\\' then { scanner with position := min (scanner.position + 2) length }
      else if b = byteOf '\n' ∧ multiline = false then
        scanner.finish 0 (literalKind multiline false) start
      else if b = quote then scanner.finish 1 (literalKind multiline true) start
      else scanner.advance 1 (.literal quote multiline start)

/-- End what the scanner is in the middle of, if anything. -/
def close (scanner : ByteScanner) : Option ByteScanner :=
  match scanner.task with
  | .between => none
  | .lineComment => some (scanner.advance 0 .between)
  | .blockComment start => some (scanner.finish 0 .openComment start)
  | .word word start => some (scanner.finish 0 word.kind start)
  | .literal _ multiline start => some (scanner.finish 0 (literalKind multiline false) start)

/-- One step of a scanner over the bytes of a script. At the end it halts. -/
def step (source : List UInt8) (scanner : ByteScanner) : Option ByteScanner :=
  match source[scanner.position]? with
  | none => scanner.close
  | some b => some (scanner.take source.length b source[scanner.position + 1]?)

section Steps

variable {source rest after : List UInt8} {task : Task} {position start length : Nat}
  {found : List Extent} {b quote : UInt8} {next : Option UInt8} {word : Word} {multiline : Bool}

theorem take_between :
    take length b next ⟨.between, position, found⟩ =
      begin b next ⟨.between, position, found⟩ := rfl

theorem take_lineComment :
    take length b next ⟨.lineComment, position, found⟩ =
      if b = byteOf '\n' then ⟨.between, position, found⟩
      else ⟨.lineComment, position + 1, found⟩ := rfl

theorem take_blockComment :
    take length b next ⟨.blockComment start, position, found⟩ =
      if b = byteOf '*' ∧ next = some (byteOf '/') then ⟨.between, position + 2, found⟩
      else ⟨.blockComment start, position + 1, found⟩ := rfl

theorem take_word :
    take length b next ⟨.word word start, position, found⟩ =
      if word.continues b then ⟨.word word start, position + 1, found⟩
      else ⟨.between, position, found ++ [⟨word.kind, start, position⟩]⟩ := rfl

theorem take_literal :
    take length b next ⟨.literal quote multiline start, position, found⟩ =
      if b = byteOf '\\' then ⟨.literal quote multiline start, min (position + 2) length, found⟩
      else if b = byteOf '\n' ∧ multiline = false then
        ⟨.between, position, found ++ [⟨literalKind multiline false, start, position⟩]⟩
      else if b = quote then
        ⟨.between, position + 1, found ++ [⟨literalKind multiline true, start, position + 1⟩]⟩
      else ⟨.literal quote multiline start, position + 1, found⟩ := rfl

theorem drop_after (piece : List UInt8) (there : source.drop position = piece ++ after) :
    source.drop (position + piece.length) = after := by
  rw [← List.drop_drop, there, List.drop_left]

theorem drop_next (there : source.drop position = b :: rest) :
    source.drop (position + 1) = rest :=
  drop_after [b] there

/-- A step where a byte is left takes it. -/
theorem step_of_cons (there : source.drop position = b :: rest) :
    step source ⟨task, position, found⟩ =
      some (take source.length b rest.head? ⟨task, position, found⟩) := by
  have here : source[position]? = some b := by rw [← List.head?_drop, there, List.head?_cons]
  have behind : source[position + 1]? = rest.head? := by
    rw [← List.head?_drop, drop_next there]
  simp only [step, here, behind]

/-- A step at the end closes what is open. -/
theorem step_of_nil (there : source.drop position = []) :
    step source ⟨task, position, found⟩ = close ⟨task, position, found⟩ := by
  have here : source[position]? = none := by rw [← List.head?_drop, there, List.head?_nil]
  simp only [step, here]

theorem reaches_of_cons {taken last : ByteScanner} (there : source.drop position = b :: rest)
    (takes : take source.length b rest.head? ⟨task, position, found⟩ = taken)
    (later : Reaches (step source) taken last) :
    Reaches (step source) ⟨task, position, found⟩ last :=
  Relation.ReflTransGen.head ((step_of_cons there).trans (congrArg some takes)) later

theorem reaches_of_nil {last : ByteScanner} (there : source.drop position = [])
    (closes : close ⟨task, position, found⟩ = some last) :
    Reaches (step source) ⟨task, position, found⟩ last :=
  Relation.ReflTransGen.single ((step_of_nil there).trans closes)

theorem add_length_cons (position : Nat) (b : UInt8) (rest : List UInt8) :
    position + (b :: rest).length = position + 1 + rest.length := by
  rw [List.length_cons, Nat.add_comm rest.length, Nat.add_assoc]

end Steps

section Runs

variable {source body taken after : List UInt8} {position start : Nat} {found : List Extent}
  {quote : UInt8} {multiline terminated : Bool}

/-- A comment up to the end of its line is skipped. -/
theorem reaches_lineComment (there : source.drop position = body ++ after)
    (unbroken : byteOf '\n' ∉ body) (ends : ByteGrammar.EndsLine after) :
    Reaches (step source) ⟨.lineComment, position, found⟩
      ⟨.between, position + body.length, found⟩ := by
  induction body generalizing position with
  | nil =>
      rcases ends with rfl | ⟨rest, rfl⟩
      · exact reaches_of_nil there rfl
      · exact reaches_of_cons there (by rw [take_lineComment, if_pos rfl]; rfl) .refl
  | cons b body inductionHypothesis =>
      rw [List.mem_cons, not_or] at unbroken
      rw [add_length_cons]
      exact reaches_of_cons there (by rw [take_lineComment, if_neg (Ne.symm unbroken.1)])
        (inductionHypothesis (drop_next there) unbroken.2)

/-- A comment up to its first end is skipped. -/
theorem reaches_blockComment
    (there : source.drop position = body ++ byteOf '*' :: byteOf '/' :: after)
    (firstEnd : ¬ [byteOf '*', byteOf '/'] <:+: body ++ [byteOf '*']) :
    Reaches (step source) ⟨.blockComment start, position, found⟩
      ⟨.between, position + body.length + 2, found⟩ := by
  induction body generalizing position with
  | nil =>
      have ends : byteOf '*' = byteOf '*' ∧
          (byteOf '/' :: after).head? = some (byteOf '/') := ⟨rfl, rfl⟩
      exact reaches_of_cons there (by rw [take_blockComment, if_pos ends]; rfl) .refl
  | cons b body inductionHypothesis =>
      have goesOn : ¬ (b = byteOf '*' ∧
          (body ++ byteOf '*' :: byteOf '/' :: after).head? = some (byteOf '/')) := by
        rintro ⟨rfl, slash⟩
        cases body with
        | nil => exact absurd (Option.some.inj slash) (by decide)
        | cons c body =>
            cases slash
            exact firstEnd (List.infix_append [] _ _)
      rw [List.cons_append] at there
      rw [add_length_cons]
      exact reaches_of_cons there (by rw [take_blockComment, if_neg goesOn])
        (inductionHypothesis (drop_next there) fun inside => firstEnd (List.infix_cons inside))

/-- A comment without an end is found at the end of the script. -/
theorem reaches_openComment (there : source.drop position = body)
    (endless : ¬ [byteOf '*', byteOf '/'] <:+: body) :
    Reaches (step source) ⟨.blockComment start, position, found⟩
      ⟨.between, position + body.length,
        found ++ [⟨.openComment, start, position + body.length⟩]⟩ := by
  induction body generalizing position with
  | nil => exact reaches_of_nil there rfl
  | cons b body inductionHypothesis =>
      have goesOn : ¬ (b = byteOf '*' ∧ body.head? = some (byteOf '/')) := by
        rintro ⟨rfl, slash⟩
        obtain ⟨rest, rfl⟩ := List.head?_eq_some_iff.mp slash
        exact endless (List.infix_append [] _ rest)
      rw [add_length_cons]
      exact reaches_of_cons there (by rw [take_blockComment, if_neg goesOn])
        (inductionHypothesis (drop_next there) fun inside => endless (List.infix_cons inside))

/-- A name or a number is found behind its last byte. -/
theorem reaches_word {word : Word} (there : source.drop position = taken ++ after)
    (run : ∀ b ∈ taken, word.continues b = true)
    (ends : ∀ b ∈ after.head?, word.continues b = false) :
    Reaches (step source) ⟨.word word start, position, found⟩
      ⟨.between, position + taken.length,
        found ++ [⟨word.kind, start, position + taken.length⟩]⟩ := by
  induction taken generalizing position with
  | nil =>
      cases after with
      | nil => exact reaches_of_nil there rfl
      | cons b after =>
          have other : ¬ word.continues b = true := Bool.eq_false_iff.mp (ends b rfl)
          exact reaches_of_cons there (by rw [take_word, if_neg other]; rfl) .refl
  | cons b taken inductionHypothesis =>
      obtain ⟨goesOn, run⟩ := List.forall_mem_cons.mp run
      rw [add_length_cons]
      exact reaches_of_cons there (by rw [take_word, if_pos goesOn])
        (inductionHypothesis (drop_next there) run)

/-- What stands in a literal is passed, two bytes at a time behind a backslash. -/
theorem reaches_units {units : List UInt8} (there : source.drop position = units ++ after)
    (inside : ByteGrammar.Units quote multiline units) :
    Reaches (step source) ⟨.literal quote multiline start, position, found⟩
      ⟨.literal quote multiline start, position + units.length, found⟩ := by
  induction inside generalizing position with
  | nil => exact .refl
  | @escape escaped rest _ inductionHypothesis =>
      -- Two bytes are there, so the skip is not cut short by the end of the script.
      have behind : source.drop (position + 2) = rest ++ after :=
        drop_after [byteOf '\\', escaped] there
      have enough : min (position + 2) source.length = position + 2 := by
        have length := congrArg List.length there
        simp only [List.length_drop, List.length_append, List.length_cons] at length
        omega
      rw [add_length_cons, add_length_cons]
      exact reaches_of_cons there (by rw [take_literal, if_pos rfl, enough])
        (inductionHypothesis behind)
  | @plain b rest unescaped inside sameLine _ inductionHypothesis =>
      have goesOn : ¬ (b = byteOf '\n' ∧ multiline = false) := by
        rintro ⟨feed, single⟩
        exact absurd (sameLine feed) (by simp [single])
      rw [add_length_cons]
      exact reaches_of_cons there
        (by rw [take_literal, if_neg unescaped, if_neg goesOn, if_neg inside])
        (inductionHypothesis (drop_next there))

/-- A literal is found behind its closing quote, before a line feed, or at the end of the
script. -/
theorem reaches_literal (quotes : quote ≠ byteOf '\\' ∧ quote ≠ byteOf '\n')
    (there : source.drop position = taken ++ after)
    (literal : ByteGrammar.Literal quote multiline terminated taken after) :
    Reaches (step source) ⟨.literal quote multiline start, position, found⟩
      ⟨.between, position + taken.length,
        found ++ [⟨literalKind multiline terminated, start, position + taken.length⟩]⟩ := by
  cases literal with
  | @closed inner units =>
      rw [List.append_assoc] at there
      have sameLine : ¬ (quote = byteOf '\n' ∧ multiline = false) := fun feed => quotes.2 feed.1
      rw [List.length_append, ← Nat.add_assoc]
      exact .trans (reaches_units there units) (reaches_of_cons (drop_after _ there)
        (by rw [take_literal, if_neg quotes.1, if_neg sameLine, if_pos rfl]; rfl) .refl)
  | cut units single rest =>
      have unescaped : byteOf '\n' ≠ byteOf '\\' := by decide
      have cuts : byteOf '\n' = byteOf '\n' ∧ multiline = false := ⟨rfl, single⟩
      exact .trans (reaches_units there units) (reaches_of_cons (drop_after _ there)
        (by rw [take_literal, if_neg unescaped, if_pos cuts]) .refl)
  | ended units =>
      exact .trans (reaches_units there units) (reaches_of_nil (drop_after _ there) rfl)
  | @endedEscape inner units =>
      rw [List.append_assoc] at there
      have escape : source.drop (position + inner.length) = [byteOf '\\'] := drop_after _ there
      have ended : source.drop (position + inner.length + 1) = [] := drop_next escape
      have clipped : min (position + inner.length + 2) source.length =
          position + inner.length + 1 := by
        have last := congrArg List.length escape
        rw [List.length_drop, List.length_singleton] at last
        omega
      rw [List.length_append, ← Nat.add_assoc]
      exact .trans (reaches_units there units)
        (reaches_of_cons escape (by rw [take_literal, if_pos rfl, clipped])
          (reaches_of_nil ended rfl))

end Runs

section Scripts

variable {source gap lexeme after rest : List UInt8} {position : Nat} {found : List Extent}
  {kind : TokenKind}

/-- Blanks and comments are skipped. -/
theorem reaches_gap (found : List Extent) (isGap : ByteGrammar.IsGap gap after)
    (there : source.drop position = gap ++ after) :
    Reaches (step source) ⟨.between, position, found⟩
      ⟨.between, position + gap.length, found⟩ := by
  induction isGap generalizing position with
  | nil => exact .refl
  | @blank b gap after blank _ inductionHypothesis =>
      rw [add_length_cons]
      exact reaches_of_cons there (by rw [take_between, begin, if_pos blank]; rfl)
        (inductionHypothesis (drop_next there))
  | @lineComment body gap after unbroken ends _ inductionHypothesis =>
      rw [List.append_assoc] at there
      have wholeLine : byteOf '\n' ∉ byteOf '/' :: byteOf '/' :: body := by
        simp only [List.mem_cons, not_or]
        exact ⟨by decide, by decide, unbroken⟩
      have begins : begin (byteOf '/') (some (byteOf '/')) ⟨.between, position, found⟩ =
          ⟨.lineComment, position, found⟩ := rfl
      refine reaches_of_cons there begins (.trans (reaches_lineComment there wholeLine ends) ?_)
      rw [List.length_append, ← Nat.add_assoc]
      exact inductionHypothesis (drop_after _ there)
  | @blockComment body gap after firstEnd _ inductionHypothesis =>
      rw [List.append_assoc, List.cons_append, List.cons_append, List.cons_append,
        List.cons_append] at there
      have inner : source.drop (position + 2) =
          body ++ byteOf '*' :: byteOf '/' :: (gap ++ after) :=
        drop_after [byteOf '/', byteOf '*'] there
      have behind : source.drop (position + 2 + body.length + 2) = gap ++ after :=
        drop_after [byteOf '*', byteOf '/'] (drop_after _ inner)
      have begins : begin (byteOf '/') (some (byteOf '*')) ⟨.between, position, found⟩ =
          ⟨.blockComment position, position + 2, found⟩ := rfl
      have length : position + (byteOf '/' :: byteOf '*' :: body ++
          byteOf '*' :: byteOf '/' :: gap).length =
            position + 2 + body.length + 2 + gap.length := by
        simp only [List.cons_append, List.length_append, List.length_cons]
        omega
      rw [length]
      exact reaches_of_cons there begins
        (.trans (reaches_blockComment inner firstEnd) (inductionHypothesis behind))

/-- There are few enough bytes to look at all of them. -/
theorem forall_of_code {property : UInt8 → Prop}
    (all : ∀ code < 256, property (UInt8.ofNat code)) (b : UInt8) : property b := by
  rw [← UInt8.ofNat_toNat (x := b)]
  exact all b.toNat (UInt8.toNat_lt b)

/-- A byte of a name is neither blank nor a slash. -/
theorem visible_of_startsName : ∀ b, ByteGrammar.startsName b = true →
    ByteGrammar.isBlank b = false ∧ b ≠ byteOf '/' :=
  forall_of_code (by decide +kernel)

/-- Nor is a digit, and it begins no name. -/
theorem visible_of_isDigit : ∀ b, ByteGrammar.isDigit b = true →
    ByteGrammar.isBlank b = false ∧ b ≠ byteOf '/' ∧ ByteGrammar.startsName b = false :=
  forall_of_code (by decide +kernel)

/-- What is neither blank nor a comment is told from its first byte alone. -/
theorem begin_of_visible {b : UInt8} {next : Option UInt8}
    (visible : ByteGrammar.isBlank b = false)
    (noComment : b = byteOf '/' → next ≠ some (byteOf '/') ∧ next ≠ some (byteOf '*')) :
    begin b next ⟨.between, position, found⟩ =
      if ByteGrammar.startsName b then ⟨.word .name position, position, found⟩
      else if ByteGrammar.isDigit b then ⟨.word .number position, position, found⟩
      else if b = byteOf '\x27' ∨ b = byteOf '\x22' then
        ⟨.literal b false position, position + 1, found⟩
      else if b = byteOf '\x60' then ⟨.literal b true position, position + 1, found⟩
      else ⟨.between, position + 1,
        found ++ [⟨.punctuation (Char.ofNat b.toNat), position, position + 1⟩]⟩ := by
  have noLine : ¬ (b = byteOf '/' ∧ next = some (byteOf '/')) :=
    fun ⟨slash, second⟩ => (noComment slash).1 second
  have noBlock : ¬ (b = byteOf '/' ∧ next = some (byteOf '*')) :=
    fun ⟨slash, second⟩ => (noComment slash).2 second
  rw [begin, if_neg (Bool.eq_false_iff.mp visible), if_neg noLine, if_neg noBlock]
  rfl

/-- A name or a number is found from its first byte on. -/
theorem reaches_run (word : Word) {starts : UInt8 → Bool}
    (run : ByteGrammar.LongestRun starts word.continues lexeme after)
    (goesOn : ∀ b, starts b = true → word.continues b = true)
    (begins : ∀ b next, starts b = true →
      begin b next ⟨.between, position, found⟩ = ⟨.word word position, position, found⟩)
    (there : source.drop position = lexeme ++ after) :
    Reaches (step source) ⟨.between, position, found⟩
      ⟨.between, position + lexeme.length,
        found ++ [⟨word.kind, position, position + lexeme.length⟩]⟩ := by
  obtain ⟨first, taken, rfl, firstStarts, others, ends⟩ := run
  exact reaches_of_cons there (begins first _ firstStarts)
    (reaches_word there (List.forall_mem_cons.mpr ⟨goesOn first firstStarts, others⟩) ends)

/-- A token is found from its first byte on. -/
theorem reaches_token (found : List Extent) (fits : ByteGrammar.Fits kind lexeme after)
    (there : source.drop position = lexeme ++ after) :
    Reaches (step source) ⟨.between, position, found⟩
      ⟨.between, position + lexeme.length,
        found ++ [⟨kind, position, position + lexeme.length⟩]⟩ := by
  cases fits with
  | identifier run =>
      refine reaches_run .name run ?_ ?_ there
      · intro b starts
        exact Bool.or_eq_true_iff.mpr (.inl starts)
      · intro b next starts
        obtain ⟨visible, solid⟩ := visible_of_startsName b starts
        rw [begin_of_visible visible fun slash => absurd slash solid, if_pos starts]
  | number run =>
      refine reaches_run .number run ?_ ?_ there
      · intro b digit
        simp [Word.continues, ByteGrammar.continuesNumber, digit]
      · intro b next digit
        obtain ⟨visible, solid, unnamed⟩ := visible_of_isDigit b digit
        rw [begin_of_visible visible fun slash => absurd slash solid,
          if_neg (Bool.eq_false_iff.mp unnamed), if_pos digit]
  | @string quote terminated taken _ quotes literal =>
      have ordinary : quote ≠ byteOf '\\' ∧ quote ≠ byteOf '\n' := by
        rcases quotes with rfl | rfl <;> decide
      have begins : begin quote (taken ++ after).head? ⟨.between, position, found⟩ =
          ⟨.literal quote false position, position + 1, found⟩ := by
        rcases quotes with rfl | rfl <;> rfl
      rw [add_length_cons]
      exact reaches_of_cons there begins (reaches_literal ordinary (drop_next there) literal)
  | template literal =>
      have ordinary : byteOf '\x60' ≠ byteOf '\\' ∧ byteOf '\x60' ≠ byteOf '\n' := by decide
      rw [add_length_cons]
      exact reaches_of_cons there rfl (reaches_literal ordinary (drop_next there) literal)
  | @openComment body endless =>
      rw [List.append_nil] at there
      rw [add_length_cons, add_length_cons]
      exact reaches_of_cons there rfl
        (reaches_openComment (drop_after [byteOf '/', byteOf '*'] there) endless)
  | @punctuation c _ ascii visible unnamed uncounted unquoted noComment =>
      have other : ∀ a : Char, a.toNat < 128 → byteOf c = byteOf a → c = a := by
        intro a narrow same
        rw [← Char.toNat_inj, ← Text.toNat_byteOf ascii, same, Text.toNat_byteOf narrow]
      rw [List.singleton_append] at there
      have unquotedByte : ¬ (byteOf c = byteOf '\x27' ∨ byteOf c = byteOf '\x22') := by
        rintro (single | double)
        · exact unquoted.1 (other _ (by decide) single)
        · exact unquoted.2.1 (other _ (by decide) double)
      have noTemplate : byteOf c ≠ byteOf '\x60' := fun back =>
        unquoted.2.2 (other _ (by decide) back)
      refine reaches_of_cons there ?_ .refl
      rw [take_between, begin_of_visible visible fun slash => noComment (other _ (by decide) slash),
        if_neg (Bool.eq_false_iff.mp unnamed), if_neg (Bool.eq_false_iff.mp uncounted),
        if_neg unquotedByte, if_neg noTemplate, Text.toNat_byteOf ascii, Char.ofNat_toNat]
      rfl

/-- The tokens of the rest of a script are found in it. -/
theorem reaches_lexed (found : List Extent) {tokens : List Token}
    (lexed : ByteGrammar.Lexed position tokens rest) (there : source.drop position = rest) :
    Reaches (step source) ⟨.between, position, found⟩
      ⟨.between, position + rest.length, found ++ tokens.map Token.extent⟩ := by
  induction lexed generalizing found with
  | @done position gap isGap =>
      rw [List.map_nil, List.append_nil]
      exact reaches_gap found isGap (there.trans (List.append_nil gap).symm)
  | @token position token tokens gap after isGap starts stops fits _ inductionHypothesis =>
      have first := drop_after _ there
      have behind := drop_after _ first
      rw [← starts, ← stops] at behind
      have shown : (⟨token.kind, position + gap.length,
          position + gap.length + (bytes token.lexeme).length⟩ : Extent) = token.extent := by
        rw [← starts, ← stops]
        rfl
      have tokenFound := reaches_token found fits first
      rw [shown, ← starts, ← stops] at tokenFound
      have gapPassed := reaches_gap found isGap there
      rw [← starts] at gapPassed
      have length : position + (gap ++ (bytes token.lexeme ++ after)).length =
          token.stop + after.length := by
        rw [stops, starts, List.length_append, List.length_append, ← Nat.add_assoc,
          ← Nat.add_assoc]
      rw [length, List.map_cons, ← List.singleton_append, ← List.append_assoc]
      exact .trans gapPassed (.trans tokenFound (inductionHypothesis _ behind))

/-- Taking a byte does not lead out of a script, as two bytes are taken only where a second one was
seen. -/
theorem position_take_le {length : Nat} {b : UInt8} {next : Option UInt8} {scanner : ByteScanner}
    (here : scanner.position < length)
    (behind : ∀ second, next = some second → scanner.position + 1 < length) :
    (take length b next scanner).position ≤ length := by
  obtain ⟨task, position, found⟩ := scanner
  simp only at here behind
  cases task with
  | between =>
      rw [take_between, begin]
      split
      · exact here
      split
      · exact Nat.le_of_lt here
      split
      · next marks => exact behind _ marks.2
      · repeat' split
        all_goals simp only [advance, finish]; omega
  | lineComment =>
      rw [take_lineComment]
      split
      all_goals simp only; omega
  | blockComment start =>
      rw [take_blockComment]
      split
      · next ends => exact behind _ ends.2
      · exact here
  | word word start =>
      rw [take_word]
      split
      all_goals simp only; omega
  | literal quote multiline start =>
      rw [take_literal]
      repeat' split
      all_goals simp only; omega

/-- No step leads out of the script. -/
theorem position_step_le {scanner next : ByteScanner} (inside : scanner.position ≤ source.length)
    (steps : step source scanner = some next) : next.position ≤ source.length := by
  rw [step] at steps
  split at steps
  · obtain ⟨task, position, found⟩ := scanner
    cases task <;> cases steps <;> exact inside
  · next b here =>
      cases steps
      refine position_take_le (List.getElem?_eq_some_iff.mp here).1 fun second behind => ?_
      exact (List.getElem?_eq_some_iff.mp behind).1

/-- So no run does. -/
theorem position_le_of_reaches {scanner : ByteScanner}
    (runs : Reaches (step source) start scanner) : scanner.position ≤ source.length := by
  induction runs with
  | refl => exact Nat.zero_le _
  | tail _ steps inductionHypothesis => exact position_step_le inductionHypothesis steps

/-- On every text the scanner halts at the end and has found the tokens of the text. -/
theorem eval_tokenize (source : String) :
    ⟨.between, source.toUTF8.size, (tokenize source).map Token.extent⟩ ∈
      StateTransition.eval (step source.toUTF8.data.toList) start := by
  have lexed := ByteGrammar.lexed_scan 0 source.toList
  rw [← Piece.tokenize_eq_scan, ← Text.toList_toUTF8] at lexed
  have runs := reaches_lexed [] lexed rfl
  rw [Nat.zero_add, List.nil_append, Array.length_toList, ByteArray.size_data] at runs
  refine StateTransition.mem_eval.mpr ⟨runs, ?_⟩
  refine step_of_nil (List.drop_of_length_le ?_)
  rw [Array.length_toList, ByteArray.size_data]

/-- Behind the backslash the scanner stands in the middle of a character. -/
example :
    let text := "'\\é'"
    step text.toUTF8.data.toList ⟨.literal (byteOf '\x27') false 0, 1, []⟩ =
        some ⟨.literal (byteOf '\x27') false 0, 3, []⟩ ∧
      Text.dropBytes 3 text.toList = none := by
  decide +kernel

end Scripts

end ByteScanner

end ScriptAnalysis
