import ScriptAnalysis.Engine.Delimiter

/-!
# Balance and nesting

The brackets of a script are a word over three pairs. `Bracket.WellNested` is the grammar of
the words in which every bracket has its partner, and `Bracket.Closes` says of the rest of a
script that it fits behind brackets which are open. A step of the balance check keeps what
closes the stack (`Balance.step_silent_iff`), so the check is silent on the balanced
scripts and on no others, whatever it does after a mismatch.
-/

namespace ScriptAnalysis

namespace Token

/-- The bracket that the token is, if it is one. -/
def bracket? (token : Token) : Option Char :=
  match token.kind with
  | .punctuation c => if c ∈ ['(', ')', '[', ']', '\x7b', '\x7d'] then some c else none
  | _ => none

/-- The token is a literal or a comment without an end. -/
def IsUnterminated (token : Token) : Prop :=
  token.kind = .string false ∨ token.kind = .template false ∨ token.kind = .openComment

instance (token : Token) : Decidable token.IsUnterminated :=
  inferInstanceAs (Decidable (_ ∨ _ ∨ _))

theorem bracket?_of_opener {token : Token} {bracket : Bracket}
    (kind : token.kind = .punctuation bracket.opener) : token.bracket? = some bracket.opener := by
  rw [Token.bracket?, kind]
  cases bracket <;> rfl

theorem bracket?_of_closer {token : Token} {bracket : Bracket}
    (kind : token.kind = .punctuation bracket.closer) : token.bracket? = some bracket.closer := by
  rw [Token.bracket?, kind]
  cases bracket <;> rfl

end Token

namespace Bracket

/-- Words in which every bracket is closed by its own partner after a word of the same kind:
`word ::= empty | opener word closer word`. -/
inductive WellNested : List Char → Prop where
  | empty : WellNested []
  | pair (bracket : Bracket) {inner rest : List Char} (nested : WellNested inner)
      (later : WellNested rest) : WellNested (bracket.opener :: inner ++ bracket.closer :: rest)

/-- What may follow while brackets are open, the innermost first: their closers in this order,
with well-nested words before, between and after them. -/
def Closes : List Bracket → List Char → Prop
  | [], word => WellNested word
  | bracket :: outer, word =>
      ∃ inner rest, word = inner ++ bracket.closer :: rest ∧ WellNested inner ∧ Closes outer rest

theorem ofOpener?_eq_some_iff {c : Char} {bracket : Bracket} :
    ofOpener? c = some bracket ↔ c = bracket.opener := by
  constructor
  · intro found
    cases bracket <;> grind [ofOpener?, opener]
  · rintro rfl
    exact ofOpener?_opener bracket

theorem ofCloser?_eq_some_iff {c : Char} {bracket : Bracket} :
    ofCloser? c = some bracket ↔ c = bracket.closer := by
  constructor
  · intro found
    cases bracket <;> grind [ofCloser?, closer]
  · rintro rfl
    exact ofCloser?_closer bracket

theorem opener_injective {left right : Bracket} (same : left.opener = right.opener) :
    left = right := by
  have found := ofOpener?_opener right
  rw [← same, ofOpener?_opener] at found
  exact Option.some.inj found

theorem closer_injective {left right : Bracket} (same : left.closer = right.closer) :
    left = right := by
  have found := ofCloser?_closer right
  rw [← same, ofCloser?_closer] at found
  exact Option.some.inj found

/-- No character opens one pair and closes another. -/
theorem opener_ne_closer (left right : Bracket) : left.opener ≠ right.closer := by
  cases left <;> cases right <;> decide

/-- A well-nested word that begins with an opener has its partner. -/
theorem wellNested_opener_iff {bracket : Bracket} {word : List Char} :
    WellNested (bracket.opener :: word) ↔ Closes [bracket] word := by
  constructor
  · intro nested
    generalize whole : bracket.opener :: word = text at nested
    cases nested with
    | empty => cases whole
    | pair other nested later =>
        rw [List.cons_append, List.cons.injEq] at whole
        obtain ⟨opens, rfl⟩ := whole
        cases opener_injective opens
        exact ⟨_, _, rfl, nested, later⟩
  · rintro ⟨inner, rest, rfl, nested, later⟩
    exact .pair bracket nested later

/-- No well-nested word begins with a closer. -/
theorem not_wellNested_closer (bracket : Bracket) (word : List Char) :
    ¬ WellNested (bracket.closer :: word) := by
  intro nested
  generalize whole : bracket.closer :: word = text at nested
  cases nested with
  | empty => cases whole
  | pair other nested later =>
      rw [List.cons_append, List.cons.injEq] at whole
      exact opener_ne_closer other bracket whole.1.symm

/-- The end of a script closes nothing. -/
theorem closes_nil_iff {opened : List Bracket} : Closes opened [] ↔ opened = [] := by
  cases opened with
  | nil => simp [Closes, WellNested.empty]
  | cons bracket outer => simp [Closes]

/-- An opener adds to what must be closed. -/
theorem closes_opener_iff {bracket : Bracket} {opened : List Bracket} {word : List Char} :
    Closes opened (bracket.opener :: word) ↔ Closes (bracket :: opened) word := by
  cases opened with
  | nil => exact wellNested_opener_iff
  | cons first outer =>
      constructor
      · rintro ⟨inner, rest, whole, nested, later⟩
        cases inner with
        | nil =>
            rw [List.nil_append, List.cons.injEq] at whole
            exact absurd whole.1 (opener_ne_closer bracket first)
        | cons head tail =>
            rw [List.cons_append, List.cons.injEq] at whole
            obtain ⟨rfl, rfl⟩ := whole
            obtain ⟨within, beyond, rfl, deep, shallow⟩ := wellNested_opener_iff.mp nested
            exact ⟨within, beyond ++ first.closer :: rest, by simp, deep, beyond, rest, rfl,
              shallow, later⟩
      · rintro ⟨within, _, rfl, deep, beyond, rest, rfl, shallow, later⟩
        exact ⟨bracket.opener :: within ++ bracket.closer :: beyond, rest, by simp,
          .pair bracket deep shallow, later⟩

/-- A closer closes the innermost bracket, which must be its partner. -/
theorem closes_closer_iff {bracket : Bracket} {opened : List Bracket} {word : List Char} :
    Closes opened (bracket.closer :: word) ↔
      ∃ outer, opened = bracket :: outer ∧ Closes outer word := by
  constructor
  · intro closes
    cases opened with
    | nil => exact absurd closes (not_wellNested_closer bracket word)
    | cons first outer =>
        obtain ⟨inner, rest, whole, nested, later⟩ := closes
        cases inner with
        | nil =>
            rw [List.nil_append, List.cons.injEq] at whole
            obtain ⟨partner, rfl⟩ := whole
            cases closer_injective partner
            exact ⟨outer, rfl, later⟩
        | cons head tail =>
            rw [List.cons_append, List.cons.injEq] at whole
            obtain ⟨rfl, _⟩ := whole
            exact absurd nested (not_wellNested_closer bracket tail)
  · rintro ⟨outer, rfl, closes⟩
    exact ⟨[], word, rfl, .empty, closes⟩

end Bracket

namespace Balance

variable {size : Nat} {token : Token} {opened : List Bracket}

@[simp]
theorem unclosedAt_eq_nil_iff {offset : Nat} : unclosedAt offset opened = [] ↔ opened = [] := by
  simp [unclosedAt]

/-- Closing a bracket is silent, and the rest of the script closes what stays open, exactly if
the closer with that rest closes what was open before. -/
theorem close_silent_iff {bracket : Bracket} {offset : Nat} {word : List Char} :
    (close bracket offset opened).1 = [] ∧ Bracket.Closes (close bracket offset opened).2 word ↔
      Bracket.Closes opened (bracket.closer :: word) := by
  rw [Bracket.closes_closer_iff]
  cases opened with
  | nil => simp [close]
  | cons first outer =>
      by_cases same : first = bracket
      · simp [close, same, unclosedAt]
      · -- The opener above the partner, or the closer without one, is reported.
        have reported : (close bracket offset (first :: outer)).1 ≠ [] := by
          unfold close
          split <;> simp [unclosedAt, same]
        simp [reported, same]

/-- A step is silent, and the rest of the script closes what is open after it, exactly if the
token has an end and closes with that rest what was open before. -/
theorem step_silent_iff {word : List Char} :
    (step size token opened).1 = [] ∧ Bracket.Closes (step size token opened).2 word ↔
      Bracket.Closes opened (token.bracket?.toList ++ word) ∧ ¬ token.IsUnterminated := by
  obtain ⟨kind, start, stop, lexeme⟩ := token
  cases kind with
  | identifier => simp [step, Token.bracket?, Token.IsUnterminated]
  | number => simp [step, Token.bracket?, Token.IsUnterminated]
  | string terminated => cases terminated <;> simp [step, Token.bracket?, Token.IsUnterminated]
  | template terminated => cases terminated <;> simp [step, Token.bracket?, Token.IsUnterminated]
  | openComment => simp [step, Token.IsUnterminated]
  | punctuation c =>
      have ended : ¬ (Token.mk (.punctuation c) start stop lexeme).IsUnterminated := by
        simp [Token.IsUnterminated]
      rw [and_iff_left ended]
      cases opens : Bracket.ofOpener? c with
      | some bracket =>
          have written := Bracket.ofOpener?_eq_some_iff.mp opens
          have shown : (Token.mk (.punctuation c) start stop lexeme).bracket? =
              some bracket.opener := Token.bracket?_of_opener (congrArg _ written)
          rw [shown, Option.toList_some, List.singleton_append, Bracket.closes_opener_iff]
          simp [step, opens]
      | none =>
          cases closes : Bracket.ofCloser? c with
          | some bracket =>
              have written := Bracket.ofCloser?_eq_some_iff.mp closes
              have shown : (Token.mk (.punctuation c) start stop lexeme).bracket? =
                  some bracket.closer := Token.bracket?_of_closer (congrArg _ written)
              have closed : step size ⟨.punctuation c, start, stop, lexeme⟩ opened =
                  close bracket start opened := by simp [step, opens, closes]
              rw [shown, closed, close_silent_iff, Option.toList_some, List.singleton_append]
          | none =>
              have shown : (Token.mk (.punctuation c) start stop lexeme).bracket? = none := by
                grind [Token.bracket?, Bracket.ofOpener?, Bracket.ofCloser?]
              rw [shown]
              simp [step, opens, closes]

/-- The check is silent on the rest of a script exactly if its brackets close what is open and
all its tokens have an end. -/
theorem walk_eq_nil_iff (opened : List Bracket) (tokens : List Token) :
    walk size opened tokens = [] ↔
      Bracket.Closes opened (tokens.filterMap Token.bracket?) ∧
        ∀ token ∈ tokens, ¬ token.IsUnterminated := by
  induction tokens generalizing opened with
  | nil => simp [walk, Bracket.closes_nil_iff]
  | cons token rest inductionHypothesis =>
      have word : (token :: rest).filterMap Token.bracket? =
          token.bracket?.toList ++ rest.filterMap Token.bracket? := by
        cases found : token.bracket? <;> simp [found]
      rw [walk, List.append_eq_nil_iff, inductionHypothesis, ← and_assoc, step_silent_iff, word,
        List.forall_mem_cons, and_assoc]

end Balance

/-- The delimiter engine has nothing to report on a script exactly if its brackets are well
nested and no literal and no comment lacks its end. -/
theorem DelimiterEngine.findings_eq_nil_iff (file : SourcePath) (source : String) :
    findings file source = [] ↔
      Bracket.WellNested ((tokenize source).filterMap Token.bracket?) ∧
        ∀ token ∈ tokenize source, ¬ token.IsUnterminated := by
  rw [findings, List.map_eq_nil_iff, Balance.check, Balance.walk_eq_nil_iff, Bracket.Closes]

end ScriptAnalysis
