import ScriptAnalysis.Engine.Delimiter
import ScriptAnalysis.Proofs.Balance.Alike
import ScriptAnalysis.Proofs.Text.Offsets
import ScriptAnalysis.Proofs.Token.Composition

/-!
# Tokens and the contents of literals and comments

What stands between two quotes or in a comment can be exchanged for any text that does not end the
literal or comment itself: the piece remains one piece (`Piece.Leads.reword_literal`,
`Piece.Leads.reword_comment`), and those before and behind it remain what they are
(`reworded_of_exchange`). So neither brackets nor keywords nor marks of comments have a meaning
there (`tokenize_reworded`).
-/

namespace ScriptAnalysis

namespace Text

/-- The source with a text in place of its bytes from `start` up to `stop`, if both are boundaries
between characters. -/
def splice (start stop : Nat) (text : List Char) (source : String) : Option String :=
  (takeBytes start source.toList).bind fun before =>
    (dropBytes stop source.toList).map fun after => String.ofList (before ++ text ++ after)

/-- Where a place behind these bytes lies then. -/
def displaced (start stop : Nat) (text : List Char) (offset : Nat) : Nat :=
  offset + byteLength text - (stop - start)

theorem splice_of_toList {source : String} {before middle after : List Char}
    (whole : source.toList = before ++ middle ++ after) (text : List Char) :
    splice (byteLength before) (byteLength before + byteLength middle) text source =
      some (String.ofList (before ++ text ++ after)) := by
  have taken : takeBytes (byteLength before) source.toList = some before := by
    rw [whole, List.append_assoc, takeBytes_append]
  have dropped : dropBytes (byteLength before + byteLength middle) source.toList = some after := by
    rw [whole, ← byteLength_append, dropBytes_append]
  rw [splice, taken, dropped, Option.bind_some, Option.map_some]

end Text

/-- The two kinds of comments that come to an end. -/
inductive CommentKind where
  /-- From `//` to the end of the line. -/
  | line
  /-- From `/*` to `*/`. -/
  | block
  deriving DecidableEq, Repr

namespace CommentKind

/-- The piece of a script that a comment with a body is. -/
def piece : CommentKind → List Char → Piece
  | .line => .lineComment
  | .block => .blockComment

/-- The mark before the body. -/
def opening : CommentKind → List Char
  | .line => ['/', '/']
  | .block => ['/', '*']

/-- The mark behind the body. The end of a line is not part of a comment. -/
def closing : CommentKind → List Char
  | .line => []
  | .block => ['*', '/']

theorem chars_piece (kind : CommentKind) (body : List Char) :
    (kind.piece body).chars = kind.opening ++ body ++ kind.closing := by
  cases kind with
  | line => exact (List.append_nil _).symm
  | block => rfl

/-- Comments are no tokens. -/
theorem token?_piece (kind : CommentKind) (body : List Char) (start : Nat) :
    (kind.piece body).token? start = none := by
  cases kind <;> rfl

end CommentKind

/-- A comment with the bytes that its body takes. -/
structure Comment where
  kind : CommentKind
  /-- The offset of the first byte behind the opening mark. -/
  start : Nat
  /-- The offset after the last byte before the end of the line or the closing mark. -/
  stop : Nat
  deriving DecidableEq, Repr

/-- The comment that a piece is at an offset, if it is one. -/
def Piece.comment? (start : Nat) : Piece → Option Comment
  | .lineComment body => some ⟨.line, start + 2, start + 2 + Text.byteLength body⟩
  | .blockComment body => some ⟨.block, start + 2, start + 2 + Text.byteLength body⟩
  | _ => none

/-- The comments of a script. -/
def comments (source : String) : List Comment :=
  (Piece.placed 0 (Piece.ofChars source.toList)).filterMap fun (place, piece) =>
    piece.comment? place

/-- The text may stand in the comment: it has no line feed, or no mark that ends the comment. -/
def Comment.Admits (comment : Comment) (text : List Char) : Prop :=
  match comment.kind with
  | .line => '\n' ∉ text
  | .block => ¬ ['*', '/'] <:+: text

instance (comment : Comment) (text : List Char) : Decidable (comment.Admits text) :=
  match comment with
  | ⟨.line, _, _⟩ => inferInstanceAs (Decidable ('\n' ∉ text))
  | ⟨.block, _, _⟩ => inferInstanceAs (Decidable (¬ ['*', '/'] <:+: text))

namespace Token

/-- The token is a string or a template that has its end. -/
def IsClosed (token : Token) : Prop :=
  token.kind = .string true ∨ token.kind = .template true

/-- The text may stand between the quotes of a literal: it has neither the quote nor a backslash,
and no line feed if the literal is a string. -/
def Admits (token : Token) (text : List Char) : Prop :=
  (∀ quote ∈ token.lexeme.head?, quote ∉ text) ∧ '\\' ∉ text ∧
    (token.kind = .string true → '\n' ∉ text)

instance (token : Token) : Decidable token.IsClosed :=
  inferInstanceAs (Decidable (_ ∨ _))

-- Only the quote of the token is tried, not every character that there is.
instance (token : Token) (text : List Char) : Decidable (token.Admits text) :=
  @instDecidableAnd _ _ (Option.decidableForallMem token.lexeme.head?) inferInstance

/-- The literal with another text between its quotes. -/
def reword (token : Token) (text : List Char) : Token :=
  { token with
    stop := token.start + 1 + Text.byteLength text + 1
    lexeme := token.lexeme.take 1 ++ text ++ token.lexeme.take 1 }

end Token

/-- The checks that go by tokens say the same of two scripts, though not at the same places. -/
structure SameFindings (source other : String) : Prop where
  kinds : (tokenize other).map Token.kind = (tokenize source).map Token.kind
  balance : ∀ file, (DelimiterEngine.findings file other).map (fun found =>
      (found.code, found.message)) =
    (DelimiterEngine.findings file source).map fun found => (found.code, found.message)
  debuggers : ∀ config file,
    (LintRule.noDebugger.check config (Snapshot.capture file other)).length =
      (LintRule.noDebugger.check config (Snapshot.capture file source)).length

/-- A text has come in place of the bytes from `start` up to `stop`, and `there` in place of the
tokens `here`: the tokens before those bytes are the same, those behind them are displaced, and
nothing else is found than before. -/
structure Reworded (source : String) (start stop : Nat) (text : List Char)
    (here there : List Token) (other : String) : Prop where
  spliced : Text.splice start stop text source = some other
  tokens : ∃ earlier later, tokenize source = earlier ++ here ++ later ∧
    tokenize other = earlier ++ there ++ later.map
      (Token.relocate (Text.displaced start stop text)) ∧
    (∀ token ∈ earlier, token.stop ≤ start) ∧ ∀ token ∈ later, stop ≤ token.start
  findings : SameFindings source other

/-- Tokens that are alike at any places. -/
abbrev Token.AlikeAnywhere : Token → Token → Prop :=
  Token.Alike fun _ _ => True

theorem sameFindings_of_alike {source other : String}
    (alike : List.Forall₂ Token.AlikeAnywhere (tokenize source) (tokenize other)) :
    SameFindings source other where
  kinds := map_eq_map_of_forall₂ alike fun _ _ same => same.kind
  balance file := by
    rw [DelimiterEngine.findings, DelimiterEngine.findings, List.map_map, List.map_map]
    refine map_eq_map_of_forall₂ (Balance.alike_walk alike trivial []) fun finding found same => ?_
    rw [Function.comp_apply, Function.comp_apply, same.imbalance]
  debuggers config file := by
    rw [LintRule.noDebugger, List.length_map, List.length_map]
    exact (LintRule.alike_debuggerTokens alike none).length_eq.symm

namespace Piece

section Rewording

variable {quote : Char} {text body after : List Char}

/-- Without the quote and without backslashes any text is made of units. -/
theorem units_of_notMem {multiline : Bool} (inside : quote ∉ text) (unescaped : '\\' ∉ text)
    (sameLine : '\n' ∈ text → multiline = true) : Units quote multiline text := by
  induction text with
  | nil => exact .nil
  | cons c rest inductionHypothesis =>
      rw [List.mem_cons, not_or] at inside unescaped
      refine .plain (Ne.symm unescaped.1) (Ne.symm inside.1) ?_ ?_
      · rintro rfl
        exact sameLine (List.mem_cons_self ..)
      · exact inductionHypothesis inside.2 unescaped.2 fun feed =>
          sameLine (List.mem_cons_of_mem _ feed)

/-- A mark that ends behind a text with a star more ends in the text already. -/
theorem end_infix_of_star (inside : ['*', '/'] <:+: text ++ ['*']) : ['*', '/'] <:+: text := by
  obtain ⟨before, behind, whole⟩ := inside
  cases behind using List.reverseRecOn with
  | nil =>
      have last := congrArg List.getLast? whole
      simp at last
  | append_singleton behind last =>
      rw [← List.append_assoc] at whole
      exact ⟨before, behind, (List.append_inj' whole rfl).1⟩

/-- A closed literal stands in front of a text with any contents that do not end it. -/
theorem Leads.reword_literal {token : Token} (leads : Leads (.lexeme token.kind token.lexeme) after)
    (closed : token.IsClosed) (admits : token.Admits text) :
    ∃ quote inner, token.lexeme = [quote] ++ inner ++ [quote] ∧ Text.byteLength [quote] = 1 ∧
      Leads (.lexeme token.kind ([quote] ++ text ++ [quote])) after := by
  obtain ⟨outside, unescaped, unbroken⟩ := admits
  obtain ⟨kind, start, stop, lexeme⟩ := token
  rcases closed with rfl | rfl
  · obtain ⟨quote, taken, rfl, quotes, literal⟩ := leads.quoted_of_string
    obtain @⟨inner, units⟩ := literal
    have whole : Units quote false text := units_of_notMem (outside quote rfl) unescaped
      fun feed => absurd feed (unbroken rfl)
    refine ⟨quote, inner, rfl, ?_, .string quotes (.closed whole after)⟩
    rcases quotes with rfl | rfl <;> rfl
  · obtain ⟨taken, rfl, literal⟩ := leads.quoted_of_template
    obtain @⟨inner, units⟩ := literal
    have whole : Units backquote true text := units_of_notMem (outside backquote rfl) unescaped
      fun _ => rfl
    exact ⟨backquote, inner, rfl, rfl, .template (.closed whole after)⟩

/-- A comment stands in front of a text with any body that does not end it. -/
theorem Leads.reword_comment {comment : Comment} (leads : Leads (comment.kind.piece body) after)
    (admits : comment.Admits text) : Leads (comment.kind.piece text) after := by
  obtain ⟨kind, start, stop⟩ := comment
  cases kind with
  | line =>
      cases leads with
      | lineComment unbroken ends => exact .lineComment admits ends
  | block =>
      cases leads with
      | blockComment firstEnd =>
          exact .blockComment (fun inside => admits (end_infix_of_star inside)) _

end Rewording

/-- Every comment is one of the pieces. -/
theorem exists_split_of_mem_comments {source : String} {comment : Comment}
    (member : comment ∈ comments source) :
    ∃ front body back, ofChars source.toList = front ++ comment.kind.piece body :: back ∧
      comment.start = Text.byteLength (front.flatMap chars) + 2 ∧
      comment.stop = comment.start + Text.byteLength body := by
  obtain ⟨⟨place, piece⟩, inside, found⟩ := List.mem_filterMap.mp member
  obtain ⟨front, back, whole, rfl⟩ := exists_split_of_mem_placed inside
  rw [Nat.zero_add] at found
  cases piece <;> cases found <;> exact ⟨front, _, back, whole, rfl, rfl⟩

end Piece

section Exchange

variable {source : String} {front back : List Piece} {piece other : Piece}
  {opening body closing text : List Char} {place : Nat}

/-- The tokens of a script around one of its pieces. -/
theorem tokenize_around (whole : Piece.ofChars source.toList = front ++ piece :: back)
    (starts : place = Text.byteLength (front.flatMap Piece.chars)) :
    tokenize source = Piece.tokens 0 front ++ (piece.token? place).toList ++
      Piece.tokens (place + Text.byteLength piece.chars) back := by
  rw [tokenize, whole, Piece.tokens_append, Piece.tokens_cons, Nat.zero_add, List.append_assoc,
    starts]

/-- A piece may be exchanged for one that differs from it in what stands between the same marks. -/
theorem reworded_of_exchange (whole : Piece.ofChars source.toList = front ++ piece :: back)
    (leads : Piece.Leads other (back.flatMap Piece.chars))
    (shape : piece.chars = opening ++ body ++ closing)
    (shape' : other.chars = opening ++ text ++ closing) (begins : opening ≠ [])
    (starts : place = Text.byteLength (front.flatMap Piece.chars))
    (alike : List.Forall₂ Token.AlikeAnywhere (piece.token? place).toList
      (other.token? place).toList) :
    ∃ script, Reworded source (place + Text.byteLength opening)
      (place + Text.byteLength opening + Text.byteLength body) text (piece.token? place).toList
      (other.token? place).toList script := by
  obtain ⟨chain, written⟩ := Piece.ofChars_eq_iff.mp whole
  obtain ⟨mark, marks, rfl⟩ := List.exists_cons_of_ne_nil begins
  have exchanged : Piece.ofChars
      (String.ofList ((front ++ other :: back).flatMap Piece.chars)).toList =
        front ++ other :: back := by
    rw [String.toList_ofList]
    refine (chain.exchange leads ?_).ofChars_flatMap
    rw [List.flatMap_cons, List.flatMap_cons, shape, shape']
    rfl
  have before := tokenize_around whole starts
  have after := tokenize_around exchanged starts
  have follows : ∀ count, Text.displaced (place + Text.byteLength (mark :: marks))
      (place + Text.byteLength (mark :: marks) + Text.byteLength body) text
      (place + Text.byteLength piece.chars + count) =
        place + Text.byteLength other.chars + count := by
    intro count
    rw [Text.displaced, shape, shape']
    simp only [Text.byteLength_append]
    omega
  rw [Piece.tokens_relocate follows] at after
  refine ⟨_, ?_, ⟨_, _, before, after, ?_, ?_⟩, sameFindings_of_alike ?_⟩
  · have cut : source.toList = (front.flatMap Piece.chars ++ (mark :: marks)) ++ body ++
        (closing ++ back.flatMap Piece.chars) := by
      rw [← written, List.flatMap_append, List.flatMap_cons, shape]
      simp only [List.append_assoc]
    have spliced := Text.splice_of_toList cut text
    rw [Text.byteLength_append, ← starts] at spliced
    rw [spliced, List.flatMap_append, List.flatMap_cons, shape']
    simp only [List.append_assoc]
  · intro token member
    have bounds := (Piece.bounds_of_mem_tokens member).2
    rw [Nat.zero_add, ← starts] at bounds
    exact bounds.trans (Nat.le_add_right _ _)
  · intro token member
    refine le_trans ?_ (Piece.bounds_of_mem_tokens member).1
    rw [shape]
    simp only [Text.byteLength_append]
    omega
  · rw [before, after]
    refine List.rel_append (List.rel_append ?_ alike) (List.forall₂_map_right_iff.mpr ?_)
    · exact List.forall₂_same.mpr fun _ _ => ⟨rfl, fun _ => rfl, trivial⟩
    · exact List.forall₂_same.mpr fun _ _ => ⟨rfl, fun _ => rfl, trivial⟩

end Exchange

/-- Between the quotes of a closed literal, in the body of a line comment and in that of a closed
block comment any text that does not end it may be written instead. All other tokens stay what they
are, at their places or behind the exchange as far away from it as before, and the checks find the
same. -/
theorem tokenize_reworded (source : String) (text : List Char) :
    (∀ token ∈ tokenize source, token.IsClosed → token.Admits text →
      ∃ other, Reworded source (token.start + 1) (token.stop - 1) text [token]
        [token.reword text] other) ∧
    ∀ comment ∈ comments source, comment.Admits text →
      ∃ other, Reworded source comment.start comment.stop text [] [] other := by
  constructor
  · intro token member closed admits
    obtain ⟨front, back, whole, starts, stops⟩ := Piece.exists_split_of_mem_tokens member
    obtain ⟨quote, inner, shape, single, leads⟩ :=
      (Piece.leads_of_ofChars whole).reword_literal closed admits
    have here : (Piece.lexeme token.kind token.lexeme).token? token.start = some token := by
      rw [Piece.token?, ← stops]
    have there : (Piece.lexeme token.kind ([quote] ++ text ++ [quote])).token? token.start =
        some (token.reword text) := by
      rw [Piece.token?, Token.reword, shape]
      simp only [Text.byteLength_append, single, ← Nat.add_assoc]
      rw [Nat.add_right_comm]
      rfl
    have alike : token.AlikeAnywhere (token.reword text) := by
      refine ⟨rfl, fun named => ?_, trivial⟩
      rcases closed with kind | kind <;> rw [kind] at named <;> cases named
    rw [Nat.zero_add] at starts
    obtain ⟨script, reworded⟩ := reworded_of_exchange whole leads shape rfl (List.cons_ne_nil _ _)
      starts (by rw [here, there]; exact .cons alike .nil)
    have size : token.stop - 1 = token.start + 1 + Text.byteLength inner := by
      rw [stops, shape, Text.byteLength_append, Text.byteLength_append, single]
      omega
    rw [here, there, single, ← size] at reworded
    exact ⟨script, reworded⟩
  · intro comment member admits
    obtain ⟨front, body, back, whole, starts, stops⟩ := Piece.exists_split_of_mem_comments member
    have leads := (Piece.leads_of_ofChars whole).reword_comment admits
    have opens : Text.byteLength comment.kind.opening = 2 := by cases comment.kind <;> rfl
    have begins : comment.kind.opening ≠ [] := by cases comment.kind <;> exact List.cons_ne_nil _ _
    have same := comment.kind.token?_piece
    obtain ⟨script, reworded⟩ := reworded_of_exchange whole leads
      (comment.kind.chars_piece body) (comment.kind.chars_piece text) begins rfl
      (by rw [same, same]; exact .nil)
    rw [same, same, opens, ← starts, ← stops] at reworded
    exact ⟨script, reworded⟩

/-- A mark that opens a comment is text in a string, and a quote is text in a comment. -/
theorem tokenize_reworded_marks :
    let source := "f('a') // b\n) debugger"
    let literal : Token := ⟨.string true, 2, 5, ['\x27', 'a', '\x27']⟩
    let comment : Comment := ⟨.line, 9, 11⟩
    literal ∈ tokenize source ∧ literal.IsClosed ∧ literal.Admits ['/', '*', '('] ∧
      comment ∈ comments source ∧ comment.Admits ['\x27', '*', '/'] ∧
      (∃ other, Reworded source 3 4 ['/', '*', '('] [literal]
        [⟨.string true, 2, 7, ['\x27', '/', '*', '(', '\x27']⟩] other) ∧
      ∃ other, Reworded source 9 11 ['\x27', '*', '/'] [] [] other := by
  intro source literal comment
  have member : literal ∈ tokenize source := by decide +kernel
  have closed : literal.IsClosed := by decide
  have admits : literal.Admits ['/', '*', '('] := by decide
  have inside : comment ∈ comments source := by decide +kernel
  have admits' : comment.Admits ['\x27', '*', '/'] := by decide
  exact ⟨member, closed, admits, inside, admits',
    (tokenize_reworded source _).1 literal member closed admits,
    (tokenize_reworded source _).2 comment inside admits'⟩

end ScriptAnalysis
