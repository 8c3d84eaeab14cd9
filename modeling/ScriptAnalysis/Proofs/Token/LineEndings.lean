import Mathlib.Data.List.Forall2
import ScriptAnalysis.Proofs.Text.LineEndings
import ScriptAnalysis.Proofs.Token.Pieces

/-!
# Tokens and line endings

With a carriage return before every line feed a script has the same tokens at the same places
(`Piece.scan_returned`): the return goes to the blanks, into the literal or comment that goes on
over the line feed, or to the end of a line comment. A string that goes on over an escaped line
feed is the exception. There the backslash takes the return, and the string ends with its line
(`Piece.exists_cut_string`).
-/

namespace ScriptAnalysis

/-- The token is a string that goes on over a line feed. -/
def Token.IsContinued (token : Token) : Prop :=
  (∃ terminated, token.kind = .string terminated) ∧ '\n' ∈ token.lexeme

namespace Piece

open Text (returned returned_append returned_cons returned_feed returned_of_notMem)

/-- The kind of the token that the piece is, if it is one. -/
def kind? : Piece → Option TokenKind
  | .lexeme kind _ => some kind
  | _ => none

/-- The piece is a string that goes on over a line feed. -/
def IsContinued (piece : Piece) : Prop :=
  ∃ terminated, piece.kind? = some (.string terminated) ∧ '\n' ∈ piece.chars

/-- A blank has no token. -/
theorem scan_blank {c : Char} (blank : Text.isAsciiBlank c = true) (start : Nat)
    (rest : List Char) : scan start (c :: rest) = scan (start + c.utf8Size) rest :=
  (Leads.blank blank rest).scan_append start

section Literals

variable {quote : Char} {multiline terminated : Bool} {left right taken after : List Char}

theorem Units.append (first : Units quote multiline left) (second : Units quote multiline right) :
    Units quote multiline (left ++ right) := by
  induction first with
  | nil => exact second
  | escape escaped _ inductionHypothesis => exact .escape escaped inductionHypothesis
  | plain unescaped inside sameLine _ inductionHypothesis =>
      exact .plain unescaped inside sameLine inductionHypothesis

/-- A carriage return is a unit. -/
theorem units_return (inside : '\r' ≠ quote) (multiline : Bool) : Units quote multiline ['\r'] :=
  .plain (by decide) inside (fun feed => absurd feed (by decide)) .nil

/-- Over several lines a backslash takes the carriage return instead of the line feed, which may
stand there without it. -/
theorem Units.returned (units : Units quote true left) (feed : '\n' ≠ quote)
    (carriage : '\r' ≠ quote) : Units quote true (Text.returned left) := by
  induction units with
  | nil => exact .nil
  | @escape escaped rest later inductionHypothesis =>
      rw [returned_cons (by decide)]
      by_cases breaks : escaped = '\n'
      · rw [breaks, returned_feed]
        exact .escape '\r' (.plain (by decide) feed (fun _ => rfl) inductionHypothesis)
      · rw [returned_cons breaks]
        exact .escape escaped inductionHypothesis
  | @plain c rest unescaped inside sameLine later inductionHypothesis =>
      by_cases breaks : c = '\n'
      · rw [breaks, returned_feed]
        exact (units_return carriage true).append
          (.plain (by decide) feed (fun _ => rfl) inductionHypothesis)
      · rw [returned_cons breaks]
        exact .plain unescaped inside sameLine inductionHypothesis

theorem Literal.returned (literal : Literal backquote true terminated taken after) :
    Literal backquote true terminated (Text.returned taken) (Text.returned after) := by
  cases literal with
  | closed units after =>
      rw [returned_append]
      exact .closed (units.returned (by decide) (by decide)) _
  | cut units single rest => cases single
  | ended units => exact .ended (units.returned (by decide) (by decide))
  | endedEscape units =>
      rw [returned_append]
      exact .endedEscape (units.returned (by decide) (by decide))

/-- A line feed among the units of a string is the first that is escaped. -/
theorem Units.exists_escaped_feed (units : Units quote false left) (feed : '\n' ∈ left) :
    ∃ before rest, left = before ++ '\\' :: '\n' :: rest ∧ '\n' ∉ before ∧
      Units quote false before := by
  induction units with
  | nil => cases feed
  | @escape escaped rest later inductionHypothesis =>
      by_cases breaks : escaped = '\n'
      · exact ⟨[], rest, by rw [breaks]; rfl, List.not_mem_nil, .nil⟩
      · have further : '\n' ∈ rest := by
          rw [List.mem_cons, List.mem_cons] at feed
          exact (feed.resolve_left (by decide)).resolve_left (Ne.symm breaks)
        obtain ⟨before, beyond, rfl, unbroken, whole⟩ := inductionHypothesis further
        refine ⟨'\\' :: escaped :: before, beyond, rfl, ?_, .escape escaped whole⟩
        simp [unbroken, Ne.symm breaks]
  | @plain c rest unescaped inside sameLine later inductionHypothesis =>
      have ordinary : c ≠ '\n' := fun breaks => by cases sameLine breaks
      obtain ⟨before, beyond, rfl, unbroken, whole⟩ :=
        inductionHypothesis ((List.mem_cons.mp feed).resolve_left (Ne.symm ordinary))
      refine ⟨c :: before, beyond, rfl, ?_, .plain unescaped inside sameLine whole⟩
      rw [List.mem_cons, not_or]
      exact ⟨Ne.symm ordinary, unbroken⟩

end Literals

/-- Nothing of a class follows a carriage return more, if the return is not of the class. -/
theorem Ends.returned {inside : Char → Bool} {after : List Char} (ends : Ends inside after)
    (outside : inside '\r' = false) : Ends inside (Text.returned after) := by
  intro next first
  rcases Text.head?_returned first with rfl | head
  · exact outside
  · exact ends next head

/-- A run of a class without line feeds stays as it is. -/
theorem returned_run {inside : Char → Bool} {taken : List Char}
    (run : ∀ next ∈ taken, inside next = true) (outside : inside '\n' = false) :
    Text.returned taken = taken :=
  returned_of_notMem fun feed => by
    have within := run '\n' feed
    rw [outside] at within
    cases within

/-- Returns end no comment. -/
theorem end_infix_of_returned {body : List Char}
    (inside : ['*', '/'] <:+: Text.returned body) : ['*', '/'] <:+: body := by
  refine end_infix_of_spelled (fun c starred => ?_) (fun c slashed => ?_) (fun c => ?_) inside
  · by_cases breaks : c = '\n'
    · simp [breaks] at starred
    · rw [if_neg breaks, List.mem_singleton] at starred
      rw [if_neg breaks, starred]
      exact ⟨rfl, rfl⟩
  · by_cases breaks : c = '\n'
    · simp [breaks] at slashed
    · simpa [breaks] using slashed
  · split <;> exact List.cons_ne_nil _ _

/-- What a script begins with instead of a piece and what follows it, once it has carriage returns:
a piece of the same kind, and behind it a text with the same tokens. -/
structure Counterpart (piece : Piece) (after : List Char) (other : Piece) (beyond : List Char) :
    Prop where
  leads : Leads other beyond
  whole : other.chars ++ beyond = Text.returned (piece.chars ++ after)
  kind : other.kind? = piece.kind?
  name : piece.kind? = some .identifier → other.chars = piece.chars
  scanned : ∀ start, scan (start + Text.byteLength other.chars) beyond =
    scan (start + Text.byteLength (Text.returned piece.chars)) (Text.returned after)

section Counterparts

variable {piece other : Piece} {after rest : List Char}

/-- The returns are put into the piece and into what follows it. -/
theorem counterpart_of_chars (leads : Leads other (Text.returned after))
    (chars : other.chars = Text.returned piece.chars) (kind : other.kind? = piece.kind?)
    (name : piece.kind? = some .identifier → Text.returned piece.chars = piece.chars) :
    Counterpart piece after other (Text.returned after) where
  leads := leads
  whole := by rw [chars, returned_append]
  kind := kind
  name named := by rw [chars, name named]
  scanned start := by rw [chars]

/-- The piece takes the return of the line feed behind it along. -/
theorem counterpart_of_absorbed (leads : Leads other ('\n' :: Text.returned rest))
    (chars : other.chars = Text.returned piece.chars ++ ['\r'])
    (kind : other.kind? = piece.kind?) (unnamed : piece.kind? ≠ some .identifier) :
    Counterpart piece ('\n' :: rest) other ('\n' :: Text.returned rest) where
  leads := leads
  whole := by
    rw [chars, returned_append, returned_feed, List.append_assoc]
    rfl
  kind := kind
  name named := absurd named unnamed
  scanned start := by
    rw [chars, returned_feed, scan_blank (by decide : Text.isAsciiBlank '\r' = true),
      Text.byteLength_append, Nat.add_assoc]
    rfl

end Counterparts

/-- Every piece has a counterpart, unless it is a string that goes on over a line feed. -/
theorem Leads.exists_counterpart {piece : Piece} {after : List Char} (leads : Leads piece after)
    (cut : ¬ piece.IsContinued) : ∃ other beyond, Counterpart piece after other beyond := by
  cases leads with
  | @blank c blank =>
      by_cases breaks : c = '\n'
      · -- The return becomes a blank of its own.
        rw [breaks]
        exact ⟨.blank '\r', '\n' :: Text.returned after, .blank (by decide) _, rfl, rfl,
          (by rintro ⟨⟩), fun start =>
            scan_blank (by decide : Text.isAsciiBlank '\n' = true) _ _⟩
      · have same : Text.returned [c] = [c] := returned_cons breaks []
        exact ⟨_, _, counterpart_of_chars (.blank blank _) same.symm rfl
          (by rintro ⟨⟩)⟩
  | @lineComment body _ unbroken ends =>
      have same : Text.returned ('/' :: '/' :: body) = '/' :: '/' :: body := by
        rw [returned_cons (by decide), returned_cons (by decide), returned_of_notMem unbroken]
      rcases ends with rfl | ⟨rest, rfl⟩
      · exact ⟨_, _, counterpart_of_chars (.lineComment unbroken (.inl rfl)) same.symm rfl
          (by rintro ⟨⟩)⟩
      · have longer : '\n' ∉ body ++ ['\r'] := by simp [unbroken]
        refine ⟨_, _, counterpart_of_absorbed (.lineComment longer (.inr ⟨_, rfl⟩)) ?_ rfl
          (by rintro ⟨⟩)⟩
        rw [chars, chars, same]
        rfl
  | @blockComment body firstEnd =>
      have star : Text.returned body ++ ['*'] = Text.returned (body ++ ['*']) := by
        rw [returned_append]
        rfl
      have firstEnd' : ¬ ['*', '/'] <:+: Text.returned body ++ ['*'] := by
        rw [star]
        exact fun inside => firstEnd (end_infix_of_returned inside)
      refine ⟨_, _, counterpart_of_chars (.blockComment firstEnd' _) ?_ rfl
        (by rintro ⟨⟩)⟩
      rw [chars, chars, returned_append, returned_cons (by decide), returned_cons (by decide)]
      rfl
  | @openComment body endless =>
      have endless' : ¬ ['*', '/'] <:+: Text.returned body :=
        fun inside => endless (end_infix_of_returned inside)
      refine ⟨_, _, counterpart_of_chars (.openComment endless') ?_ rfl
        (by rintro ⟨⟩)⟩
      rw [chars, chars, returned_cons (by decide), returned_cons (by decide)]
  | @identifier c taken _ starts run ends =>
      have letter : c ≠ '\n' := by
        rintro rfl
        revert starts
        decide
      have same : Text.returned (c :: taken) = c :: taken := by
        rw [returned_cons letter, returned_run run (by decide)]
      exact ⟨_, _, counterpart_of_chars (.identifier starts run (ends.returned (by decide)))
        same.symm rfl fun _ => same⟩
  | @number c taken _ starts run ends =>
      have digit : c ≠ '\n' := by
        rintro rfl
        revert starts
        decide
      have same : Text.returned (c :: taken) = c :: taken := by
        rw [returned_cons digit, returned_run run (by decide)]
      exact ⟨_, _, counterpart_of_chars (.number starts run (ends.returned (by decide)))
        same.symm rfl (by rintro ⟨⟩)⟩
  | @string quote terminated taken _ quotes literal =>
      have unbroken : '\n' ∉ quote :: taken := fun feed => cut ⟨terminated, rfl, feed⟩
      have same : Text.returned (quote :: taken) = quote :: taken := returned_of_notMem unbroken
      have carriage : '\r' ≠ quote := by rcases quotes with rfl | rfl <;> decide
      cases literal with
      | closed units =>
          exact ⟨_, _, counterpart_of_chars (.string quotes (.closed units _)) same.symm rfl
            (by rintro ⟨⟩)⟩
      | cut units single rest =>
          refine ⟨_, _, counterpart_of_absorbed
            (.string quotes (.cut (units.append (units_return carriage false)) single _)) ?_ rfl
            (by rintro ⟨⟩)⟩
          rw [chars, chars, same]
          rfl
      | ended units =>
          exact ⟨_, _, counterpart_of_chars (.string quotes (.ended units)) same.symm rfl
            (by rintro ⟨⟩)⟩
      | endedEscape units =>
          exact ⟨_, _, counterpart_of_chars (.string quotes (.endedEscape units)) same.symm rfl
            (by rintro ⟨⟩)⟩
  | @template terminated taken _ literal =>
      refine ⟨_, _, counterpart_of_chars (.template literal.returned) ?_ rfl
        (by rintro ⟨⟩)⟩
      rw [chars, chars, returned_cons (by decide)]
  | @punctuation c _ punctuation noComment =>
      have visible : c ≠ '\n' := by
        rintro rfl
        cases punctuation.visible
      have noComment' : c = '/' → (Text.returned after).head? ≠ some '/' ∧
          (Text.returned after).head? ≠ some '*' := by
        intro slash
        constructor
        · intro first
          exact (noComment slash).1 ((Text.head?_returned first).resolve_left (by decide))
        · intro first
          exact (noComment slash).2 ((Text.head?_returned first).resolve_left (by decide))
      exact ⟨_, _, counterpart_of_chars (.punctuation punctuation noComment')
        (returned_cons visible []).symm rfl (by rintro ⟨⟩)⟩

/-- A token and the one at its place in the script with returns. -/
structure Matches (script : List Char) (token other : Token) : Prop where
  kind : other.kind = token.kind
  name : token.kind = .identifier → other.lexeme = token.lexeme
  place : Text.SamePlace script token.start other.start

theorem token?_eq (piece : Piece) (start : Nat) :
    piece.token? start = piece.kind?.map fun kind =>
      ⟨kind, start, start + Text.byteLength piece.chars, piece.chars⟩ := by
  cases piece <;> rfl

/-- The token of a piece goes on over a line feed exactly if the piece does. -/
theorem isContinued_iff (piece : Piece) (start : Nat) :
    piece.IsContinued ↔ ∃ token ∈ (piece.token? start).toList, token.IsContinued := by
  rw [token?_eq]
  cases kind : piece.kind? with
  | none => simp [IsContinued, kind]
  | some found => simp [IsContinued, Token.IsContinued, kind]

/-- The tokens of counterparts match. -/
theorem Counterpart.matches {piece other : Piece} {before after beyond : List Char}
    (counterpart : Counterpart piece after other beyond) :
    List.Forall₂ (Matches (before ++ (piece.chars ++ after)))
      (piece.token? (Text.byteLength before)).toList
      (other.token? (Text.byteLength (Text.returned before))).toList := by
  have name := counterpart.name
  rw [token?_eq, token?_eq, counterpart.kind]
  cases kind : piece.kind? with
  | none => exact .nil
  | some found =>
      rw [kind, Option.some_inj] at name
      exact .cons ⟨rfl, name, before, _, rfl, rfl, rfl⟩ .nil

/-- Unless a string goes on over a line feed, returns leave all tokens at their places. -/
theorem scan_returned {script : List Char} (before : List Char)
    (cut : ∀ token ∈ scan (Text.byteLength before) script, ¬ token.IsContinued) :
    List.Forall₂ (Matches (before ++ script)) (scan (Text.byteLength before) script)
      (scan (Text.byteLength (Text.returned before)) (Text.returned script)) := by
  induction script using script_induction generalizing before with
  | nil =>
      rw [Text.returned_nil, scan_nil, scan_nil]
      exact .nil
  | piece piece after leads inductionHypothesis =>
      rw [leads.scan_append, ← Text.byteLength_append] at cut ⊢
      have first : ¬ piece.IsContinued := by
        rw [piece.isContinued_iff (Text.byteLength before)]
        rintro ⟨token, here, goesOn⟩
        exact cut token (List.mem_append_left _ here) goesOn
      obtain ⟨other, beyond, counterpart⟩ := leads.exists_counterpart first
      have later := inductionHypothesis (before ++ piece.chars) fun token member =>
        cut token (List.mem_append_right _ member)
      rw [List.append_assoc, returned_append, Text.byteLength_append (returned before),
        ← counterpart.scanned] at later
      rw [← counterpart.whole, counterpart.leads.scan_append]
      exact List.rel_append counterpart.matches later

/-- A closed string that goes on over a line feed does not come to its end once there is a return:
the backslash before the line feed takes the return instead. -/
theorem Leads.exists_cut {piece : Piece} {after : List Char} (leads : Leads piece after)
    (closed : piece.kind? = some (.string true)) (feed : '\n' ∈ piece.chars) :
    ∃ lexeme beyond, Leads (.lexeme (.string false) lexeme) beyond ∧
      lexeme ++ beyond = Text.returned (piece.chars ++ after) := by
  cases leads with
  | @string quote terminated taken _ quotes literal =>
      cases closed
      cases literal with
      | @closed inner units =>
          have ordinary : '\n' ≠ quote := by rcases quotes with rfl | rfl <;> decide
          have inside : '\n' ∈ inner := by
            rw [chars, List.mem_cons, List.mem_append, List.mem_singleton] at feed
            exact (feed.resolve_left ordinary).resolve_right ordinary
          obtain ⟨before, rest, rfl, unbroken, whole⟩ := units.exists_escaped_feed inside
          have escape : Units quote false ['\\', '\r'] := .escape '\r' .nil
          refine ⟨quote :: (before ++ ['\\', '\r']),
            '\n' :: Text.returned (rest ++ [quote] ++ after),
            .string quotes (.cut (whole.append escape) rfl _), ?_⟩
          have split : quote :: (before ++ '\\' :: '\n' :: rest ++ [quote]) ++ after =
              quote :: (before ++ '\\' :: '\n' :: (rest ++ [quote] ++ after)) := by simp
          rw [chars, split, returned_cons (Ne.symm ordinary), returned_append before,
            returned_of_notMem unbroken, returned_cons (by decide), returned_feed]
          simp
  | _ => cases closed

/-- If all strings are closed and one of them goes on over a line feed, returns leave a string
without its end. -/
theorem exists_cut_string {script : List Char} {start : Nat}
    (closed : ∀ token ∈ scan start script, token.kind ≠ .string false)
    (continued : ∃ token ∈ scan start script, token.IsContinued) (start' : Nat) :
    ∃ token ∈ scan start' (Text.returned script), token.kind = .string false := by
  induction script using script_induction generalizing start start' with
  | nil =>
      obtain ⟨token, member, _⟩ := continued
      rw [scan_nil] at member
      cases member
  | piece piece after leads inductionHypothesis =>
      rw [leads.scan_append] at closed continued
      by_cases first : piece.IsContinued
      · obtain ⟨terminated, kind, feed⟩ := first
        have ends : terminated = true := by
          by_contra unclosed
          rw [Bool.not_eq_true] at unclosed
          rw [token?_eq, kind, unclosed] at closed
          exact closed _ (List.mem_append_left _ (List.mem_singleton_self _)) rfl
        rw [ends] at kind
        obtain ⟨lexeme, beyond, cut, whole⟩ := leads.exists_cut kind feed
        rw [← whole]
        have scanned := cut.scan_append start'
        rw [Piece.chars] at scanned
        rw [scanned]
        exact ⟨_, List.mem_append_left _ (List.mem_singleton_self _), rfl⟩
      · obtain ⟨other, beyond, counterpart⟩ := leads.exists_counterpart first
        rw [← counterpart.whole, counterpart.leads.scan_append, counterpart.scanned]
        obtain ⟨token, member, goesOn⟩ := continued
        rcases List.mem_append.mp member with here | there
        · exact absurd ((piece.isContinued_iff start).mpr ⟨token, here, goesOn⟩) first
        · obtain ⟨found, foundMember, kind⟩ := inductionHypothesis
            (fun token member => closed token (List.mem_append_right _ member))
            ⟨token, there, goesOn⟩ _
          exact ⟨found, List.mem_append_right _ foundMember, kind⟩

end Piece

end ScriptAnalysis
