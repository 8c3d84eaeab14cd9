import ScriptAnalysis.Proofs.Token.Pieces

/-!
# Scripts put together from pieces

A list of pieces is the list of pieces of a script exactly if each of them leads the characters
of those behind it (`Piece.ofChars_eq_iff`). What a piece needs there is seen from the first
character alone (`Piece.Leads.of_head`), so a piece can be exchanged for another one without
touching those before it (`Piece.Chain.exchange`), and those behind it keep their tokens, at other
places (`Piece.tokens_relocate`).
-/

namespace ScriptAnalysis

/-- The token with its ends at other places. -/
def Token.relocate (place : Nat → Nat) (token : Token) : Token :=
  { token with start := place token.start, stop := place token.stop }

namespace Piece

section Leading

variable {piece : Piece} {quote : Char} {multiline terminated : Bool}
  {taken after other : List Char}

theorem Literal.of_head (literal : Literal quote multiline terminated taken after)
    (same : other.head? = after.head?) : Literal quote multiline terminated taken other := by
  cases literal with
  | closed units => exact .closed units other
  | cut units single rest =>
      obtain ⟨beyond, rfl⟩ := List.head?_eq_some_iff.mp same
      exact .cut units single beyond
  | ended units =>
      rw [List.head?_eq_none_iff.mp same]
      exact .ended units
  | endedEscape units =>
      rw [List.head?_eq_none_iff.mp same]
      exact .endedEscape units

/-- Whether a piece leads a text depends on the first character of the text only. -/
theorem Leads.of_head (leads : Leads piece after) (same : other.head? = after.head?) :
    Leads piece other := by
  cases leads with
  | blank blank => exact .blank blank other
  | lineComment unbroken ends =>
      rw [endsLine_iff, Ends, ← same, ← Ends, ← endsLine_iff] at ends
      exact .lineComment unbroken ends
  | blockComment firstEnd => exact .blockComment firstEnd other
  | openComment endless =>
      rw [List.head?_eq_none_iff.mp same]
      exact .openComment endless
  | identifier starts run ends =>
      rw [Ends, ← same] at ends
      exact .identifier starts run ends
  | number starts run ends =>
      rw [Ends, ← same] at ends
      exact .number starts run ends
  | string quotes literal => exact .string quotes (literal.of_head same)
  | template literal => exact .template (literal.of_head same)
  | punctuation punctuation noComment =>
      rw [← same] at noComment
      exact .punctuation punctuation noComment

end Leading

/-- Each piece leads the characters of those behind it. -/
inductive Chain : List Piece → Prop where
  | nil : Chain []
  | cons {piece : Piece} {rest : List Piece} (leads : Leads piece (rest.flatMap chars))
      (later : Chain rest) : Chain (piece :: rest)

theorem chain_cons_iff {piece : Piece} {rest : List Piece} :
    Chain (piece :: rest) ↔ Leads piece (rest.flatMap chars) ∧ Chain rest := by
  constructor
  · intro chain
    cases chain with
    | cons leads later => exact ⟨leads, later⟩
  · rintro ⟨leads, later⟩
    exact .cons leads later

section Chains

variable {piece other : Piece} {front back pieces : List Piece} {script : List Char}

theorem chain_ofChars (script : List Char) : Chain (ofChars script) := by
  fun_induction ofChars script with
  | case1 => exact .nil
  | case2 c rest inductionHypothesis =>
      refine .cons ?_ inductionHypothesis
      rw [flatMap_chars_ofChars]
      exact leads_first c rest

/-- A piece that leads a text comes first among the pieces of both. -/
theorem Leads.ofChars_append {after : List Char} (leads : Leads piece after) :
    ofChars (piece.chars ++ after) = piece :: ofChars after := by
  obtain ⟨c, rest, whole⟩ : ∃ c rest, piece.chars ++ after = c :: rest := by
    cases leads <;> exact ⟨_, _, rfl⟩
  rw [whole, ofChars, first_eq_of_leads leads whole]

theorem Chain.ofChars_flatMap (chain : Chain pieces) : ofChars (pieces.flatMap chars) = pieces := by
  induction chain with
  | nil => rw [List.flatMap_nil, ofChars]
  | cons leads later inductionHypothesis =>
      rw [List.flatMap_cons, leads.ofChars_append, inductionHypothesis]

/-- The pieces of a script are the only ones that make it up and lead each other. -/
theorem ofChars_eq_iff :
    ofChars script = pieces ↔ Chain pieces ∧ pieces.flatMap chars = script := by
  constructor
  · rintro rfl
    exact ⟨chain_ofChars script, flatMap_chars_ofChars script⟩
  · rintro ⟨chain, rfl⟩
    exact chain.ofChars_flatMap

/-- The pieces behind a part of a chain are a chain. -/
theorem Chain.of_append (chain : Chain (front ++ back)) : Chain back := by
  induction front with
  | nil => exact chain
  | cons piece front inductionHypothesis => exact inductionHypothesis (chain_cons_iff.mp chain).2

/-- Each of the pieces of a script leads the characters of those behind it. -/
theorem leads_of_ofChars (whole : ofChars script = front ++ piece :: back) :
    Leads piece (back.flatMap chars) := by
  have chain := chain_ofChars script
  rw [whole] at chain
  exact (chain_cons_iff.mp chain.of_append).1

/-- A piece that begins with the same character and leads the same text may stand in place of
another one. -/
theorem Chain.exchange (chain : Chain (front ++ piece :: back))
    (leads : Leads other (back.flatMap chars))
    (same : ((other :: back).flatMap chars).head? = ((piece :: back).flatMap chars).head?) :
    Chain (front ++ other :: back) := by
  induction front with
  | nil =>
      exact .cons leads (chain_cons_iff.mp chain).2
  | cons first front inductionHypothesis =>
      rw [List.cons_append, chain_cons_iff] at chain ⊢
      refine ⟨chain.1.of_head ?_, inductionHypothesis chain.2⟩
      rw [List.flatMap_append, List.flatMap_append, List.head?_append, List.head?_append, same]

end Chains

section Tokens

variable {front pieces : List Piece}

theorem tokens_cons (start : Nat) (piece : Piece) (rest : List Piece) :
    tokens start (piece :: rest) =
      (piece.token? start).toList ++ tokens (start + Text.byteLength piece.chars) rest := by
  cases piece <;> rfl

theorem tokens_append (start : Nat) (front back : List Piece) :
    tokens start (front ++ back) =
      tokens start front ++ tokens (start + Text.byteLength (front.flatMap chars)) back := by
  induction front generalizing start with
  | nil => rfl
  | cons piece front inductionHypothesis =>
      rw [List.cons_append, tokens_cons, tokens_cons, inductionHypothesis, List.append_assoc,
        List.flatMap_cons, Text.byteLength_append, Nat.add_assoc]

/-- Pieces that begin elsewhere have the same tokens there. -/
theorem tokens_relocate {place : Nat → Nat} {start other : Nat}
    (follows : ∀ count, place (start + count) = other + count) (pieces : List Piece) :
    tokens other pieces = (tokens start pieces).map (Token.relocate place) := by
  induction pieces generalizing start other with
  | nil => rfl
  | cons piece rest inductionHypothesis =>
      have follows' : ∀ count, place (start + Text.byteLength piece.chars + count) =
          other + Text.byteLength piece.chars + count := fun count => by
        rw [Nat.add_assoc, follows, Nat.add_assoc]
      have later := inductionHypothesis follows'
      have here := follows 0
      rw [Nat.add_zero, Nat.add_zero] at here
      rw [tokens_cons, tokens_cons, List.map_append, later]
      cases piece <;> simp [token?, Token.relocate, here, follows]

/-- Every piece beside the offset where it begins, the first one at `start`. -/
def placed (start : Nat) : List Piece → List (Nat × Piece)
  | [] => []
  | piece :: rest => (start, piece) :: placed (start + Text.byteLength piece.chars) rest

theorem tokens_eq_filterMap_placed (start : Nat) (pieces : List Piece) :
    tokens start pieces = (placed start pieces).filterMap fun (place, piece) =>
      piece.token? place := by
  induction pieces generalizing start with
  | nil => rfl
  | cons piece rest inductionHypothesis =>
      rw [tokens_cons, placed, List.filterMap_cons, inductionHypothesis]
      cases piece <;> rfl

/-- A piece begins where those before it end. -/
theorem exists_split_of_mem_placed {place start : Nat} {piece : Piece}
    (member : (place, piece) ∈ placed start pieces) :
    ∃ front back, pieces = front ++ piece :: back ∧
      place = start + Text.byteLength (front.flatMap chars) := by
  induction pieces generalizing start with
  | nil => cases member
  | cons first rest inductionHypothesis =>
      rcases List.mem_cons.mp member with here | later
      · cases here
        exact ⟨[], rest, rfl, rfl⟩
      · obtain ⟨front, back, rfl, starts⟩ := inductionHypothesis later
        refine ⟨first :: front, back, rfl, ?_⟩
        rw [starts, List.flatMap_cons, Text.byteLength_append, Nat.add_assoc]

/-- Every token is one of the pieces. -/
theorem exists_split_of_mem_tokens {token : Token} {start : Nat}
    (member : token ∈ tokens start pieces) :
    ∃ front back, pieces = front ++ .lexeme token.kind token.lexeme :: back ∧
      token.start = start + Text.byteLength (front.flatMap chars) ∧
      token.stop = token.start + Text.byteLength token.lexeme := by
  rw [tokens_eq_filterMap_placed, List.mem_filterMap] at member
  obtain ⟨⟨place, piece⟩, inside, found⟩ := member
  obtain ⟨front, back, rfl, rfl⟩ := exists_split_of_mem_placed inside
  cases piece <;> cases found
  exact ⟨front, back, rfl, rfl, rfl⟩

/-- Tokens lie between the ends of their script. -/
theorem bounds_of_mem_tokens {token : Token} {start : Nat} (member : token ∈ tokens start pieces) :
    start ≤ token.start ∧ token.stop ≤ start + Text.byteLength (pieces.flatMap chars) := by
  obtain ⟨front, back, rfl, starts, stops⟩ := exists_split_of_mem_tokens member
  simp only [List.flatMap_append, List.flatMap_cons, Text.byteLength_append, chars]
  omega

end Tokens

end Piece

end ScriptAnalysis
