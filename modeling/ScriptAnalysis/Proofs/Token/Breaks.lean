import ScriptAnalysis.Proofs.Balance
import ScriptAnalysis.Proofs.Token.Composition

/-!
# Tokens and line breaks

The end of a script ends everything that a scan has begun, and so does a line feed, except for
literals and comments that still lack their end there (`Piece.Leads.before_feed`). So a script is
scanned line by line wherever a break does not fall into one of those (`tokenize_across_break`).
-/

namespace ScriptAnalysis

namespace Piece

variable {piece : Piece} {script : List Char} {start : Nat}

/-- What comes to its end at the end of a script may be followed by a line feed. -/
theorem Leads.before_feed (start : Nat) (leads : Leads piece [])
    (complete : ∀ token ∈ piece.token? start, ¬ token.IsUnterminated) (rest : List Char) :
    Leads piece ('\n' :: rest) := by
  cases leads with
  | blank blank => exact .blank blank _
  | lineComment unbroken ends => exact .lineComment unbroken (.inr ⟨rest, rfl⟩)
  | blockComment firstEnd => exact .blockComment firstEnd _
  | openComment endless => exact absurd (.inr (.inr rfl)) (complete _ rfl)
  | identifier starts run ends =>
      exact .identifier starts run fun next first => by cases first; decide
  | number starts run ends =>
      exact .number starts run fun next first => by cases first; decide
  | @string quote terminated taken _ quotes literal =>
      cases literal with
      | closed units => exact .string quotes (.closed units _)
      | _ => exact absurd (.inl rfl) (complete _ rfl)
  | @template terminated taken _ literal =>
      cases literal with
      | closed units => exact .template (.closed units _)
      | _ => exact absurd (.inr (.inl rfl)) (complete _ rfl)
  | punctuation punctuation noComment =>
      exact .punctuation punctuation fun _ => ⟨by simp, by simp⟩

/-- Unless something without an end reaches the end of a text, a line feed and more behind it
leave its tokens alone. -/
theorem scan_before_feed
    (complete : ∀ token ∈ scan start script, token.IsUnterminated →
      token.stop ≠ start + Text.byteLength script) (rest : List Char) :
    scan start (script ++ '\n' :: rest) =
      scan start script ++ scan (start + Text.byteLength script + 1) rest := by
  induction script using script_induction generalizing start with
  | nil =>
      rw [scan_nil]
      exact (Leads.blank (by decide) rest).scan_append start
  | piece piece after leads inductionHypothesis =>
      rw [leads.scan_append] at complete
      have goesOn : Leads piece (after ++ '\n' :: rest) := by
        cases after with
        | nil =>
            -- The piece stands at the end, where nothing unterminated may stand.
            refine leads.before_feed start (fun token here open' => ?_) rest
            refine complete token (List.mem_append_left _ (Option.mem_toList.mpr here)) open' ?_
            cases piece <;> cases here
            rw [chars, List.append_nil]
        | cons next others => exact leads.of_head rfl
      have complete' : ∀ token ∈ scan (start + Text.byteLength piece.chars) after,
          token.IsUnterminated →
            token.stop ≠ start + Text.byteLength piece.chars + Text.byteLength after := by
        intro token member open'
        rw [Nat.add_assoc, ← Text.byteLength_append]
        exact complete token (List.mem_append_right _ member) open'
      have later := inductionHypothesis complete'
      rw [List.append_assoc, goesOn.scan_append, leads.scan_append, later, List.append_assoc,
        Text.byteLength_append, Nat.add_assoc start]

theorem scan_relocate {place : Nat → Nat} {other : Nat}
    (follows : ∀ count, place (start + count) = other + count) (script : List Char) :
    scan other script = (scan start script).map (Token.relocate place) :=
  tokens_relocate follows (ofChars script)

end Piece

/-- Unless a literal or comment without its end reaches the end of the first text, the tokens of
two texts with a line feed between them are those of the first and, behind them, those of the
second. -/
theorem tokenize_across_break (first second : String)
    (complete : ∀ token ∈ tokenize first, token.IsUnterminated →
      token.stop ≠ Text.byteLength first.toList) :
    tokenize (first ++ "\n" ++ second) =
      tokenize first ++ (tokenize second).map
        (Token.relocate fun offset => offset + (Text.byteLength first.toList + 1)) := by
  have whole : (first ++ "\n" ++ second).toList = first.toList ++ '\n' :: second.toList := by simp
  have scanned : tokenize (first ++ "\n" ++ second) = tokenize first ++
      Piece.scan (0 + Text.byteLength first.toList + 1) second.toList := by
    rw [Piece.tokenize_eq_scan, whole]
    exact Piece.scan_before_feed (by rwa [Nat.zero_add]) second.toList
  rw [scanned, Piece.tokenize_eq_scan second, Piece.scan_relocate fun count => ?_]
  omega

/-- A string that its line cuts off is no obstacle, and slashes on both sides of the break do not
make a comment. -/
theorem tokenize_across_break_slashes :
    let first := "f('a\n/* b */ 1 /"
    let second := "/ `c"
    (∃ token ∈ tokenize first, token.IsUnterminated) ∧
      (∀ token ∈ tokenize first, token.IsUnterminated →
        token.stop ≠ Text.byteLength first.toList) ∧
      tokenize (first ++ "\n" ++ second) =
        tokenize first ++ (tokenize second).map
          (Token.relocate fun offset => offset + (Text.byteLength first.toList + 1)) := by
  intro first second
  have complete : ∀ token ∈ tokenize first, token.IsUnterminated →
      token.stop ≠ Text.byteLength first.toList := by decide +kernel
  exact ⟨by decide +kernel, complete, tokenize_across_break first second complete⟩

end ScriptAnalysis
