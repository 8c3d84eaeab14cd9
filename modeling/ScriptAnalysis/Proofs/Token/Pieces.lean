import Mathlib.Data.List.Infix
import Mathlib.Data.List.TakeWhile
import ScriptAnalysis.Token

/-!
# The grammar of pieces

`Piece.Leads piece after` says that a piece may stand in front of a text `after`: what it is made
of, and where it has to end. Scanning a script takes the piece that leads there
(`Piece.leads_first`), and no other would do (`Piece.first_eq_of_leads`). So the pieces of a
script can be told from the script alone, and whatever holds of its tokens is proved by
`Piece.script_induction`, one piece at a time.
-/

namespace ScriptAnalysis

namespace Piece

/-- The text goes on with no character of the class. -/
def Ends (inside : Char → Bool) (after : List Char) : Prop :=
  ∀ next ∈ after.head?, inside next = false

/-- The text is at its end or at the end of a line. -/
def EndsLine (after : List Char) : Prop :=
  after = [] ∨ ∃ rest, after = '\n' :: rest

/-- What stands in a literal: any character behind a backslash, and otherwise neither a
backslash nor the quote. Only literals over several lines have line feeds that are not
escaped. -/
inductive Units (quote : Char) (multiline : Bool) : List Char → Prop where
  | nil : Units quote multiline []
  | escape (escaped : Char) {rest : List Char} (later : Units quote multiline rest) :
      Units quote multiline ('\\' :: escaped :: rest)
  | plain {c : Char} {rest : List Char} (unescaped : c ≠ '\\') (inside : c ≠ quote)
      (sameLine : c = '\n' → multiline = true) (later : Units quote multiline rest) :
      Units quote multiline (c :: rest)

/-- The part of a literal after its opening quote: whether it is closed, what it is, and what
follows. -/
inductive Literal (quote : Char) (multiline : Bool) : Bool → List Char → List Char → Prop where
  | closed {inner : List Char} (units : Units quote multiline inner) (after : List Char) :
      Literal quote multiline true (inner ++ [quote]) after
  | cut {inner : List Char} (units : Units quote multiline inner) (single : multiline = false)
      (rest : List Char) : Literal quote multiline false inner ('\n' :: rest)
  | ended {inner : List Char} (units : Units quote multiline inner) :
      Literal quote multiline false inner []
  /-- A backslash at the very end has nothing to escape. -/
  | endedEscape {inner : List Char} (units : Units quote multiline inner) :
      Literal quote multiline false (inner ++ ['\\']) []

/-- The character is a piece of its own. -/
structure IsPunctuation (c : Char) : Prop where
  visible : Text.isAsciiBlank c = false
  unnamed : startsIdentifier c = false
  uncounted : c.isDigit = false
  unquoted : c ≠ '\x27' ∧ c ≠ '\x22' ∧ c ≠ backquote

/-- A piece in front of the rest of a script. -/
inductive Leads : Piece → List Char → Prop where
  | blank {c : Char} (blank : Text.isAsciiBlank c = true) (after : List Char) :
      Leads (.blank c) after
  | lineComment {body after : List Char} (unbroken : '\n' ∉ body) (ends : EndsLine after) :
      Leads (.lineComment body) after
  /-- No end of the comment comes before its last two characters. -/
  | blockComment {body : List Char} (firstEnd : ¬ ['*', '/'] <:+: body ++ ['*'])
      (after : List Char) : Leads (.blockComment body) after
  | openComment {body : List Char} (endless : ¬ ['*', '/'] <:+: body) :
      Leads (.lexeme .openComment ('/' :: '*' :: body)) []
  | identifier {c : Char} {taken after : List Char} (starts : startsIdentifier c = true)
      (run : ∀ next ∈ taken, continuesIdentifier next = true)
      (ends : Ends continuesIdentifier after) : Leads (.lexeme .identifier (c :: taken)) after
  | number {c : Char} {taken after : List Char} (starts : c.isDigit = true)
      (run : ∀ next ∈ taken, continuesNumber next = true) (ends : Ends continuesNumber after) :
      Leads (.lexeme .number (c :: taken)) after
  | string {quote : Char} {terminated : Bool} {taken after : List Char}
      (quotes : quote = '\x27' ∨ quote = '\x22')
      (literal : Literal quote false terminated taken after) :
      Leads (.lexeme (.string terminated) (quote :: taken)) after
  | template {terminated : Bool} {taken after : List Char}
      (literal : Literal backquote true terminated taken after) :
      Leads (.lexeme (.template terminated) (backquote :: taken)) after
  | punctuation {c : Char} {after : List Char} (punctuation : IsPunctuation c)
      (noComment : c = '/' → after.head? ≠ some '/' ∧ after.head? ≠ some '*') :
      Leads (.lexeme (.punctuation c) [c]) after

section Runs

variable {inside : Char → Bool} {taken after : List Char}

/-- The longest run of a class is followed by no character of the class. -/
theorem ends_dropWhile (inside : Char → Bool) (chars : List Char) :
    Ends inside (chars.dropWhile inside) := by
  intro next first
  have stops := List.head?_dropWhile_not inside chars
  rw [Option.mem_def.mp first] at stops
  simpa using stops

/-- A run that cannot go on is the longest one. -/
theorem takeWhile_of_ends (run : ∀ next ∈ taken, inside next = true) (ends : Ends inside after) :
    (taken ++ after).takeWhile inside = taken ∧ (taken ++ after).dropWhile inside = after := by
  rw [List.takeWhile_append_of_pos run, List.dropWhile_append_of_pos run]
  cases after with
  | nil => simp
  | cons next rest =>
      have stops : inside next = false := ends next rfl
      simp [stops]

theorem endsLine_iff {after : List Char} : EndsLine after ↔ Ends (· ≠ '\n') after := by
  cases after with
  | nil => simp [EndsLine, Ends]
  | cons next rest => simp [EndsLine, Ends]

end Runs

section Literals

variable {quote : Char} {multiline terminated : Bool} {units taken after : List Char}

theorem literalBody_cons {c : Char} (unescaped : c ≠ '\\') (rest : List Char) :
    literalBody quote multiline (c :: rest) =
      if c = '\n' && !multiline then (false, [], c :: rest)
      else if c = quote then (true, [c], rest)
      else ((literalBody quote multiline rest).1, c :: (literalBody quote multiline rest).2.1,
        (literalBody quote multiline rest).2.2) := by
  rw [literalBody.eq_4 _ _ _ _ (fun same _ => unescaped same) fun _ _ same _ => unescaped same]

/-- Whole units are taken as they are. -/
theorem literalBody_units (whole : Units quote multiline units) (rest : List Char) :
    literalBody quote multiline (units ++ rest) =
      ((literalBody quote multiline rest).1, units ++ (literalBody quote multiline rest).2.1,
        (literalBody quote multiline rest).2.2) := by
  induction whole with
  | nil => rfl
  | escape escaped later inductionHypothesis =>
      simp only [List.cons_append, literalBody, inductionHypothesis]
  | @plain c tail unescaped inside sameLine later inductionHypothesis =>
      have goesOn : ¬ (c = '\n' && !multiline) = true := by
        rw [Bool.and_eq_true, decide_eq_true_eq]
        rintro ⟨feed, single⟩
        rw [sameLine feed] at single
        cases single
      rw [List.cons_append, literalBody_cons unescaped, if_neg goesOn, if_neg inside,
        inductionHypothesis]
      rfl

/-- A unit more at the beginning. -/
theorem Literal.unit {unit : List Char}
    (grows : ∀ rest, Units quote multiline rest → Units quote multiline (unit ++ rest))
    (literal : Literal quote multiline terminated taken after) :
    Literal quote multiline terminated (unit ++ taken) after := by
  cases literal with
  | closed units after =>
      rw [← List.append_assoc]
      exact .closed (grows _ units) after
  | cut units single rest => exact .cut (grows _ units) single rest
  | ended units => exact .ended (grows _ units)
  | endedEscape units =>
      rw [← List.append_assoc]
      exact .endedEscape (grows _ units)

/-- What is scanned behind an opening quote is a literal. -/
theorem literal_literalBody (quote : Char) (multiline : Bool) (chars : List Char) :
    Literal quote multiline (literalBody quote multiline chars).1
      (literalBody quote multiline chars).2.1 (literalBody quote multiline chars).2.2 := by
  fun_induction literalBody quote multiline chars with
  | case1 => exact .ended .nil
  | case2 => exact .endedEscape .nil
  | case3 escaped rest terminated taken after found inductionHypothesis =>
      rw [found] at inductionHypothesis
      show Literal quote multiline terminated (['\\', escaped] ++ taken) after
      exact inductionHypothesis.unit fun _ => .escape escaped
  | case4 c rest _ _ breaks =>
      rw [Bool.and_eq_true, decide_eq_true_eq, Bool.not_eq_true'] at breaks
      rw [breaks.1]
      exact .cut .nil breaks.2 rest
  | case5 => exact .closed .nil _
  | case6 c rest lone escape breaks inside terminated taken after found inductionHypothesis =>
      rw [found] at inductionHypothesis
      have unescaped : c ≠ '\\' := by
        rintro rfl
        cases rest with
        | nil => exact lone rfl rfl
        | cons escaped tail => exact escape escaped tail rfl rfl
      have sameLine : c = '\n' → multiline = true := by
        rintro rfl
        simpa using breaks
      show Literal quote multiline terminated ([c] ++ taken) after
      exact inductionHypothesis.unit fun _ => .plain unescaped inside sameLine

/-- Every literal is scanned as it is, behind a quote that is neither a backslash nor a line
feed. -/
theorem Literal.literalBody_eq (literal : Literal quote multiline terminated taken after)
    (ordinary : quote ≠ '\\' ∧ quote ≠ '\n') :
    literalBody quote multiline (taken ++ after) = (terminated, taken, after) := by
  cases literal with
  | closed units after =>
      have closes : literalBody quote multiline (quote :: after) = (true, [quote], after) := by
        rw [literalBody_cons ordinary.1, if_neg (by simp [ordinary.2]), if_pos rfl]
      rw [List.append_assoc, literalBody_units units, List.singleton_append, closes]
  | cut units single rest =>
      have breaks : literalBody quote multiline ('\n' :: rest) = (false, [], '\n' :: rest) := by
        rw [literalBody_cons (by decide), if_pos (by simp [single])]
      rw [literalBody_units units, breaks, List.append_nil]
  | ended units => rw [literalBody_units units, literalBody, List.append_nil]
  | endedEscape units => rw [List.append_nil, literalBody_units units, literalBody]

end Literals

section Comments

variable {chars body after : List Char}

/-- Two characters end a comment at its beginning, or the comment goes on behind the first. -/
theorem end_infix_cons {c : Char} (goesOn : ∀ rest, c = '*' → chars = '/' :: rest → False) :
    ['*', '/'] <:+: c :: chars ↔ ['*', '/'] <:+: chars := by
  rw [List.infix_cons_iff, or_iff_right]
  intro starts
  rw [List.cons_prefix_cons] at starts
  obtain ⟨rfl, slash⟩ := starts
  cases chars with
  | nil => simp at slash
  | cons next rest =>
      rw [List.cons_prefix_cons] at slash
      exact goesOn rest rfl (by rw [slash.1])

/-- A comment is found up to its first end. -/
theorem commentBody_eq_some_iff :
    commentBody chars = some (body, after) ↔
      chars = body ++ '*' :: '/' :: after ∧ ¬ ['*', '/'] <:+: body ++ ['*'] := by
  constructor
  · intro found
    refine ⟨(commentBody_append found).symm, ?_⟩
    fun_induction commentBody chars generalizing body after with
    | case1 => simp at found
    | case2 rest =>
        cases found
        decide
    | case3 c rest goesOn inductionHypothesis =>
        simp only [Option.map_eq_some_iff, Prod.mk.injEq, Prod.exists] at found
        obtain ⟨inner, beyond, equal, rfl, rfl⟩ := found
        have shape := commentBody_append equal
        rw [List.cons_append, end_infix_cons]
        · exact inductionHypothesis equal
        · intro tail star slash
          cases inner with
          | nil => simp at slash
          | cons head inner =>
              rw [List.cons_append, List.cons.injEq] at slash
              refine goesOn (inner ++ '*' :: '/' :: beyond) star ?_
              rw [← shape, slash.1, List.cons_append]
  · rintro ⟨rfl, firstEnd⟩
    induction body with
    | nil => rfl
    | cons c rest inductionHypothesis =>
        have later : ¬ ['*', '/'] <:+: rest ++ ['*'] := fun inside =>
          firstEnd (List.infix_cons inside)
        have goesOn : ∀ tail, c = '*' → rest ++ '*' :: '/' :: after = '/' :: tail → False := by
          rintro tail rfl slash
          cases rest with
          | nil => simp at slash
          | cons head rest =>
              rw [List.cons_append, List.cons.injEq] at slash
              refine firstEnd ⟨[], rest ++ ['*'], ?_⟩
              rw [slash.1]
              rfl
        rw [List.cons_append, commentBody.eq_3 _ _ goesOn, inductionHypothesis later]
        rfl

/-- A comment without an end has none anywhere. -/
theorem commentBody_eq_none_iff : commentBody chars = none ↔ ¬ ['*', '/'] <:+: chars := by
  fun_induction commentBody chars with
  | case1 => decide
  | case2 rest =>
      refine iff_of_false (by simp) (not_not_intro ?_)
      exact ⟨[], rest, rfl⟩
  | case3 c rest goesOn inductionHypothesis =>
      rw [Option.map_eq_none_iff, inductionHypothesis, end_infix_cons goesOn]

/-- A mark is found only behind what does not hold its first character. -/
theorem infix_of_notMem {α : Type} {first : α} {others run rest : List α} (absent : first ∉ run)
    (inside : first :: others <:+: run ++ rest) : first :: others <:+: rest := by
  induction run with
  | nil => exact inside
  | cons next tail inductionHypothesis =>
      rw [List.mem_cons, not_or] at absent
      rw [List.cons_append, List.infix_cons_iff] at inside
      rcases inside with starts | later
      · exact absurd (List.cons_prefix_cons.mp starts).1 absent.1
      · exact inductionHypothesis absent.2 later

/-- A comment has an end if it has one in another spelling, in which nothing else spells the star
or begins like the slash. -/
theorem end_infix_of_spelled {α : Type} {spell : Char → List α} {star slash : α}
    (ofStar : ∀ c, star ∈ spell c → c = '*' ∧ spell c = [star])
    (ofSlash : ∀ c, (spell c).head? = some slash → c = '/') (some : ∀ c, spell c ≠ [])
    (inside : [star, slash] <:+: chars.flatMap spell) : ['*', '/'] <:+: chars := by
  induction chars with
  | nil => simp at inside
  | cons c rest inductionHypothesis =>
      rw [List.flatMap_cons] at inside
      by_cases starred : star ∈ spell c
      · obtain ⟨rfl, spelled⟩ := ofStar c starred
        rw [spelled, List.singleton_append, List.infix_cons_iff] at inside
        rcases inside with starts | later
        · obtain ⟨_, beyond, next⟩ := List.cons_prefix_cons.mp starts
          cases rest with
          | nil => simp at next
          | cons second tail =>
              obtain ⟨head, others, spelling⟩ := List.exists_cons_of_ne_nil (some second)
              rw [List.flatMap_cons, spelling, List.cons_append] at next
              have slashed : second = '/' := by
                refine ofSlash second ?_
                rw [spelling, ← (List.cons.inj next).1]
                rfl
              rw [slashed]
              exact ⟨[], tail, rfl⟩
        · exact List.infix_cons (inductionHypothesis later)
      · exact List.infix_cons (inductionHypothesis (infix_of_notMem starred inside))

end Comments

section Classes

/-- No character has two of the roles by which a piece is told from its first character. -/
theorem visible_of_startsIdentifier {c : Char} (starts : startsIdentifier c = true) :
    Text.isAsciiBlank c = false ∧ c ≠ '/' := by
  constructor
  · by_contra blank
    simp only [Text.isAsciiBlank, Bool.not_eq_false, Bool.or_eq_true, beq_iff_eq] at blank
    rcases blank with (((rfl | rfl) | rfl) | rfl) | rfl <;> revert starts <;> decide
  · rintro rfl
    revert starts
    decide

/-- Letters lie between the upper case A and the lower case z. -/
theorem bounds_of_isAlpha {c : Char} (letter : c.isAlpha = true) :
    'A'.toNat ≤ c.toNat ∧ c.toNat ≤ 'z'.toNat := by
  rcases Bool.or_eq_true_iff.mp letter with upper | lower
  · obtain ⟨first, last⟩ := of_decide_eq_true upper
    exact ⟨UInt32.le_iff_toNat_le.mp first, (UInt32.le_iff_toNat_le.mp last).trans (by decide)⟩
  · obtain ⟨first, last⟩ := Bool.and_eq_true_iff.mp lower
    exact ⟨le_trans (by decide) (UInt32.le_iff_toNat_le.mp (of_decide_eq_true first)),
      UInt32.le_iff_toNat_le.mp (of_decide_eq_true last)⟩

theorem visible_of_isDigit {c : Char} (digit : c.isDigit = true) :
    Text.isAsciiBlank c = false ∧ c ≠ '/' ∧ startsIdentifier c = false := by
  have last : c.toNat ≤ '9'.toNat := (Char.isDigit_iff_toNat.mp digit).2
  refine ⟨?_, ?_, ?_⟩
  · by_contra blank
    simp only [Text.isAsciiBlank, Bool.not_eq_false, Bool.or_eq_true, beq_iff_eq] at blank
    rcases blank with (((rfl | rfl) | rfl) | rfl) | rfl <;> revert digit <;> decide
  · rintro rfl
    revert digit
    decide
  · by_contra starts
    simp only [startsIdentifier, Bool.not_eq_false, Bool.or_eq_true, beq_iff_eq,
      decide_eq_true_eq] at starts
    rcases starts with ((letter | rfl) | rfl) | wide
    · exact absurd ((bounds_of_isAlpha letter).1.trans last) (by decide)
    · revert digit
      decide
    · revert digit
      decide
    · exact absurd (wide.trans last) (by decide)

end Classes

/-- Scanning takes a piece that leads what follows it. -/
theorem leads_first (c : Char) (rest : List Char) : Leads (first c rest).1 (first c rest).2 := by
  unfold first
  split
  · next blank => exact .blank blank rest
  next visible =>
  rw [Bool.not_eq_true] at visible
  split
  · next slashes =>
      refine .lineComment ?_ (endsLine_iff.mpr (ends_dropWhile _ _))
      intro member
      simpa using List.mem_takeWhile_imp member
  next noLineComment =>
  split
  · next marks =>
      rw [Bool.and_eq_true, decide_eq_true_eq, decide_eq_true_eq] at marks
      obtain ⟨rfl, star⟩ := marks
      obtain ⟨tail, rfl⟩ := List.head?_eq_some_iff.mp star
      rw [List.tail_cons]
      split
      · next body after found =>
          exact .blockComment (commentBody_eq_some_iff.mp found).2 after
      · next endless => exact .openComment (commentBody_eq_none_iff.mp endless)
  next noBlockComment =>
  split
  · next starts =>
      exact .identifier starts (fun _ => List.mem_takeWhile_imp) (ends_dropWhile _ _)
  next unnamed =>
  rw [Bool.not_eq_true] at unnamed
  split
  · next starts =>
      exact .number starts (fun _ => List.mem_takeWhile_imp) (ends_dropWhile _ _)
  next uncounted =>
  rw [Bool.not_eq_true] at uncounted
  split
  · next quotes =>
      rw [Bool.or_eq_true, decide_eq_true_eq, decide_eq_true_eq] at quotes
      exact .string quotes (literal_literalBody c false rest)
  next unquoted =>
  rw [Bool.or_eq_true, decide_eq_true_eq, decide_eq_true_eq, not_or] at unquoted
  split
  · next quote =>
      rw [quote]
      exact .template (literal_literalBody backquote true rest)
  next untemplated =>
  refine .punctuation ⟨visible, unnamed, uncounted, unquoted.1, unquoted.2, untemplated⟩ ?_
  rintro rfl
  exact ⟨by simpa using noLineComment, by simpa using noBlockComment⟩

/-- What is neither blank nor a comment is told from its first character alone. -/
theorem first_of_visible {c : Char} {rest : List Char} (visible : Text.isAsciiBlank c = false)
    (noComment : c = '/' → rest.head? ≠ some '/' ∧ rest.head? ≠ some '*') :
    first c rest =
      if startsIdentifier c then
        (.lexeme .identifier (c :: rest.takeWhile continuesIdentifier),
          rest.dropWhile continuesIdentifier)
      else if c.isDigit then
        (.lexeme .number (c :: rest.takeWhile continuesNumber), rest.dropWhile continuesNumber)
      else if c = '\x27' || c = '\x22' then
        let (terminated, taken, after) := literalBody c false rest
        (.lexeme (.string terminated) (c :: taken), after)
      else if c = backquote then
        let (terminated, taken, after) := literalBody c true rest
        (.lexeme (.template terminated) (c :: taken), after)
      else (.lexeme (.punctuation c) [c], rest) := by
  have noLine : ¬ (c = '/' && rest.head? = some '/') = true := by
    rw [Bool.and_eq_true, decide_eq_true_eq, decide_eq_true_eq]
    exact fun ⟨slash, second⟩ => (noComment slash).1 second
  have noBlock : ¬ (c = '/' && rest.head? = some '*') = true := by
    rw [Bool.and_eq_true, decide_eq_true_eq, decide_eq_true_eq]
    exact fun ⟨slash, second⟩ => (noComment slash).2 second
  rw [first, if_neg (by simp [visible]), if_neg noLine, if_neg noBlock]

/-- No other piece than the one that leads there is scanned. -/
theorem first_eq_of_leads {piece : Piece} {after rest : List Char} {c : Char}
    (leads : Leads piece after) (whole : piece.chars ++ after = c :: rest) :
    first c rest = (piece, after) := by
  cases leads with
  | blank blank =>
      rw [chars, List.singleton_append, List.cons.injEq] at whole
      obtain ⟨rfl, rfl⟩ := whole
      rw [first, if_pos blank]
  | @lineComment body _ unbroken ends =>
      rw [chars, List.cons_append, List.cons_append, List.cons.injEq] at whole
      obtain ⟨rfl, rfl⟩ := whole
      have run : ∀ next ∈ body, decide (next ≠ '\n') = true := fun next member => by
        simpa using ne_of_mem_of_not_mem member unbroken
      obtain ⟨taken, dropped⟩ := takeWhile_of_ends run (endsLine_iff.mp ends)
      rw [first, if_neg (by decide), if_pos (by simp), List.tail_cons]
      simp only [taken, dropped]
  | @blockComment body firstEnd =>
      rw [chars, List.cons_append, List.cons_append, List.cons_append, List.cons_append,
        List.append_assoc, List.cons.injEq] at whole
      obtain ⟨rfl, rfl⟩ := whole
      have found : commentBody (body ++ (['*', '/'] ++ after)) = some (body, after) :=
        commentBody_eq_some_iff.mpr ⟨rfl, firstEnd⟩
      rw [first, if_neg (by decide), if_neg (by simp), if_pos (by simp), List.tail_cons, found]
  | openComment endless =>
      rw [chars, List.append_nil, List.cons.injEq] at whole
      obtain ⟨rfl, rfl⟩ := whole
      rw [first, if_neg (by decide), if_neg (by simp), if_pos (by simp), List.tail_cons,
        commentBody_eq_none_iff.mpr endless]
  | identifier starts run ends =>
      rw [chars, List.cons_append, List.cons.injEq] at whole
      obtain ⟨rfl, rfl⟩ := whole
      obtain ⟨visible, solid⟩ := visible_of_startsIdentifier starts
      obtain ⟨taken, dropped⟩ := takeWhile_of_ends run ends
      rw [first_of_visible visible fun slash => absurd slash solid, if_pos starts, taken, dropped]
  | number starts run ends =>
      rw [chars, List.cons_append, List.cons.injEq] at whole
      obtain ⟨rfl, rfl⟩ := whole
      obtain ⟨visible, solid, unnamed⟩ := visible_of_isDigit starts
      obtain ⟨taken, dropped⟩ := takeWhile_of_ends run ends
      rw [first_of_visible visible fun slash => absurd slash solid, if_neg (by simp [unnamed]),
        if_pos starts, taken, dropped]
  | @string quote _ _ _ quotes literal =>
      rw [chars, List.cons_append, List.cons.injEq] at whole
      obtain ⟨rfl, rfl⟩ := whole
      have scanned := literal.literalBody_eq (by rcases quotes with rfl | rfl <;> decide)
      have role : Text.isAsciiBlank quote = false ∧ quote ≠ '/' ∧
          startsIdentifier quote = false ∧ quote.isDigit = false := by
        rcases quotes with rfl | rfl <;> decide
      obtain ⟨visible, solid, unnamed, uncounted⟩ := role
      rw [first_of_visible visible fun slash => absurd slash solid, if_neg (by simp [unnamed]),
        if_neg (by simp [uncounted]), if_pos (by simpa using quotes), scanned]
  | template literal =>
      rw [chars, List.cons_append, List.cons.injEq] at whole
      obtain ⟨rfl, rfl⟩ := whole
      have scanned := literal.literalBody_eq (by decide)
      rw [first_of_visible (by decide) fun slash => absurd slash (by decide),
        if_neg (by decide), if_neg (by decide), if_neg (by decide), if_pos rfl, scanned]
  | punctuation punctuation noComment =>
      rw [chars, List.singleton_append, List.cons.injEq] at whole
      obtain ⟨rfl, rfl⟩ := whole
      obtain ⟨visible, unnamed, uncounted, single, double, back⟩ := punctuation
      rw [first_of_visible visible noComment, if_neg (by simp [unnamed]),
        if_neg (by simp [uncounted]), if_neg (by simp [single, double]), if_neg back]

section Lexemes

variable {lexeme after : List Char}

theorem Leads.eq_of_punctuation {c : Char}
    (leads : Leads (.lexeme (.punctuation c) lexeme) after) : lexeme = [c] := by
  cases leads
  rfl

theorem Leads.quoted_of_string {terminated : Bool}
    (leads : Leads (.lexeme (.string terminated) lexeme) after) :
    ∃ quote taken, lexeme = quote :: taken ∧ (quote = '\x27' ∨ quote = '\x22') ∧
      Literal quote false terminated taken after := by
  cases leads with
  | string quotes literal => exact ⟨_, _, rfl, quotes, literal⟩

theorem Leads.quoted_of_template {terminated : Bool}
    (leads : Leads (.lexeme (.template terminated) lexeme) after) :
    ∃ taken, lexeme = backquote :: taken ∧ Literal backquote true terminated taken after := by
  cases leads with
  | template literal => exact ⟨_, rfl, literal⟩

end Lexemes

/-- A property of scripts may be proved one piece at a time, from the end. -/
@[elab_as_elim]
theorem script_induction {motive : List Char → Prop} (script : List Char) (nil : motive [])
    (piece : ∀ piece after, Leads piece after → motive after → motive (piece.chars ++ after)) :
    motive script := by
  match script with
  | [] => exact nil
  | c :: rest =>
      have later := script_induction (first c rest).2 nil piece
      rw [← first_append c rest]
      exact piece _ _ (leads_first c rest) later
termination_by script.length
decreasing_by exact length_first_snd c rest

/-- The token that a piece is at an offset, if it is one. -/
def token? (start : Nat) : Piece → Option Token
  | .lexeme kind chars => some ⟨kind, start, start + Text.byteLength chars, chars⟩
  | _ => none

/-- The tokens of the rest of a script that begins at an offset. -/
def scan (start : Nat) (script : List Char) : List Token :=
  tokens start (ofChars script)

theorem scan_nil (start : Nat) : scan start [] = [] := by
  rw [scan, ofChars, tokens]

/-- The piece at the beginning of a script comes first among its tokens, if it is one. -/
theorem Leads.scan_append {piece : Piece} {after : List Char} (leads : Leads piece after)
    (start : Nat) :
    scan start (piece.chars ++ after) =
      (piece.token? start).toList ++ scan (start + Text.byteLength piece.chars) after := by
  obtain ⟨c, rest, whole⟩ : ∃ c rest, piece.chars ++ after = c :: rest := by
    cases leads <;> exact ⟨_, _, rfl⟩
  rw [scan, whole, ofChars, first_eq_of_leads leads whole]
  cases piece <;> rfl

theorem tokenize_eq_scan (source : String) : tokenize source = scan 0 source.toList := rfl

/-- Every token stands in the script at its offset and leads what follows it there. -/
theorem mem_scan {token : Token} {start : Nat} {script : List Char}
    (member : token ∈ scan start script) :
    ∃ before after, script = before ++ (token.lexeme ++ after) ∧
      token.start = start + Text.byteLength before ∧
      token.stop = token.start + Text.byteLength token.lexeme ∧
      Leads (.lexeme token.kind token.lexeme) after := by
  induction script using script_induction generalizing start with
  | nil =>
      rw [scan_nil] at member
      cases member
  | piece piece after leads inductionHypothesis =>
      rw [leads.scan_append, List.mem_append, Option.mem_toList] at member
      rcases member with here | later
      · cases piece <;> cases here
        exact ⟨[], after, rfl, rfl, rfl, leads⟩
      · obtain ⟨before, beyond, rfl, starts, stops, fits⟩ := inductionHypothesis later
        refine ⟨piece.chars ++ before, beyond, by rw [List.append_assoc], ?_, stops, fits⟩
        rw [starts, Text.byteLength_append, Nat.add_assoc]

end Piece

end ScriptAnalysis
