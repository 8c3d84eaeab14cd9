import ScriptAnalysis.MessageChain
import ScriptAnalysis.Proofs.Text.Lines

/-!
# Lines of message chains

A chain in one text has its messages in preorder, each on a line of its own and two blanks deeper
for every level (`linesOf_flatten`). The levels and messages in preorder, its `outline`, determine
the chain: the chains below a message end where the next line of its own or a higher level begins
(`outline_append_injective`). The level of a line is read off its blanks if the message does not
begin with one, so the text determines such a chain (`flatten_loses_nothing`).
-/

namespace ScriptAnalysis.MessageChain

/-- A message at its level. -/
structure Line where
  level : Nat
  message : String
  deriving DecidableEq, Repr

namespace Line

/-- The message behind two blanks for every level. -/
def written (line : Line) : List Char :=
  List.replicate (2 * line.level) ' ' ++ line.message.toList

/-- The message is not taken for several lines or for a deeper one: it has no line feed in it, and
no blank in front. -/
def IsPlain (line : Line) : Prop :=
  '\n' ∉ line.message.toList ∧ line.message.toList.head? ≠ some ' '

instance (line : Line) : Decidable line.IsPlain :=
  inferInstanceAs (Decidable (_ ∧ _))

/-- The line with a level for every two blanks in front. -/
def ofWritten (chars : List Char) : Line :=
  ⟨(chars.takeWhile (· = ' ')).length / 2, String.ofList (chars.dropWhile (· = ' '))⟩

theorem ofWritten_written {line : Line} (flush : line.message.toList.head? ≠ some ' ') :
    ofWritten line.written = line := by
  obtain ⟨level, message⟩ := line
  have blank : ∀ c ∈ List.replicate (2 * level) ' ', decide (c = ' ') = true := fun c member => by
    simpa using List.eq_of_mem_replicate member
  have stays : message.toList.takeWhile (· = ' ') = [] ∧
      message.toList.dropWhile (· = ' ') = message.toList := by
    cases chars : message.toList with
    | nil => exact ⟨rfl, rfl⟩
    | cons c rest =>
        have other : c ≠ ' ' := fun starts => flush (by rw [chars, List.head?_cons, starts])
        simp [other]
  simp [ofWritten, written, List.takeWhile_append_of_pos blank,
    List.dropWhile_append_of_pos blank, stays]

theorem break_notMem_written {line : Line} (whole : '\n' ∉ line.message.toList) :
    '\n' ∉ line.written := by
  intro member
  rcases List.mem_append.mp member with indented | inside
  · exact absurd (List.eq_of_mem_replicate indented) (by decide)
  · exact whole inside

end Line

mutual

/-- The messages of a chain in preorder, the first of them at the given level. -/
def outline (level : Nat) : MessageChain → List Line
  | .link text next => ⟨level, text⟩ :: outlineAll (level + 1) next

/-- The messages of chains at the given level, one chain after the other. -/
def outlineAll (level : Nat) : List MessageChain → List Line
  | [] => []
  | first :: rest => first.outline level ++ outlineAll level rest

end

/-- No message of the chain is taken for several lines or for a deeper one. -/
def IsPlain (chain : MessageChain) : Prop :=
  ∀ line ∈ chain.outline 0, line.IsPlain

instance (chain : MessageChain) : Decidable chain.IsPlain :=
  inferInstanceAs (Decidable (∀ line ∈ chain.outline 0, line.IsPlain))

/-! ### The outline determines the chain -/

/-- The lines go on at a higher level than the given one, if they go on. -/
def Leaves (level : Nat) (lines : List Line) : Prop :=
  ∀ line ∈ lines.head?, line.level < level

theorem leaves_nil (level : Nat) : Leaves level [] := nofun

theorem exists_head_outlineAll_append (level : Nat) (first : MessageChain)
    (rest : List MessageChain) (lines : List Line) :
    ∃ line, (outlineAll level (first :: rest) ++ lines).head? = some line ∧ line.level = level := by
  obtain ⟨text, next⟩ := first
  exact ⟨⟨level, text⟩, rfl, rfl⟩

/-- Chains at a level do not leave it. -/
theorem not_leaves_outlineAll_append (level : Nat) (first : MessageChain)
    (rest : List MessageChain) (lines : List Line) :
    ¬ Leaves level (outlineAll level (first :: rest) ++ lines) := by
  intro leaves
  obtain ⟨line, head, same⟩ := exists_head_outlineAll_append level first rest lines
  exact absurd same (Nat.ne_of_lt (leaves line head))

/-- Chains at a level leave the levels below it. -/
theorem Leaves.outlineAll_append {level : Nat} {lines : List Line} (leaves : Leaves level lines)
    (chains : List MessageChain) : Leaves (level + 1) (outlineAll level chains ++ lines) := by
  intro line head
  cases chains with
  | nil => exact Nat.lt_succ_of_lt (leaves line head)
  | cons first rest =>
      obtain ⟨_, found, same⟩ := exists_head_outlineAll_append level first rest lines
      obtain rfl := Option.some.inj (found.symm.trans head)
      exact Nat.lt_succ_of_le (Nat.le_of_eq same)

mutual

/-- A chain and what follows it are told apart by their lines, if those that follow leave the levels
below the chain. -/
theorem outline_append_injective (level : Nat) : (left right : MessageChain) →
    {after others : List Line} → Leaves (level + 1) after → Leaves (level + 1) others →
      left.outline level ++ after = right.outline level ++ others →
        left = right ∧ after = others
  | .link text next, .link message below, after, others, leaves, left, same => by
      rw [outline, outline, List.cons_append, List.cons_append, List.cons.injEq,
        Line.mk.injEq] at same
      obtain ⟨⟨-, rfl⟩, rest⟩ := same
      obtain ⟨rfl, rfl⟩ := outlineAll_append_injective (level + 1) next below leaves left rest
      exact ⟨rfl, rfl⟩

theorem outlineAll_append_injective (level : Nat) : (left right : List MessageChain) →
    {after others : List Line} → Leaves level after → Leaves level others →
      outlineAll level left ++ after = outlineAll level right ++ others →
        left = right ∧ after = others
  | [], [], _, _, _, _, same => ⟨rfl, same⟩
  -- If one side has a chain more, what follows the other side would begin at the level it leaves.
  | [], second :: more, after, others, leaves, _, same =>
      have longer : after = outlineAll level (second :: more) ++ others := same
      absurd (longer ▸ leaves) (not_leaves_outlineAll_append level second more others)
  | first :: rest, [], after, others, _, leaves, same =>
      have longer : outlineAll level (first :: rest) ++ after = others := same
      absurd (longer ▸ leaves) (not_leaves_outlineAll_append level first rest after)
  | first :: rest, second :: more, after, others, leaves, left, same => by
      rw [outlineAll, outlineAll, List.append_assoc, List.append_assoc] at same
      obtain ⟨rfl, later⟩ := outline_append_injective level first second
        (leaves.outlineAll_append rest) (left.outlineAll_append more) same
      obtain ⟨rfl, rfl⟩ := outlineAll_append_injective level rest more leaves left later
      exact ⟨rfl, rfl⟩

end

theorem outline_injective (level : Nat) : Function.Injective (outline level) := by
  intro left right same
  have lines : left.outline level ++ [] = right.outline level ++ [] := by rw [same]
  exact (outline_append_injective level left right (leaves_nil _) (leaves_nil _) lines).1

/-! ### The lines are the outline -/

mutual

/-- Below the first level every message stands behind a break. -/
theorem toList_flattenAt_succ (newLine : String) (level : Nat) : (chain : MessageChain) →
    (flattenAt newLine (level + 1) chain).toList =
      (chain.outline (level + 1)).flatMap fun line => newLine.toList ++ line.written
  | .link text next => by
      rw [flattenAt, outline, List.flatMap_cons, String.toList_append, String.toList_append,
        toList_flattenAll_succ newLine (level + 1) next]
      simp [indent, Line.written]

theorem toList_flattenAll_succ (newLine : String) (level : Nat) : (chains : List MessageChain) →
    (flattenAll newLine (level + 1) chains).toList =
      (outlineAll (level + 1) chains).flatMap fun line => newLine.toList ++ line.written
  | [] => rfl
  | first :: rest => by
      rw [flattenAll, outlineAll, List.flatMap_append, String.toList_append,
        toList_flattenAt_succ newLine level first, toList_flattenAll_succ newLine level rest]

end

theorem intercalate_cons_eq_append_flatMap (separator first : List Char)
    (rest : List (List Char)) :
    separator.intercalate (first :: rest) = first ++ rest.flatMap (separator ++ ·) := by
  induction rest generalizing first with
  | nil => simp
  | cons second more inductionHypothesis =>
      rw [List.intercalate_cons_cons, inductionHypothesis, List.flatMap_cons]
      simp

/-- A chain in one text is its outline with breaks between the lines. -/
theorem toList_flatten (chain : MessageChain) (newLine : String) :
    (chain.flatten newLine).toList =
      newLine.toList.intercalate ((chain.outline 0).map Line.written) := by
  obtain ⟨text, next⟩ := chain
  rw [flatten, flattenAt, outline, List.map_cons, intercalate_cons_eq_append_flatMap,
    List.flatMap_map, String.toList_append, toList_flattenAll_succ]
  simp [indent, Line.written]

/-- Messages without line feeds stand on a line each. -/
theorem linesOf_flatten {chain : MessageChain}
    (whole : ∀ line ∈ chain.outline 0, '\n' ∉ line.message.toList) :
    Text.linesOf (chain.flatten "\n").toList = (chain.outline 0).map Line.written := by
  rw [Text.linesOf, toList_flatten]
  refine List.splitOn_intercalate '\n' (fun chars member => ?_) ?_
  · obtain ⟨line, there, rfl⟩ := List.mem_map.mp member
    exact Line.break_notMem_written (whole line there)
  · cases chain
    simp [outline]

/-- The outline of a plain chain is read off the lines. -/
theorem IsPlain.outline_eq {chain : MessageChain} (plain : chain.IsPlain) :
    (Text.linesOf (chain.flatten "\n").toList).map Line.ofWritten = chain.outline 0 := by
  have read : ∀ line ∈ chain.outline 0, (Line.ofWritten ∘ Line.written) line = line :=
    fun line member => Line.ofWritten_written (plain line member).2
  rw [linesOf_flatten fun line member => (plain line member).1, List.map_map,
    List.map_congr_left read, List.map_id']

/-- Two chains whose messages have no line feed in them and no blank in front are equal if their
texts are. The lines of a chain in one text, if its messages have no line feed in them, are these
messages in preorder, each behind two blanks for every level. -/
theorem flatten_loses_nothing :
    (∀ left right : MessageChain, left.IsPlain → right.IsPlain →
      left.flatten "\n" = right.flatten "\n" → left = right) ∧
    ∀ chain : MessageChain, (∀ line ∈ chain.outline 0, '\n' ∉ line.message.toList) →
      Text.linesOf (chain.flatten "\n").toList = (chain.outline 0).map fun line =>
        List.replicate (2 * line.level) ' ' ++ line.message.toList := by
  constructor
  · intro left right leftPlain rightPlain same
    refine outline_injective 0 ?_
    rw [← leftPlain.outline_eq, ← rightPlain.outline_eq, same]
  · intro chain whole
    exact linesOf_flatten whole

/-- A message below another one and an empty message behind them. -/
theorem flatten_loses_nothing_siblings :
    let chain := link "top" [link "a" [single "b"], single ""]
    let extended := link "top" ([link "a" [single "b"]] ++ [single ""])
    chain.IsPlain ∧ extended.IsPlain ∧ chain.flatten "\n" = extended.flatten "\n" ∧
      chain = extended ∧
      Text.linesOf (chain.flatten "\n").toList = ["top", "  a", "    b", "  "].map String.toList := by
  intro chain extended
  have plain : chain.IsPlain := by decide +kernel
  have same : chain = extended := flatten_loses_nothing.1 chain extended plain plain rfl
  have lines := flatten_loses_nothing.2 chain fun line member => (plain line member).1
  exact ⟨plain, plain, rfl, same, lines.trans (by decide +kernel)⟩

end ScriptAnalysis.MessageChain
