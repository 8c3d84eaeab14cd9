import ScriptAnalysis.Proofs.Json.Bounded
import ScriptAnalysis.Proofs.Json.Number
import ScriptAnalysis.Proofs.Json.Sorted

/-!
# What is read from a text

A value that was read has its members in order, its nesting is bounded and its integers are
legible (`Json.wellRead`). Its doubles need not be: a reader may round where the writer does not.
-/

namespace ScriptAnalysis.Json

/-! ### Sorting a bounded value -/

variable {fit : Number → Prop}

mutual

/-- Sorting leaves a value bounded. -/
theorem bounded_sorted : (value : Json) → ∀ {depth}, Bounded fit depth value →
    Bounded fit depth value.sorted
  | .null, _, bounded => bounded
  | .bool _, _, bounded => bounded
  | .number _, _, bounded => bounded
  | .string _, _, bounded => bounded
  | .array _, 0, bounded => absurd bounded.nesting (Nat.not_succ_le_zero _)
  | .array items, depth + 1, bounded => by
      rw [bounded_array] at bounded
      rw [sorted, bounded_array]
      exact bounded_sortedItems items bounded
  | .object _, 0, bounded => absurd bounded.nesting (Nat.not_succ_le_zero _)
  | .object members, depth + 1, bounded => by
      rw [bounded_object] at bounded
      rw [sorted, bounded_object]
      exact fun entry member => bounded_sortedMembers members bounded entry (mem_sortMembers member)

theorem bounded_sortedItems : (items : List Json) → ∀ {depth},
    (∀ item ∈ items, Bounded fit depth item) → ∀ item ∈ sortedItems items, Bounded fit depth item
  | [], _, _, _, member => absurd member List.not_mem_nil
  | first :: rest, _, each, item, member => by
      rw [List.forall_mem_cons] at each
      rcases List.mem_cons.mp member with rfl | later
      · exact bounded_sorted first each.1
      · exact bounded_sortedItems rest each.2 item later

theorem bounded_sortedMembers : (members : List (String × Json)) → ∀ {depth},
    (∀ entry ∈ members, Bounded fit depth entry.2) →
      ∀ entry ∈ sortedMembers members, Bounded fit depth entry.2
  | [], _, _, _, member => absurd member List.not_mem_nil
  | (name, value) :: rest, _, each, entry, member => by
      rw [List.forall_mem_cons] at each
      rcases List.mem_cons.mp member with rfl | later
      · exact bounded_sorted value each.1
      · exact bounded_sortedMembers rest each.2 entry later

end

/-! ### Values that were read -/

/-- The number is a double, or an integer that reads back from its text. -/
def Number.Exact (number : Number) : Prop :=
  ∀ value, number = .integer value → number.Legible

/-- The members of every object ascend, and the integers of the value, which is nested at most so
deeply, read back from their texts. -/
structure WellRead (depth : Nat) (value : Json) : Prop where
  sorted : value.sorted = value
  bounded : Bounded Number.Exact depth value

mutual

/-- What a written value means is well read. -/
theorem wellRead : (written : Written) → ∀ {depth value},
    written.valueWithin depth = some value → WellRead depth value
  | .null _, depth, value, means => by
      cases means
      exact ⟨rfl, bounded_null⟩
  | .bool _ truth, depth, value, means => by
      cases means
      exact ⟨rfl, bounded_bool truth⟩
  | .number _ text, depth, value, means => by
      obtain ⟨number, meaning, rfl⟩ := Option.map_eq_some_iff.mp means
      refine ⟨rfl, (bounded_number number).mpr ?_⟩
      rintro value rfl
      exact Number.legible_of_number? meaning
  | .string _ parts, depth, value, means => by
      obtain ⟨text, meaning, rfl⟩ := Option.map_eq_some_iff.mp means
      exact ⟨rfl, bounded_string text⟩
  | .array _ items, 0, value, means => by cases means
  | .array _ items, depth + 1, value, means => by
      obtain ⟨values, meaning, rfl⟩ := Option.map_eq_some_iff.mp means
      have each := itemsWellRead items meaning
      exact ⟨sorted_array_eq_self fun item member => (each item member).sorted,
        (bounded_array values).mpr fun item member => (each item member).bounded⟩
  | .object _ members, 0, value, means => by cases means
  | .object _ members, depth + 1, value, means => by
      obtain ⟨values, meaning, rfl⟩ := Option.map_eq_some_iff.mp means
      have each : ∀ entry ∈ sortMembers values, WellRead depth entry.2 := fun entry member =>
        membersWellRead members meaning entry (mem_sortMembers member)
      exact ⟨sorted_object_eq_self (ascending_sortMembers values)
          fun entry member => (each entry member).sorted,
        (bounded_object _).mpr fun entry member => (each entry member).bounded⟩

theorem itemsWellRead : (items : List Written) → ∀ {depth values},
    itemsWithin depth items = some values → ∀ value ∈ values, WellRead depth value
  | [], depth, values, means => by
      cases means
      exact fun value member => absurd member List.not_mem_nil
  | item :: rest, depth, values, means => by
      rw [itemsWithin] at means
      split at means
      · next first others meaning meanings =>
          cases means
          intro value member
          rcases List.mem_cons.mp member with rfl | later
          · exact wellRead item meaning
          · exact itemsWellRead rest meanings value later
      · cases means

theorem membersWellRead : (members : List (WrittenName × Written)) → ∀ {depth values},
    membersWithin depth members = some values → ∀ entry ∈ values, WellRead depth entry.2
  | [], depth, values, means => by
      cases means
      exact fun entry member => absurd member List.not_mem_nil
  | (name, item) :: rest, depth, values, means => by
      rw [membersWithin] at means
      split at means
      · next text first others _ meaning meanings =>
          cases means
          intro entry member
          rcases List.mem_cons.mp member with rfl | later
          · exact wellRead item meaning
          · exact membersWellRead rest meanings entry later
      · cases means

end

/-- As far as its doubles are legible, all numbers of a value that was read are. -/
theorem WellRead.legible {depth : Nat} {value : Json} (read : WellRead depth value)
    (doubles : ∀ bits, .float bits ∈ value.numbers → (Number.float bits).Legible) :
    Bounded Number.Legible depth value :=
  read.bounded.imp fun number member integers => by
    cases number with
    | integer integer => exact integers integer rfl
    | float bits => exact doubles bits member

end ScriptAnalysis.Json
