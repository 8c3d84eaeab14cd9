import Mathlib.Order.Lattice
import ScriptAnalysis.MessageChain

/-!
# Bounded values

A value is bounded if it is not nested too deeply and all numbers in it are fit for some purpose.
An array or an object is bounded if what it holds is bounded one level further down.
-/

namespace ScriptAnalysis.Json

mutual

/-- The numbers that stand somewhere in the value. -/
def numbers : Json → List Number
  | .number value => [value]
  | .array items => itemsNumbers items
  | .object members => membersNumbers members
  | _ => []

/-- The numbers in the items. -/
def itemsNumbers : List Json → List Number
  | [] => []
  | item :: rest => item.numbers ++ itemsNumbers rest

/-- The numbers in the members. -/
def membersNumbers : List (String × Json) → List Number
  | [] => []
  | (_, value) :: rest => value.numbers ++ membersNumbers rest

end

theorem itemsNesting_le_iff {items : List Json} {depth : Nat} :
    itemsNesting items ≤ depth ↔ ∀ item ∈ items, item.nesting ≤ depth := by
  induction items with
  | nil => simp [itemsNesting]
  | cons item rest inductionHypothesis => simp [itemsNesting, inductionHypothesis]

theorem membersNesting_le_iff {members : List (String × Json)} {depth : Nat} :
    membersNesting members ≤ depth ↔ ∀ entry ∈ members, entry.2.nesting ≤ depth := by
  induction members with
  | nil => simp [membersNesting]
  | cons entry rest inductionHypothesis => simp [membersNesting, inductionHypothesis]

theorem mem_itemsNumbers {items : List Json} {number : Number} :
    number ∈ itemsNumbers items ↔ ∃ item ∈ items, number ∈ item.numbers := by
  induction items with
  | nil => simp [itemsNumbers]
  | cons item rest inductionHypothesis => simp [itemsNumbers, inductionHypothesis]

theorem mem_membersNumbers {members : List (String × Json)} {number : Number} :
    number ∈ membersNumbers members ↔ ∃ entry ∈ members, number ∈ entry.2.numbers := by
  induction members with
  | nil => simp [membersNumbers]
  | cons entry rest inductionHypothesis => simp [membersNumbers, inductionHypothesis]

/-- The value is nested at most so deeply, and all numbers in it are fit. -/
structure Bounded (fit : Number → Prop) (depth : Nat) (value : Json) : Prop where
  nesting : value.nesting ≤ depth
  numbers : ∀ number ∈ value.numbers, fit number

variable {fit : Number → Prop} {depth : Nat} {value : Json}

theorem Bounded.imp {other : Number → Prop}
    (weaker : ∀ number ∈ value.numbers, fit number → other number)
    (bounded : Bounded fit depth value) : Bounded other depth value :=
  ⟨bounded.nesting, fun number member => weaker number member (bounded.numbers number member)⟩

theorem Bounded.mono {more : Nat} (bounded : Bounded fit depth value) (deeper : depth ≤ more) :
    Bounded fit more value :=
  ⟨bounded.nesting.trans deeper, bounded.numbers⟩

@[simp]
theorem bounded_null : Bounded fit depth .null :=
  ⟨Nat.zero_le _, fun _ member => absurd member List.not_mem_nil⟩

@[simp]
theorem bounded_bool (value : Bool) : Bounded fit depth (.bool value) :=
  ⟨Nat.zero_le _, fun _ member => absurd member List.not_mem_nil⟩

@[simp]
theorem bounded_string (text : String) : Bounded fit depth (.string text) :=
  ⟨Nat.zero_le _, fun _ member => absurd member List.not_mem_nil⟩

@[simp]
theorem bounded_number (number : Number) : Bounded fit depth (.number number) ↔ fit number :=
  ⟨fun bounded => bounded.numbers number List.mem_cons_self,
    fun fits => ⟨Nat.zero_le _, fun _ member => List.mem_singleton.mp member ▸ fits⟩⟩

@[simp]
theorem bounded_array (items : List Json) :
    Bounded fit (depth + 1) (.array items) ↔ ∀ item ∈ items, Bounded fit depth item := by
  constructor
  · rintro ⟨nesting, numbers⟩ item member
    rw [Json.nesting, Nat.succ_le_succ_iff, itemsNesting_le_iff] at nesting
    exact ⟨nesting item member, fun number inside =>
      numbers number (mem_itemsNumbers.mpr ⟨item, member, inside⟩)⟩
  · intro each
    refine ⟨?_, fun number member => ?_⟩
    · rw [Json.nesting, Nat.succ_le_succ_iff, itemsNesting_le_iff]
      exact fun item member => (each item member).nesting
    · obtain ⟨item, inside, found⟩ := mem_itemsNumbers.mp member
      exact (each item inside).numbers number found

@[simp]
theorem bounded_object (members : List (String × Json)) :
    Bounded fit (depth + 1) (.object members) ↔
      ∀ entry ∈ members, Bounded fit depth entry.2 := by
  constructor
  · rintro ⟨nesting, numbers⟩ entry member
    rw [Json.nesting, Nat.succ_le_succ_iff, membersNesting_le_iff] at nesting
    exact ⟨nesting entry member, fun number inside =>
      numbers number (mem_membersNumbers.mpr ⟨entry, member, inside⟩)⟩
  · intro each
    refine ⟨?_, fun number member => ?_⟩
    · rw [Json.nesting, Nat.succ_le_succ_iff, membersNesting_le_iff]
      exact fun entry member => (each entry member).nesting
    · obtain ⟨entry, inside, found⟩ := mem_membersNumbers.mp member
      exact (each entry inside).numbers number found

end ScriptAnalysis.Json
