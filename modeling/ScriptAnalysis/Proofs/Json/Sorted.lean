import Mathlib.Data.List.Pairwise
import Mathlib.Data.String.Basic
import ScriptAnalysis.Json

/-!
# Members in order

Members ascend if their names do, so that no name comes twice. Sorting makes members ascend
(`Json.ascending_sortMembers`) and leaves members that ascend as they are
(`Json.sortMembers_eq_self`). So a value that was sorted is not changed by sorting it once more
(`Json.sorted_sorted`).
-/

namespace ScriptAnalysis.Json

variable {name : String} {value : Json} {entry : String × Json} {members : List (String × Json)}

/-- The names of the members ascend. -/
def Ascending (members : List (String × Json)) : Prop :=
  members.Pairwise fun left right => left.1 < right.1

theorem ascending_of_names (names : List String) (ascend : names.Pairwise (· < ·))
    (named : members.map Prod.fst = names) : Ascending members :=
  List.pairwise_map.mp (named ▸ ascend)

theorem mem_insertMember (member : entry ∈ insertMember name value members) :
    entry = (name, value) ∨ entry ∈ members := by
  fun_induction insertMember name value members with
  | case1 => exact .inl (List.mem_singleton.mp member)
  | case2 other old rest before => exact List.mem_cons.mp member
  | case3 old rest before =>
      exact (List.mem_cons.mp member).imp_right (List.mem_cons_of_mem _)
  | case4 other old rest before different inductionHypothesis =>
      rcases List.mem_cons.mp member with rfl | inside
      · exact .inr List.mem_cons_self
      · exact (inductionHypothesis inside).imp_right (List.mem_cons_of_mem _)

theorem Ascending.insertMember (ascending : Ascending members) (name : String) (value : Json) :
    Ascending (insertMember name value members) := by
  fun_induction Json.insertMember name value members with
  | case1 => exact List.pairwise_singleton ..
  | case2 other old rest before =>
      refine List.pairwise_cons.mpr ⟨fun entry member => ?_, ascending⟩
      rcases List.mem_cons.mp member with rfl | inside
      · exact before
      · exact before.trans ((List.pairwise_cons.mp ascending).1 entry inside)
  | case3 old rest before => exact List.pairwise_cons.mpr (List.pairwise_cons.mp ascending)
  | case4 other old rest before different inductionHypothesis =>
      obtain ⟨first, others⟩ := List.pairwise_cons.mp ascending
      refine List.pairwise_cons.mpr ⟨fun entry member => ?_, inductionHypothesis others⟩
      rcases mem_insertMember member with rfl | inside
      · exact lt_of_le_of_ne (not_lt.mp before) (Ne.symm different)
      · exact first entry inside

theorem ascending_sortMembers (members : List (String × Json)) :
    Ascending (sortMembers members) := by
  have sorting (members sorted : List (String × Json)) (ascending : Ascending sorted) :
      Ascending (members.foldl (fun sorted entry => Json.insertMember entry.1 entry.2 sorted)
        sorted) := by
    induction members generalizing sorted with
    | nil => exact ascending
    | cons entry rest inductionHypothesis =>
        exact inductionHypothesis _ (ascending.insertMember entry.1 entry.2)
  exact sorting members [] List.Pairwise.nil

theorem mem_sortMembers (member : entry ∈ sortMembers members) : entry ∈ members := by
  have sorting (members sorted : List (String × Json))
      (member : entry ∈ members.foldl
        (fun sorted entry => Json.insertMember entry.1 entry.2 sorted) sorted) :
      entry ∈ sorted ∨ entry ∈ members := by
    induction members generalizing sorted with
    | nil => exact .inl member
    | cons first rest inductionHypothesis =>
        rcases inductionHypothesis _ member with inserted | later
        · rcases mem_insertMember inserted with rfl | before
          · exact .inr List.mem_cons_self
          · exact .inl before
        · exact .inr (List.mem_cons_of_mem _ later)
  exact (sorting members [] member).resolve_left List.not_mem_nil

/-- A member whose name comes after all others goes to the end. -/
theorem insertMember_last (last : ∀ entry ∈ members, entry.1 < name) (value : Json) :
    insertMember name value members = members ++ [(name, value)] := by
  induction members with
  | nil => rfl
  | cons first rest inductionHypothesis =>
      obtain ⟨other, old⟩ := first
      have after : other < name := last (other, old) List.mem_cons_self
      rw [insertMember, if_neg (lt_asymm after), if_neg (ne_of_gt after),
        inductionHypothesis fun entry member => last entry (List.mem_cons_of_mem _ member),
        List.cons_append]

/-- Members that ascend stay as they are. -/
theorem sortMembers_eq_self (ascending : Ascending members) : sortMembers members = members := by
  have sorting (members sorted : List (String × Json)) (ascending : Ascending (sorted ++ members)) :
      members.foldl (fun sorted entry => insertMember entry.1 entry.2 sorted) sorted =
        sorted ++ members := by
    induction members generalizing sorted with
    | nil => exact (List.append_nil sorted).symm
    | cons entry rest inductionHypothesis =>
        have last : ∀ before ∈ sorted, before.1 < entry.1 := fun before member =>
          (List.pairwise_append.mp ascending).2.2 before member entry List.mem_cons_self
        rw [List.foldl_cons, insertMember_last last,
          inductionHypothesis _ (by simpa using ascending), List.append_assoc,
          List.singleton_append]
  exact sorting members [] ascending

/-- A member of a new name is added. -/
theorem insertMember_perm (absent : ∀ entry ∈ members, entry.1 ≠ name) (value : Json) :
    (insertMember name value members).Perm ((name, value) :: members) := by
  induction members with
  | nil => exact .refl _
  | cons first rest inductionHypothesis =>
      obtain ⟨other, old⟩ := first
      have different : name ≠ other := (absent (other, old) List.mem_cons_self).symm
      rw [insertMember, if_neg different]
      split
      · exact .refl _
      · refine .trans (.cons _ (inductionHypothesis fun entry member => ?_)) (.swap ..)
        exact absent entry (List.mem_cons_of_mem _ member)

/-- Members of different names are only rearranged. -/
theorem sortMembers_perm (distinct : members.Pairwise fun left right => left.1 ≠ right.1) :
    (sortMembers members).Perm members := by
  have sorting (members sorted : List (String × Json))
      (distinct : (sorted ++ members).Pairwise fun left right => left.1 ≠ right.1) :
      (members.foldl (fun sorted entry => insertMember entry.1 entry.2 sorted) sorted).Perm
        (sorted ++ members) := by
    induction members generalizing sorted with
    | nil => simp
    | cons entry rest inductionHypothesis =>
        have absent : ∀ before ∈ sorted, before.1 ≠ entry.1 := fun before member =>
          (List.pairwise_append.mp distinct).2.2 before member entry List.mem_cons_self
        have inserted : (insertMember entry.1 entry.2 sorted ++ rest).Perm
            (sorted ++ entry :: rest) :=
          ((insertMember_perm absent entry.2).append_right rest).trans List.perm_middle.symm
        have others := inserted.symm.pairwise distinct Ne.symm
        exact (inductionHypothesis _ others).trans inserted
  exact sorting members [] distinct

/-- Members that are rearranged so that they ascend are the sorted members. -/
theorem sortMembers_eq_of_perm {arranged : List (String × Json)} (perm : arranged.Perm members)
    (ascending : Ascending arranged) : sortMembers members = arranged := by
  have distinct : members.Pairwise fun left right => left.1 ≠ right.1 :=
    perm.pairwise (ascending.imp ne_of_lt) Ne.symm
  exact List.Perm.eq_of_pairwise
    (fun left right _ _ before after => absurd (before.trans after) (lt_irrefl _))
    (ascending_sortMembers members) ascending ((sortMembers_perm distinct).trans perm.symm)

theorem sortedItems_eq_map (items : List Json) : sortedItems items = items.map sorted := by
  induction items with
  | nil => rfl
  | cons item rest inductionHypothesis => rw [sortedItems, inductionHypothesis, List.map_cons]

theorem sortedMembers_eq_map (members : List (String × Json)) :
    sortedMembers members = members.map fun entry => (entry.1, entry.2.sorted) := by
  induction members with
  | nil => rfl
  | cons entry rest inductionHypothesis => rw [sortedMembers, inductionHypothesis, List.map_cons]

/-- An object whose members can be rearranged so that they ascend. -/
theorem sorted_object_of_perm {arranged : List (String × Json)} (perm : arranged.Perm members)
    (ascending : Ascending arranged) :
    (Json.object members).sorted = .object (sortedMembers arranged) := by
  rw [sorted]
  refine congrArg Json.object (sortMembers_eq_of_perm ?_ ?_)
  · rw [sortedMembers_eq_map, sortedMembers_eq_map]
    exact perm.map _
  · rw [sortedMembers_eq_map]
    exact List.pairwise_map.mpr ascending

theorem sorted_array_eq_self {items : List Json} (each : ∀ item ∈ items, item.sorted = item) :
    (Json.array items).sorted = .array items := by
  rw [sorted, sortedItems_eq_map, List.map_congr_left each, List.map_id']

/-- An object whose members ascend and are sorted inside is sorted. -/
theorem sorted_object_eq_self (ascending : Ascending members)
    (each : ∀ entry ∈ members, entry.2.sorted = entry.2) :
    (Json.object members).sorted = .object members := by
  have inside : ∀ entry ∈ members, (entry.1, entry.2.sorted) = entry := fun entry member => by
    rw [each entry member]
  rw [sorted, sortedMembers_eq_map, List.map_congr_left inside, List.map_id',
    sortMembers_eq_self ascending]

mutual

/-- Sorting twice is sorting once. -/
theorem sorted_sorted : (value : Json) → value.sorted.sorted = value.sorted
  | .null => rfl
  | .bool _ => rfl
  | .number _ => rfl
  | .string _ => rfl
  | .array items => by
      rw [sorted]
      exact sorted_array_eq_self (sorted_sortedItems items)
  | .object members => by
      rw [sorted]
      refine sorted_object_eq_self (ascending_sortMembers _) fun entry member => ?_
      exact sorted_sortedMembers members entry (mem_sortMembers member)

theorem sorted_sortedItems :
    (items : List Json) → ∀ item ∈ sortedItems items, item.sorted = item
  | [], _, member => absurd member List.not_mem_nil
  | first :: rest, item, member => by
      rcases List.mem_cons.mp member with rfl | later
      · exact sorted_sorted first
      · exact sorted_sortedItems rest item later

theorem sorted_sortedMembers : (members : List (String × Json)) →
    ∀ entry ∈ sortedMembers members, entry.2.sorted = entry.2
  | [], _, member => absurd member List.not_mem_nil
  | (name, value) :: rest, entry, member => by
      rcases List.mem_cons.mp member with rfl | later
      · exact sorted_sorted value
      · exact sorted_sortedMembers rest entry later

end

end ScriptAnalysis.Json
