import ScriptAnalysis.Proofs.Toml.Distinct

/-!
# What a document means

The value of a document (`Toml.valueOf?`) is its tree without the places of the parts and without
the forms of the tables: tables with headers, on the way of a dotted key and between braces are all
tables, and the tables under one double-bracketed header are an array. At most one value stands
under each name (`valueOf?_nodup`).
-/

namespace ScriptAnalysis.Toml

/-- What a part of a document means. -/
inductive Value where
  | scalar (value : Scalar)
  | array (items : List Value)
  /-- A table with its members in the order in which they were written. -/
  | table (members : List (String × Value))

mutual

/-- The value without places and forms. -/
def Node.value : Node → Value
  | .scalar _ value => .scalar value
  | .array _ items => .array (itemValues items)
  | .table _ _ members => .table (memberValues members)
  | .tables items => .array (itemValues items)

/-- The values of items in their order. -/
def itemValues : List Node → List Value
  | [] => []
  | first :: rest => first.value :: itemValues rest

/-- The names and values of members in their order. -/
def memberValues : List (Key × Node) → List (String × Value)
  | [] => []
  | (key, node) :: rest => (key.text, node.value) :: memberValues rest

end

/-- The members of the document that the text is, if it is one. -/
def valueOf? (text : String) : Option (List (String × Value)) :=
  (documentOfText? text).map memberValues

theorem itemValues_eq_map (items : List Node) : itemValues items = items.map Node.value := by
  induction items with
  | nil => rfl
  | cons first rest inductionHypothesis =>
      rw [itemValues, inductionHypothesis, List.map_cons]

theorem memberValues_eq_map (members : Members) :
    memberValues members = members.map fun entry => (entry.1.text, entry.2.value) := by
  induction members with
  | nil => rfl
  | cons first rest inductionHypothesis =>
      rw [memberValues, inductionHypothesis, List.map_cons]

/-- In the value of a document no name comes twice. -/
theorem valueOf?_nodup {text : String} {document : List (String × Value)}
    (read : valueOf? text = some document) : (document.map Prod.fst).Nodup := by
  obtain ⟨members, there, rfl⟩ := Option.map_eq_some_iff.mp read
  rw [memberValues_eq_map, List.map_map]
  exact (documentOfText?_isDistinct there).nodup

/-- Nothing stands under a name that no member has. -/
theorem lookup_memberValues_eq_none {members : Members} {name : String}
    (absent : name ∉ members.names) : (memberValues members).lookup name = none := by
  rw [memberValues_eq_map, List.lookup_eq_none_iff]
  intro entry member
  obtain ⟨written, there, rfl⟩ := List.mem_map.mp member
  exact bne_iff_ne.mpr fun same => absent (List.mem_map.mpr ⟨written, there, same.symm⟩)

end ScriptAnalysis.Toml
