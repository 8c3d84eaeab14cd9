import ScriptAnalysis.Json.Decode
import ScriptAnalysis.Proofs.Json.RoundTrip
import ScriptAnalysis.Proofs.Json.Sorted

/-!
# Writing and reading typed values

A value survives its encoding if the decoder reads it back from the encoding, as it is written and
with all members in order. A type makes the round trip (`Json.RoundTrips`) if its values survive;
then they survive as texts too, and no two of them have one encoding.
-/

namespace ScriptAnalysis.Json

/-! ### Outcomes -/

theorem map_eq_ok_iff {ε α β : Type} {outcome : Except ε α} {f : α → β} {result : β} :
    outcome.map f = .ok result ↔ ∃ value, outcome = .ok value ∧ f value = result := by
  cases outcome <;> simp [Except.map]

theorem mapError_eq_ok_iff {ε φ α : Type} {outcome : Except ε α} {f : ε → φ} {value : α} :
    outcome.mapError f = .ok value ↔ outcome = .ok value := by
  cases outcome <;> simp [Except.mapError]

/-- A record that was read is what a draft amounts to. -/
theorem Record.exists_finish {δ α : Type} {record : Record δ α} {json : Json} {value : α}
    (read : record.decode json = .ok value) : ∃ draft, record.finish draft = .ok value := by
  unfold decode at read
  split at read
  · split at read
    · cases read
    · exact ⟨_, read⟩
  · split at read
    · cases read
    · exact ⟨_, read⟩
    · cases read
  · cases read

/-! ### Surviving -/

/-- The value is read back from its encoding, whether members stand as written or in order. -/
structure Survives {α : Type} (encode : α → Json) (decode : Decoder α) (value : α) : Prop where
  written : decode (encode value) = .ok value
  sorted : decode (encode value).sorted = .ok value

/-- The values of a type that fit survive their encodings, also as texts as far as these are
legible, and have different encodings. -/
structure RoundTrips {α : Type} (encode : α → Json) (decode : Decoder α) (fits : α → Prop) :
    Prop where
  survives : ∀ value, fits value → Survives encode decode value
  text : ∀ value, fits value → Bounded Number.Legible deepestNesting (encode value) →
    ∃ json, ofText? (encode value).compact = some json ∧ decode json = .ok value
  injective : ∀ left right, fits left → fits right →
    (encode left).sorted = (encode right).sorted → left = right

variable {α : Type} {encode : α → Json} {decode : Decoder α} {fits : α → Prop}

/-- If the values survive, the rest follows. -/
theorem RoundTrips.of_survives (survives : ∀ value, fits value → Survives encode decode value) :
    RoundTrips encode decode fits where
  survives := survives
  text := fun value fit bounded => ⟨_, ofText?_compact bounded, (survives value fit).sorted⟩
  injective := by
    intro left right leftFits rightFits same
    have first := (survives left leftFits).sorted
    rw [same, (survives right rightFits).sorted] at first
    exact (Except.ok.inj first).symm

theorem decodeItems_map (view : Json → Json) {values : List α}
    (each : ∀ value ∈ values, decode (view (encode value)) = .ok value) :
    decodeItems decode (values.map fun value => view (encode value)) = .ok values := by
  induction values with
  | nil => rfl
  | cons first rest inductionHypothesis =>
      rw [List.forall_mem_cons] at each
      rw [List.map_cons, decodeItems, each.1, inductionHypothesis each.2]

/-- A list survives if its values do. -/
theorem Survives.list {values : List α} (each : ∀ value ∈ values, Survives encode decode value) :
    Survives (fun values => .array (values.map encode)) (decodeList decode) values where
  written := decodeItems_map id fun value member => (each value member).written
  sorted := by
    rw [Json.sorted, sortedItems_eq_map, List.map_map]
    exact decodeItems_map Json.sorted fun value member => (each value member).sorted

/-- An optional value that is there and written as an object is not taken for null. -/
theorem Survives.option {value : α} {members : List (String × Json)}
    (survives : Survives encode decode value) (object : encode value = .object members) :
    decodeOption decode (encode value) = .ok (some value) ∧
      decodeOption decode (encode value).sorted = .ok (some value) := by
  obtain ⟨written, ordered⟩ := survives
  rw [object] at written ordered ⊢
  rw [Json.sorted] at ordered ⊢
  exact ⟨map_eq_ok_iff.mpr ⟨value, written, rfl⟩, map_eq_ok_iff.mpr ⟨value, ordered, rfl⟩⟩

theorem survives_string (text : String) : Survives .string decodeString text :=
  ⟨rfl, rfl⟩

theorem decodeBelow_nat {limit value : Nat} (fits : value < limit) (expected : String) :
    decodeBelow limit expected (.nat value) = .ok value := by
  have range : (0 : Int) ≤ value ∧ (value : Int) < limit :=
    ⟨Int.natCast_nonneg _, Int.ofNat_lt.mpr fits⟩
  rw [nat, decodeBelow, if_pos range, Int.toNat_natCast]

theorem survives_size {value : Nat} (fits : value < UInt64.size) :
    Survives .nat decodeSize value :=
  ⟨decodeBelow_nat fits _, decodeBelow_nat fits _⟩

theorem survives_uint32 (value : UInt32) :
    Survives (fun value => .nat value.toNat) decodeUInt32 value := by
  have read : decodeUInt32 (.nat value.toNat) = .ok value := by
    rw [decodeUInt32, decodeBelow_nat value.toNat_lt, Except.map, UInt32.ofNat_toNat]
  exact ⟨read, read⟩

end ScriptAnalysis.Json
