import Mathlib.Data.List.Basic
import ScriptAnalysis.Traced

/-!
# Laws of threaded steps

`Traced.mapState` hands a state from item to item. What every step keeps of the state
holds in the end, and what every step says about its own item holds of all results. What every
step pays for by filling something (`Event.Fills`) happens at most once.
-/

namespace ScriptAnalysis

namespace Event

/-- Each event that counts is paid for by filling what was empty before, and nothing that was
full is emptied. -/
def Fills (counts : Event → Bool) (events : List Event) (before after : Bool) : Prop :=
  events.countP counts + before.toNat ≤ after.toNat

variable {counts : Event → Bool} {first second : List Event} {before between after : Bool}

theorem fills_nil (counts : Event → Bool) (held : Bool) : Fills counts [] held held :=
  Nat.le_of_eq (Nat.zero_add _)

/-- What counts for nothing is paid for. -/
theorem fills_of_none {events : List Event} (none : ∀ event ∈ events, counts event = false) :
    Fills counts events before before := by
  have uncounted : events.countP counts = 0 :=
    List.countP_eq_zero.mpr fun event member => by rw [none event member]; exact Bool.false_ne_true
  exact Nat.le_of_eq (by rw [uncounted, Nat.zero_add])

theorem Fills.append (earlier : Fills counts first before between)
    (later : Fills counts second between after) : Fills counts (first ++ second) before after := by
  simp only [Fills, List.countP_append] at *
  omega

/-- What is paid for or was full before is full afterwards. -/
theorem Fills.eq_true (fills : Fills counts first before after)
    (some : 0 < first.countP counts + before.toNat) : after = true :=
  Bool.toNat_eq_one.mp (Nat.le_antisymm after.toNat_le (Nat.lt_of_lt_of_le some fills))

/-- What can be filled once happens once at most. -/
theorem Fills.countP_le_one (fills : Fills counts first before after) : first.countP counts ≤ 1 :=
  calc first.countP counts
    _ ≤ first.countP counts + before.toNat := Nat.le_add_right _ _
    _ ≤ after.toNat := fills
    _ ≤ 1 := after.toNat_le

end Event

namespace Traced

variable {α β σ : Type} {step : α → σ → Traced (β × σ)}

@[simp]
theorem value_mapState_nil (state : σ) : (mapState step [] state).value = ([], state) := rfl

@[simp]
theorem value_mapState_cons (item : α) (rest : List α) (state : σ) :
    (mapState step (item :: rest) state).value =
      ((step item state).value.1 :: (mapState step rest (step item state).value.2).value.1,
        (mapState step rest (step item state).value.2).value.2) := rfl

/-- One step at a time: what each step keeps and what it says about its item hold of the
whole walk. -/
theorem mapState_keeps (step : α → σ → Traced (β × σ)) (keeps : σ → Prop)
    (tells : α → β → Prop) {items : List α}
    (one : ∀ item ∈ items, ∀ state, keeps state →
      tells item (step item state).value.1 ∧ keeps (step item state).value.2)
    {state : σ} (start : keeps state) :
    List.Forall₂ tells items (mapState step items state).value.1 ∧
      keeps (mapState step items state).value.2 := by
  induction items generalizing state with
  | nil => exact ⟨.nil, start⟩
  | cons item rest inductionHypothesis =>
      obtain ⟨said, kept⟩ := one item List.mem_cons_self state start
      obtain ⟨others, final⟩ := inductionHypothesis
        (fun other member => one other (List.mem_cons_of_mem _ member)) kept
      exact ⟨.cons said others, final⟩

/-- The events of a walk are those of its steps. -/
theorem events_mapState_cons (step : α → σ → Traced (β × σ)) (item : α) (rest : List α)
    (state : σ) :
    (mapState step (item :: rest) state).events =
      (step item state).events ++ (mapState step rest (step item state).value.2).events :=
  congrArg _ (List.append_nil _)

theorem mem_events_mapState {items : List α} {state : σ} {event : Event}
    (member : event ∈ (mapState step items state).events) :
    ∃ item state, event ∈ (step item state).events := by
  induction items generalizing state with
  | nil => cases member
  | cons item rest inductionHypothesis =>
      rw [events_mapState_cons, List.mem_append] at member
      rcases member with now | later
      · exact ⟨item, state, now⟩
      · exact inductionHypothesis later

/-- What every step does to the state along its events the whole walk does, if it is done by
doing nothing and by doing it twice. -/
theorem mapState_composes (does : σ → List Event → σ → Prop) (still : ∀ state, does state [] state)
    (append : ∀ {first between last : σ} {earlier later : List Event},
      does first earlier between → does between later last → does first (earlier ++ later) last)
    (one : ∀ item state, does state (step item state).events (step item state).value.2)
    (items : List α) (state : σ) :
    does state (mapState step items state).events (mapState step items state).value.2 := by
  induction items generalizing state with
  | nil => exact still state
  | cons item rest inductionHypothesis =>
      rw [events_mapState_cons]
      exact append (one item state) (inductionHypothesis _)

/-- Steps that pay for their events make a walk that pays for its events. -/
theorem fills_mapState {counts : Event → Bool} (filled : σ → Bool)
    (fills : ∀ item state, Event.Fills counts (step item state).events (filled state)
      (filled (step item state).value.2)) (items : List α) (state : σ) :
    Event.Fills counts (mapState step items state).events (filled state)
      (filled (mapState step items state).value.2) :=
  mapState_composes (fun before events after => Event.Fills counts events (filled before)
    (filled after)) (fun _ => Event.fills_nil counts _) .append fills items state

/-- What every step says about its own item and the state after it holds in the end, if no step
takes it back. -/
theorem mapState_marks (marks : α → σ → Prop) {items : List α} {state : σ}
    (one : ∀ item ∈ items, ∀ state, marks item (step item state).value.2)
    (persists : ∀ item other state, marks other state → marks other (step item state).value.2) :
    ∀ item ∈ items, marks item (mapState step items state).value.2 := by
  induction items generalizing state with
  | nil => exact nofun
  | cons first rest inductionHypothesis =>
      intro item member
      rcases List.mem_cons.mp member with rfl | later
      · have start : marks item (step item state).value.2 := one item List.mem_cons_self state
        exact (mapState_keeps step (marks item) (fun _ _ => True)
          (fun other _ state held => ⟨trivial, persists other item state held⟩) start).2
      · exact inductionHypothesis
          (fun other later => one other (List.mem_cons_of_mem first later)) item later

/-- Steps that leave the state alone are a plain map. -/
theorem mapState_of_still (step : α → σ → Traced (β × σ)) (result : α → β) {state : σ}
    {items : List α} (still : ∀ item ∈ items, (step item state).value = (result item, state)) :
    (mapState step items state).value = (items.map result, state) := by
  induction items with
  | nil => rfl
  | cons item rest inductionHypothesis =>
      rw [value_mapState_cons, still item List.mem_cons_self,
        inductionHypothesis fun other member => still other (List.mem_cons_of_mem item member)]
      rfl

end Traced

end ScriptAnalysis
