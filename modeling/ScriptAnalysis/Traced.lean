import ScriptAnalysis.Event

/-!
# Computations with a trace

A `Traced` computation is its result beside the events on the way to it. Events never
influence a result, so `value_bind` reads results off as if there were no events, and
`events_bind` says that the events of two steps follow each other.
-/

namespace ScriptAnalysis

/-- A result and the events on the way to it. -/
structure Traced (α : Type) where
  value : α
  events : List Event

namespace Traced

variable {α β : Type}

instance : Monad Traced where
  pure value := ⟨value, []⟩
  bind first next :=
    let second := next first.value
    ⟨second.value, first.events ++ second.events⟩

/-- One event. -/
def note (event : Event) : Traced Unit :=
  ⟨(), [event]⟩

@[simp]
theorem value_pure (value : α) : (pure value : Traced α).value = value := rfl

@[simp]
theorem events_pure (value : α) : (pure value : Traced α).events = [] := rfl

@[simp]
theorem value_bind (first : Traced α) (next : α → Traced β) :
    (first >>= next).value = (next first.value).value := rfl

@[simp]
theorem events_bind (first : Traced α) (next : α → Traced β) :
    (first >>= next).events = first.events ++ (next first.value).events := rfl

@[simp]
theorem value_map (function : α → β) (first : Traced α) :
    (function <$> first).value = function first.value := rfl

@[simp]
theorem events_map (function : α → β) (first : Traced α) :
    (function <$> first).events = first.events := by
  show first.events ++ [] = first.events
  simp

@[simp]
theorem events_note (event : Event) : (note event).events = [event] := rfl

@[ext]
theorem ext {left right : Traced α} (value : left.value = right.value)
    (events : left.events = right.events) : left = right := by
  cases left
  cases right
  cases value
  cases events
  rfl

instance : LawfulMonad Traced :=
  LawfulMonad.mk' Traced
    (fun first => by apply ext <;> simp)
    (fun value next => by apply ext <;> simp)
    (fun first next last => by apply ext <;> simp)

/-- Apply a step to every item in turn, with a state that is handed on, and collect the
results. -/
def mapState {σ : Type} (step : α → σ → Traced (β × σ)) :
    List α → σ → Traced (List β × σ)
  | [], state => pure ([], state)
  | item :: rest, state => do
      let (result, next) ← step item state
      let (results, final) ← mapState step rest next
      pure (result :: results, final)

end Traced

end ScriptAnalysis
