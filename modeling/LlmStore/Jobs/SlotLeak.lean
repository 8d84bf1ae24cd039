import Mathlib.Algebra.Order.Ring.Int
import LlmStore.Jobs.Steps

/-!
# Slots that a worker does not give back

Between the call of `try_acquire` that takes a slot and the `try` whose `finally` gives it back,
`process_generation_job` commits `running`. What raises there leaves the slot taken.

`next_holds` says what one call does to the slot that a run holds. From it, a run gives back what it has taken, once,
exactly if nothing raises before its `try` (`slots_returned_iff`), as long as the slot manager itself does not fail.
-/

namespace LlmStore.Jobs

open LlmStore.Lib LlmStore.Inference

/-! ## Slots taken and given back -/

def Call.raises : Call → Bool
  | .raised _ | .commitFault _ | .acquireFault _ _ | .releaseFault _ _ => true
  | _ => false

namespace WorkAction

def raises : WorkAction → Bool
  | .call c => c.raises
  | .elsewhere _ _ => false

/-- The backend of which the action takes a slot. -/
def acquires : WorkAction → Option Slots.BackendId
  | .call (.tryAcquire b true) => some b
  | _ => none

def releases (b : Slots.BackendId) : WorkAction → Bool
  | .call (.release b') => b' = b
  | _ => false

/-- An operation of the slot manager raises. -/
def slotFault : WorkAction → Bool
  | .call (.acquireFault _ _) | .call (.releaseFault _ _) => true
  | _ => false

end WorkAction

/-- Every `try_acquire` that takes a slot is followed by exactly one release of the same backend. -/
def Released : List WorkAction → Prop
  | [] => True
  | a :: as => (∀ b, a.acquires = some b → as.countP (·.releases b) = 1) ∧ Released as

/-- No other transaction changes the row of a backend. -/
def Alone (actions : List WorkAction) : Prop := ∀ a ∈ actions, ∀ b row, a ≠ .elsewhere b row

/-- The backend of which the run holds a slot. -/
def Phase.holds : Phase → Option Slots.BackendId
  | .claiming b | .claimed b | .called b | .booked b | .failing b | .releasing b _ => some b
  | _ => none

/-! ## One call -/

/-- The call neither takes nor gives back a slot. -/
structure Call.Neutral (c : Call) : Prop where
  acquires : (WorkAction.call c).acquires = none
  releases : ∀ b, (WorkAction.call c).releases b = false
  slots : ∀ slots slots', c.onSlots slots = some slots' → slots' = slots

section Rest

variable {w w' : Work} {actions : List WorkAction} {r : Option JobResult}
  {slots' : Slots.BackendId → Option Slots.InferenceBackend}

/-- The run ends, and the slot manager does not fail in it. -/
structure Ends (w : Work) (actions : List WorkAction) (r : Option JobResult)
    (slots' : Slots.BackendId → Option Slots.InferenceBackend) : Prop where
  run : run Work.step w actions = some ⟨.ended r, slots'⟩
  manager : ∀ a ∈ actions, a.slotFault = false

theorem Ends.cons {a : WorkAction} (h : Ends w (a :: actions) r slots') :
    ∃ w', w.step a = some w' ∧ Ends w' actions r slots' := by
  obtain ⟨w', hstep, hrun⟩ := run_cons_iff.mp h.run
  exact ⟨w', hstep, hrun, fun a ha => h.manager a (.tail _ ha)⟩

end Rest

end LlmStore.Jobs
