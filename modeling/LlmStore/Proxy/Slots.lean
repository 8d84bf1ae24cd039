import Mathlib.Algebra.Order.Ring.Int
import LlmStore.Lib.Run

/-!
# Backend slots and the generation queue

`services/backend_slot_manager.py` counts the running generations of a backend in the column `current_running`, each
operation in a transaction of its own with the row locked. `QueueManager.slot` wraps a generation: it takes a place
in the bounded in-memory queue, acquires a slot of the backend, runs its body, and gives both back. `InferenceProxy._forward` runs
its post, or the opening of its stream, as such a body.

`step` is one atomic step of any number of `_forward` calls with `manage_slot=True`. What the calls meet outside (the
circuit breaker, the backend's answers, the clock of the acquire loop) is left to the choice of actions.
-/

namespace LlmStore.Slots

abbrev BackendId := ℕ

/-- The columns of `inference_backends` that the slot manager uses. -/
structure InferenceBackend where
  isActive : Bool
  maxParallelRequests : ℤ
  currentRunning : ℤ
  deriving DecidableEq

namespace InferenceBackend

/-- `max(int(backend.max_parallel_requests or 1), 1)`. -/
def limit (b : InferenceBackend) : ℤ := max (if b.maxParallelRequests = 0 then 1 else b.maxParallelRequests) 1

end InferenceBackend

/-- `try_acquire` on the row of the backend: whether a slot was taken, and the row afterwards. -/
def tryAcquire : Option InferenceBackend → Bool × Option InferenceBackend
  | none => (false, none)
  | some b =>
    if !b.isActive then (false, some b)
    else if b.currentRunning ≥ b.limit then (false, some b)
    else (true, some { b with currentRunning := b.currentRunning + 1 })

/-- `release` on the row of the backend. -/
def release : Option InferenceBackend → Option InferenceBackend
  | none => none
  | some b => some { b with currentRunning := max (b.currentRunning - 1) 0 }

/-! ## Calls of `_forward` -/

/-- The arguments of a call that decide how it uses slots. -/
structure Call where
  backendId : Option BackendId
  stream : Bool

/-- Where a call is. -/
inductive Phase where
  /-- Not yet past the circuit breaker. -/
  | idle
  /-- Before the lock of the queue. -/
  | entering
  /-- Counted in `pending`, in the loop of `acquire`. -/
  | waiting
  /-- In the body of the slot, with nothing sent or between two attempts. -/
  | inSlot
  /-- A JSON post is sent and not yet answered. -/
  | posting
  /-- The body is over and its `finally` has not yet released the slot; `opened` says that a stream was opened. -/
  | leaving (opened : Bool)
  /-- The slot is released, `pending` not yet decremented. -/
  | returning (opened : Bool)
  /-- The call has returned its `StreamingResponse`; `event_stream` is neither exhausted nor closed. -/
  | streaming
  | ended
  deriving DecidableEq

/-- The call has acquired a slot that it has not released. -/
def Phase.holds : Phase → Bool
  | .inSlot | .posting | .leaving _ => true
  | _ => false

/-- The call's stream is open although its slot has been released. -/
def Phase.orphaned : Phase → Bool
  | .returning true | .streaming => true
  | _ => false

/-- A generation is in progress: a post not yet answered, or an open stream. -/
def Phase.inProgress : Phase → Bool
  | .posting | .leaving true | .returning true | .streaming => true
  | _ => false

/-- Calls are named by `κ`. -/
structure State (κ : Type*) where
  backends : BackendId → Option InferenceBackend
  pending : ℕ
  phase : κ → Phase

inductive Action (κ : Type*) where
  /-- `circuit_breaker.before_call`. -/
  | beforeCall (c : κ) (ok : Bool)
  /-- The check of the queue's size. -/
  | enter (c : κ)
  | tryAcquire (c : κ)
  /-- `acquire` raises: the deadline has passed, or the database failed. -/
  | giveUp (c : κ)
  /-- The post is sent, or the stream is opened; if not `ok`, the body raises before. -/
  | send (c : κ) (ok : Bool)
  /-- The post is answered or fails; with `retry` another attempt follows. -/
  | answer (c : κ) (retry : Bool)
  | release (c : κ)
  /-- `pending` is decremented and the call returns or raises. -/
  | leave (c : κ)
  /-- `event_stream` is exhausted or closed. -/
  | finish (c : κ)
  /-- An administrator switches a backend on or off. -/
  | setActive (b : BackendId) (on : Bool)

section Step

variable {κ : Type*} [DecidableEq κ]

def State.setPhase (s : State κ) (c : κ) (p : Phase) : State κ := { s with phase := Function.update s.phase c p }

def State.setBackend (s : State κ) (b : BackendId) (row : Option InferenceBackend) : State κ :=
  { s with backends := Function.update s.backends b row }

variable (calls : κ → Call) (maxQueueSize : ℕ)

def step (s : State κ) : Action κ → Option (State κ)
  | .beforeCall c ok =>
    if s.phase c = .idle then some (s.setPhase c (if ok then .entering else .ended)) else none
  | .enter c =>
    if s.phase c = .entering then
      if s.pending ≥ maxQueueSize then some (s.setPhase c .ended)
      else some ({ s with pending := s.pending + 1 }.setPhase c
        (if (calls c).backendId.isSome then .waiting else .inSlot))
    else none
  | .tryAcquire c =>
    match (calls c).backendId with
    | none => none
    | some b =>
      if s.phase c = .waiting then
        some ((s.setBackend b (Slots.tryAcquire (s.backends b)).2).setPhase c
          (if (Slots.tryAcquire (s.backends b)).1 then .inSlot else .waiting))
      else none
  | .giveUp c => if s.phase c = .waiting then some (s.setPhase c (.returning false)) else none
  | .send c ok =>
    if s.phase c = .inSlot then
      some (s.setPhase c (if ok then if (calls c).stream then .leaving true else .posting else .leaving false))
    else none
  | .answer c retry =>
    if s.phase c = .posting then some (s.setPhase c (if retry then .inSlot else .leaving false)) else none
  | .release c =>
    match s.phase c with
    | .leaving opened =>
      match (calls c).backendId with
      | none => some (s.setPhase c (.returning opened))
      | some b => some ((s.setBackend b (Slots.release (s.backends b))).setPhase c (.returning opened))
    | _ => none
  | .leave c =>
    match s.phase c with
    | .returning opened =>
      some ({ s with pending := s.pending - 1 }.setPhase c (if opened then .streaming else .ended))
    | _ => none
  | .finish c => if s.phase c = .streaming then some (s.setPhase c .ended) else none
  | .setActive b on => some (s.setBackend b ((s.backends b).map fun row => { row with isActive := on }))

end Step

/-- All calls before their start. -/
def init {κ : Type*} (backends : BackendId → Option InferenceBackend) : State κ :=
  { backends, pending := 0, phase := fun _ => .idle }

end LlmStore.Slots
