import LlmStore.Inference.Steady

/-!
# What most calls leave alone

The calls of Redis, of the exact cache, of the slot manager and of the security log change neither the ledgers nor the
jobs nor anything that is committed. A family of invariants that reads nothing else is a `Frame`, and these calls keep
it. A `JobFrame` does not read the ledgers and the log of the requests either.
-/

namespace LlmStore.Inference

open LlmStore.Lib LlmStore.Usage Program

/-- The worlds differ at most in the answers still to come, the slots, and the session's cache and security events. -/
structure SameCore (w w' : World) : Prop where
  committed : w'.committed = w.committed
  usage : w'.current.usage = w.current.usage
  requestLogs : w'.current.requestLogs = w.current.requestLogs
  jobs : w'.current.jobs = w.current.jobs
  queue : w'.queue = w.queue
  faults : w'.env.faults = w.env.faults

/-- An awaited call keeps the invariants and raises only exceptions with `F`, and what else a world is made of does not
matter to the invariants. -/
structure Frame {ι : Type} (I : ι → World → Prop) (F : Exc → Prop) : Prop where
  await : KeepsAll I (fun _ => True) F await
  same : ∀ i {w w' : World}, SameCore w w' → I i w → I i w'

namespace Frame

variable {ι α : Type} {I : ι → World → Prop} {F : Exc → Prop} (h : Frame I F)

include h

theorem steady : Steady I F :=
  ⟨h.await, fun i _ _ hs => h.same i ⟨hs.committed, hs.usage, hs.requestLogs, hs.jobs, hs.queue, hs.faults⟩⟩

theorem utcNow : KeepsAll I (fun _ => True) F utcNow := h.steady.utcNow

theorem maybeRecordRepeatedLargePrompt (clientId : ClientId) (n : ℤ) :
    KeepsAll I (fun _ => True) F (maybeRecordRepeatedLargePrompt clientId n) :=
  h.steady.maybeRecordRepeatedLargePrompt clientId n

theorem maybeRecordPlanUsageAnomaly (clientId : ClientId) (dl ml n d m : ℤ) :
    KeepsAll I (fun _ => True) F (maybeRecordPlanUsageAnomaly clientId dl ml n d m) :=
  h.steady.maybeRecordPlanUsageAnomaly clientId dl ml n d m

theorem maybeRecordRequestErrorBurst (clientId : ClientId) (statusCode : ℕ) :
    KeepsAll I (fun _ => True) F (maybeRecordRequestErrorBurst clientId statusCode) :=
  h.steady.maybeRecordRequestErrorBurst clientId statusCode

theorem lookupExactCache (settings : Settings) (key : CacheKey) :
    KeepsAll I (fun _ => True) F (lookupExactCache settings key) :=
  (h.steady.lookupExactCache (R := fun _ => True) settings key fun _ _ _ _ _ => trivial).mono (fun _ _ => trivial)
    fun _ he => he

/-- What is stored in the session's cache does not matter either. -/
theorem storeExactCache (settings : Settings) (key : CacheKey) (fingerprint json : String) (p q : ℤ) :
    KeepsAll I (fun _ => True) F (storeExactCache settings key fingerprint json p q) := by
  refine .ite (h.utcNow.bind fun _ _ => h.await.bind fun _ _ => keepsAll_modifyGet fun i w hw => ?_)
    (keepsAll_pure trivial)
  exact ⟨h.same i (w := w) ⟨rfl, rfl, rfl, rfl, rfl, rfl⟩ hw, trivial⟩

theorem currentUsage (clientId : ClientId) : KeepsAll I (fun _ => True) F (currentUsage clientId) :=
  h.steady.currentUsage clientId

theorem tryAcquire (backendId : Slots.BackendId) : KeepsAll I (fun _ => True) F (tryAcquire backendId) :=
  h.steady.tryAcquire backendId

theorem release (backendId : Slots.BackendId) : KeepsAll I (fun _ => True) F (release backendId) :=
  h.steady.release backendId

end Frame

/-! ## Jobs only -/

/-- The worlds show the same jobs, in the session and as committed. -/
structure SameJobs (w w' : World) : Prop where
  committed : w'.committed = w.committed
  jobs : w'.current.jobs = w.current.jobs
  queue : w'.queue = w.queue
  faults : w'.env.faults = w.env.faults

/-- A frame whose invariants do not read what a session has booked and logged either. -/
structure JobFrame {ι : Type} (I : ι → World → Prop) (F : Exc → Prop) : Prop where
  await : KeepsAll I (fun _ => True) F await
  same : ∀ i {w w' : World}, SameJobs w w' → I i w → I i w'

namespace JobFrame

variable {ι : Type} {I : ι → World → Prop} {F : Exc → Prop} (h : JobFrame I F)

include h

theorem frame : Frame I F :=
  ⟨h.await, fun i _ _ hs => h.same i ⟨hs.committed, hs.jobs, hs.queue, hs.faults⟩⟩

theorem changeUsage (f : UsageTables → UsageTables) : KeepsAll I (fun _ => True) F (changeUsage f) :=
  keepsAll_modifyGet fun i w hw => ⟨h.same i (w := w) ⟨rfl, rfl, rfl, rfl⟩ hw, trivial⟩

theorem recordUsage (clientId : ClientId) (p q : ℤ) : KeepsAll I (fun _ => True) F (recordUsage clientId p q) :=
  h.frame.utcNow.bind fun _ _ => h.await.bind fun _ _ => (h.changeUsage _).bind fun _ _ => h.await.bind fun _ _ =>
    h.changeUsage _

theorem logRequest (row : RequestLog) : KeepsAll I (fun _ => True) F (logRequest row) :=
  h.await.bind fun _ _ => keepsAll_modifyGet fun i w hw => ⟨h.same i (w := w) ⟨rfl, rfl, rfl, rfl⟩ hw, trivial⟩

theorem bookAnswer (tag : RequestTag) (result : ForwardResult) (n : ℤ) (isStream cacheHit : Bool) :
    KeepsAll I (fun _ => True) F (bookAnswer tag result n isStream cacheHit) :=
  (h.recordUsage _ _ _).bind fun _ _ => h.logRequest _

end JobFrame

end LlmStore.Inference
