import LlmStore.Inference.Frame
import LlmStore.Jobs.Ledgers

/-!
# What becomes of a job

A worker that has taken a job from the list ends its work on it in one of a few ways (`Course`), which the state before
decides. The call of the proxy is given by its outcome. An exception of the proxy that is no `HTTPException` passes
through `process_generation_job` and `_run_once`, and leaves the job running with nobody working on it. One of
`plan_routing_order` passes through them too, and leaves the job queued with its id in no list. In every other case a
queued job is settled or back in the list (`runOnce_finishes_iff`).
-/

namespace LlmStore.Jobs

open LlmStore.Calendar LlmStore.Lib LlmStore.Usage LlmStore.Inference Program

/-! ## The state of a job -/

/-- Calls of the database and of Redis do not fail. -/
def Quiet (w : World) : Prop := w.env.faults = fun _ => false

def statusOf (jobId : JobId) (db : Database) : Option JobStatus := (db.jobs.lookup jobId).map (·.status)

/-- The status of a job in the session and as committed, and the list of the workers. -/
structure JobView where
  current : Option JobStatus
  committed : Option JobStatus
  queue : List (Option JobId)

def Shows (jobId : JobId) (v : JobView) (w : World) : Prop :=
  Quiet w ∧ statusOf jobId w.current = v.current ∧ statusOf jobId w.committed = v.committed ∧ w.queue = v.queue

/-- The program returns, and leaves the job's status and the list as they are. -/
abbrev Still {α : Type} (jobId : JobId) (x : Prog α) : Prop :=
  KeepsAll (Shows jobId) (fun _ => True) (fun _ => False) x

variable {jobId : JobId}

theorem await_exec {w : World} (hw : Quiet w) : await.exec w = (.ok (), w) := by
  have hf : nextFault.exec w = (.ok false, w) := by
    obtain ⟨com, cur, slots, queue, ⟨faults, clock, redis, refusals, answers⟩⟩ := w
    cases hw
    rfl
  exact (exec_bind_ok hf).trans rfl

theorem jobFrame_shows (jobId : JobId) : JobFrame (Shows jobId) (fun _ => False) where
  await := by
    intro v w hw
    rw [await_exec hw.1]
    exact ⟨hw, trivial⟩
  same := by
    rintro v w w' hs ⟨hq, hcur, hcom, hqueue⟩
    refine ⟨hs.faults.trans hq, ?_, ?_, hs.queue.trans hqueue⟩
    · rw [← hcur, statusOf, statusOf, hs.jobs]
    · rw [← hcom, hs.committed]

theorem frame_shows (jobId : JobId) : Frame (Shows jobId) (fun _ => False) := (jobFrame_shows jobId).frame

theorem still_logRequest (row : RequestLog) : Still jobId (logRequest row) := (jobFrame_shows jobId).logRequest row

theorem still_bookAnswer (tag : RequestTag) (result : ForwardResult) (n : ℤ) (isStream cacheHit : Bool) :
    Still jobId (bookAnswer tag result n isStream cacheHit) :=
  (jobFrame_shows jobId).bookAnswer tag result n isStream cacheHit

/-! ## Changes of the status -/

/-- The program returns `r` and leaves the job committed with status `st`. -/
def EndsIn (jobId : JobId) (x : Prog JobResult) (r : JobResult) (st : JobStatus) : Prop :=
  ∀ s com q, Triple (Shows jobId ⟨some s, com, q⟩) x (fun a w => a = r ∧ Shows jobId ⟨some st, some st, q⟩ w)
    fun _ _ => False

theorem triple_updateJob (jobId : JobId) {f : GenerationJob → GenerationJob} {st : JobStatus}
    (hf : ∀ job, (f job).status = st) (s : JobStatus) (com : Option JobStatus) (q : List (Option JobId)) :
    Triple (Shows jobId ⟨some s, com, q⟩) (updateJob jobId f) (fun _ => Shows jobId ⟨some st, com, q⟩)
      fun _ _ => False := by
  refine triple_modify ?_
  rintro w ⟨hq, hcur, hcom, hqueue⟩
  obtain ⟨job, hjob, hs⟩ := Option.map_eq_some_iff.mp hcur
  refine ⟨hq, ?_, hcom, hqueue⟩
  simp only [World.setCurrent, hjob, statusOf, AList.lookup_insert, Option.map_some, hf]

theorem commit_exec {w : World} (hw : Quiet w) : commit.exec w = (.ok (), { w with committed := w.current }) := by
  have hf : nextFault.exec w = (.ok false, w) := by
    obtain ⟨com, cur, slots, queue, ⟨faults, clock, redis, refusals, answers⟩⟩ := w
    cases hw
    rfl
  exact (exec_bind_ok hf).trans rfl

theorem triple_commit (s com : Option JobStatus) (q : List (Option JobId)) :
    Triple (Shows jobId ⟨s, com, q⟩) commit (fun _ => Shows jobId ⟨s, s, q⟩) fun _ _ => False := by
  rintro w ⟨hq, hcur, hcom, hqueue⟩
  rw [commit_exec hq]
  exact ⟨hq, hcur, hcur, hqueue⟩

/-- A change of the status, committed. -/
theorem endsIn_update {f : GenerationJob → GenerationJob} {st : JobStatus} (hf : ∀ job, (f job).status = st)
    (r : JobResult) : EndsIn jobId (do updateJob jobId f; commit; pure r) r st := fun s com q =>
  triple_bind (triple_updateJob _ hf s com q) fun _ => triple_bind (triple_commit _ com q) fun _ =>
    triple_pure fun _ hw => ⟨rfl, hw⟩

theorem Still.endsIn_bind {α : Type} {x : Prog α} {f : α → Prog JobResult} {r : JobResult} {st : JobStatus}
    (hx : Still jobId x) (hf : ∀ a, EndsIn jobId (f a) r st) : EndsIn jobId (x >>= f) r st := fun s com q =>
  triple_bind ((hx ⟨some s, com, q⟩).conseq (fun _ h => h) (fun _ _ h => h.1) fun _ _ h => h.2) fun a => hf a s com q

theorem endsIn_failEarly (message : String) : EndsIn jobId (failEarly jobId message) .failed .failed := by
  refine endsIn_update ?_ .failed
  exact fun _ => rfl

theorem endsIn_completeFromCache (job : GenerationJob) (cached : CachedResponse) :
    EndsIn jobId (completeFromCache jobId job cached) .completed .completed := by
  refine (still_bookAnswer _ _ _ _ _).endsIn_bind fun _ => endsIn_update ?_ .completed
  exact fun _ => rfl

/-! ## The call of the proxy -/

/-- A call with a given outcome. -/
def ofOutcome : Except Exc ForwardResult → Prog ForwardResult
  | .ok result => pure result
  | .error e => raise e

/-- The outcome is a response or an `HTTPException`. -/
def Handled (outcome : Except Exc ForwardResult) : Prop := ∀ e, outcome = .error e → e.httpError.isSome = true

section Generate

variable (settings : Settings) (outcome : Models.InferenceBackend → Except Exc ForwardResult)

theorem endsIn_generate (job : GenerationJob) {backend : Models.InferenceBackend} {result : ForwardResult}
    (h : outcome backend = .ok result) :
    EndsIn jobId (generate settings (fun b => ofOutcome (outcome b)) jobId job backend) .completed .completed := by
  have hproxy : Still jobId (ofOutcome (outcome backend)) := by
    rw [h]
    exact keepsAll_pure trivial
  refine hproxy.endsIn_bind fun result => ?_
  refine Still.endsIn_bind ((frame_shows jobId).storeExactCache settings _ _ _ _ _) fun _ => ?_
  refine (still_bookAnswer _ _ _ _ _).endsIn_bind fun _ => endsIn_update ?_ .completed
  exact fun _ => rfl

/-- What the worker does with an `HTTPException`. -/
theorem endsIn_fail (jobId : JobId) (job : GenerationJob) (backendName : Option String) (e : HTTPError)
    {f : GenerationJob → GenerationJob} (hf : ∀ job, (f job).status = .failed) :
    EndsIn jobId (do
      logFailure (jobTag job) false backendName e
      updateJob jobId f
      maybeRecordRequestErrorBurst job.clientId e.statusCode
      commit
      pure .failed) .failed .failed := by
  refine Still.endsIn_bind (still_logRequest _) fun _ s com q => ?_
  refine triple_bind (triple_updateJob _ hf s com q) fun _ => ?_
  refine triple_bind (((frame_shows jobId).maybeRecordRequestErrorBurst _ _ ⟨some .failed, com, q⟩).conseq
    (fun _ h => h) (fun _ _ h => h.1) fun _ _ h => h.2) fun _ => ?_
  exact triple_bind (triple_commit _ com q) fun _ => triple_pure fun _ hw => ⟨rfl, hw⟩

/-- What the worker returns or raises for an outcome, and the status it leaves. -/
def generated : Except Exc ForwardResult → Except Exc JobResult × JobStatus
  | .ok _ => (.ok .completed, .completed)
  | .error e => if e.httpError.isSome then (.ok .failed, .failed) else (.error e, .running)

/-- The job is committed with status `st`. -/
def Leaves (jobId : JobId) (st : Option JobStatus) (q : List (Option JobId)) (w : World) : Prop :=
  ∃ cur, Shows jobId ⟨cur, st, q⟩ w

theorem Still.leaves {α : Type} {x : Prog α} (hx : Still jobId x) (p : Prop) (st : Option JobStatus)
    (q : List (Option JobId)) :
    Triple (fun w => p ∧ Leaves jobId st q w) x (fun _ w => p ∧ Leaves jobId st q w) fun _ _ => False := by
  rintro w ⟨hp, cur, hw⟩
  have hcur : Triple (Shows jobId ⟨cur, st, q⟩) x (fun _ w => p ∧ Leaves jobId st q w) fun _ _ => False :=
    (hx ⟨cur, st, q⟩).conseq (fun _ h => h) (fun _ _ h => ⟨hp, cur, h.1⟩) fun _ _ h => h.2
  exact hcur w hw

/-- The `try` with its `except HTTPException`, from the commit of `running` on. -/
theorem triple_orFail (job : GenerationJob) (backend : Models.InferenceBackend) (q : List (Option JobId)) :
    Triple (Shows jobId ⟨some .running, some .running, q⟩)
      (orFail jobId job backend (generate settings (fun b => ofOutcome (outcome b)) jobId job backend))
      (fun r w => (generated (outcome backend)).1 = .ok r ∧ Leaves jobId (some (generated (outcome backend)).2) q w)
      fun e w => (generated (outcome backend)).1 = .error e ∧
        Leaves jobId (some (generated (outcome backend)).2) q w := by
  cases ho : outcome backend with
  | ok result =>
    refine triple_tryExcept (E := fun _ _ => False) ?_ fun _ _ hw => hw.elim
    refine (endsIn_generate settings outcome job ho _ _ q).conseq (fun _ h => h) ?_ fun _ _ h => h
    rintro _ w ⟨rfl, hw⟩
    exact ⟨rfl, _, hw⟩
  | error e =>
    have hraise : Triple (Shows jobId ⟨some .running, some .running, q⟩)
        (generate settings (fun b => ofOutcome (outcome b)) jobId job backend) (fun _ _ => False)
        (fun e' w => e' = e ∧ Shows jobId ⟨some .running, some .running, q⟩ w) := by
      refine triple_bind (Q := fun _ _ => False) ?_ fun _ _ hw => hw.elim
      show Triple _ (ofOutcome (outcome backend)) _ _
      rw [ho]
      exact triple_raise fun w hw => ⟨rfl, hw⟩
    refine triple_tryExcept (hraise.conseq (fun _ h => h) (fun _ _ h => h.elim) fun _ _ h => h) fun e' => ?_
    rintro w ⟨rfl, hw⟩
    cases he : e'.httpError with
    | none => exact ⟨by simp [generated, he], _, by simpa [generated, he] using hw⟩
    | some error =>
      have hfail := endsIn_fail jobId job (some backend.name) error (f := fun job => { job with
        status := .failed, errorMessage := some error.message, attempts := max error.backendErrors.length 1,
        fallbackUsed := error.backendErrors.length > 1, backendErrors := error.backendErrors }) fun _ => rfl
      refine (hfail .running (some .running) q).conseq (fun _ h => h) ?_ (fun _ _ h => h.elim) w hw
      rintro _ w ⟨rfl, hw⟩
      exact ⟨by simp [generated, he], _, by simpa [generated, he] using hw⟩

theorem triple_runOn (job : GenerationJob) (backend : Models.InferenceBackend) (s : JobStatus)
    (com : Option JobStatus) (q : List (Option JobId)) :
    Triple (Shows jobId ⟨some s, com, q⟩)
      (runOn settings (fun b => ofOutcome (outcome b)) jobId job backend)
      (fun r w => (generated (outcome backend)).1 = .ok r ∧ Leaves jobId (some (generated (outcome backend)).2) q w)
      fun e w => (generated (outcome backend)).1 = .error e ∧
        Leaves jobId (some (generated (outcome backend)).2) q w := by
  have hupdate := triple_updateJob jobId
    (f := fun job => { job with status := .running, backendName := some backend.name }) (fun _ => rfl) s com q
  refine triple_bind (hupdate.conseq (fun _ h => h) (fun _ _ h => h) fun _ _ h => h.elim) fun _ => ?_
  refine triple_bind ((triple_commit _ com q).conseq (fun _ h => h) (fun _ _ h => h) fun _ _ h => h.elim) fun _ => ?_
  refine triple_tryFinally (triple_orFail settings outcome job backend q) (fun r => ?_) fun e => ?_
  · exact (Still.leaves ((frame_shows jobId).release backend.id) _ _ q).conseq (fun _ h => h) (fun _ _ h => h)
      fun _ _ h => h.elim
  · exact (Still.leaves ((frame_shows jobId).release backend.id) _ _ q).conseq (fun _ h => h) (fun _ _ h => h)
      fun _ _ h => h.elim

end Generate

/-! ## The course of a job -/

/-- A cached answer for the key is found. -/
def cacheHit (settings : Settings) (db : Database) (now : Instant) (key : CacheKey) : Bool :=
  settings.responseCacheEnabled &&
    (db.responseCache.lookup key).any fun row => row.isActive && row.expiresAt > now && row.responseJson != "null"

/-- The first backend with a free slot among those of the routes. -/
def freeBackend (slots : Slots.BackendId → Option Slots.InferenceBackend) (routes : List Models.ModelBackendRoute) :
    Option Models.InferenceBackend :=
  (routes.filterMap (·.inferenceBackend)).find? fun backend => (Slots.tryAcquire (slots backend.id)).1

/-- How the work on a job goes. -/
inductive Course where
  | missing
  /-- The job is not queued. -/
  | skipped (status : JobStatus)
  /-- The client may not have it worked on, or its model is gone. -/
  | refused
  | cached
  /-- The routes cannot be planned, for want of a loaded primary backend. -/
  | unloaded
  /-- No backend has a slot. -/
  | requeued
  /-- The job is given to a backend. -/
  | given (backend : Models.InferenceBackend)

/-- What the committed rows, the clock and the slots decide about a job. -/
def course (settings : Settings) (w : World) (jobId : JobId) (rel : Relations) : Course :=
  match w.committed.jobs.lookup jobId with
  | none => .missing
  | some job =>
    if job.status ≠ .queued then .skipped job.status
    else if !rel.mayRun then .refused
    else if cacheHit settings w.committed (w.env.clock 0).instant (jobKey job) then .cached
    else match rel.routes with
      | none => .refused
      | some (.error _) => .unloaded
      | some (.ok routes) =>
        match freeBackend w.slots routes with
        | none => .requeued
        | some backend => .given backend

/-- The work on the job comes to its model `m`. -/
def Reaches (settings : Settings) (w : World) (jobId : JobId) (rel : Relations) (m : Models.ModelRegistry) : Prop :=
  ∃ job, w.committed.jobs.lookup jobId = some job ∧ job.status = .queued ∧ rel.mayRun = true ∧
    cacheHit settings w.committed (w.env.clock 0).instant (jobKey job) = false ∧ rel.model = some m

/-- The planning fails for a model whose primary backend it misses. -/
theorem course_unloaded_iff (settings : Settings) (w : World) (jobId : JobId) (rel : Relations) :
    course settings w jobId rel = .unloaded ↔
      ∃ m, Reaches settings w jobId rel m ∧ ¬ Models.RoutingLoaded rel.primaryLoaded m := by
  unfold course Reaches
  cases w.committed.jobs.lookup jobId with
  | none => simp
  | some job =>
    dsimp only
    split_ifs with hqueued hmay hhit
    · simp [hqueued]
    · have hmay' : rel.mayRun = false := by simpa using hmay
      simp [hmay']
    · simp [hhit]
    · have hq : job.status = .queued := not_not.mp hqueued
      simp only [Bool.not_eq_true, Bool.not_eq_false'] at hmay hhit
      cases hmodel : rel.model with
      | none => simp [ModelLoad.routes, hmodel]
      | some m =>
        simp only [ModelLoad.routes, hmodel, Option.map_some]
        by_cases hloaded : Models.RoutingLoaded rel.primaryLoaded m
        · rw [Models.planLoaded_of_loaded hloaded]
          dsimp only
          constructor
          · intro h
            split at h <;> cases h
          · rintro ⟨m', ⟨-, -, -, -, -, hm⟩, hnot⟩
            exact absurd (Option.some.inj hm ▸ hloaded) hnot
        · obtain ⟨e, he⟩ := Models.planLoaded_of_not_loaded hloaded rel.draws
          rw [he]
          exact ⟨fun _ => ⟨m, ⟨job, rfl, hq, hmay, hhit, rfl⟩, hloaded⟩, fun _ => rfl⟩

/-- What `process_generation_job` returns or raises. -/
def Course.result (outcome : Models.InferenceBackend → Except Exc ForwardResult) : Course → Except Exc JobResult
  | .missing => .ok .missing
  | .skipped _ => .ok .skipped
  | .refused => .ok .failed
  | .cached => .ok .completed
  | .unloaded => .error .other
  | .requeued => .ok .requeue
  | .given backend => (generated (outcome backend)).1

/-- The status in which it leaves the job. -/
def Course.status (outcome : Models.InferenceBackend → Except Exc ForwardResult) : Course → Option JobStatus
  | .missing => none
  | .skipped status => some status
  | .refused => some .failed
  | .cached => some .completed
  | .unloaded => some .queued
  | .requeued => some .queued
  | .given backend => some (generated (outcome backend)).2

theorem loadJob_exec {w : World} (hw : Quiet w) : (loadJob jobId).exec w = (.ok (w.current.jobs.lookup jobId), w) :=
  (Program.exec_bind_ok (await_exec hw)).trans rfl

theorem lookupExactCache_exec (settings : Settings) (key : CacheKey) {w : World} (hw : Quiet w) :
    ∃ cached w', (lookupExactCache settings key).exec w = (.ok cached, w') ∧
      cached.isSome = cacheHit settings w.current (w.env.clock 0).instant key ∧ SameCore w w' ∧ w'.slots = w.slots := by
  by_cases hs : settings.responseCacheEnabled = true
  · let w₁ := w.setEnv fun env => { env with clock := fun n => env.clock (n + 1) }
    have hnow : utcNow.exec w = (.ok (w.env.clock 0), w₁) := rfl
    have hw₁ : Quiet w₁ := hw
    have hlookup : w₁.current.responseCache = w.current.responseCache := rfl
    rw [lookupExactCache, if_pos hs, Program.exec_bind_ok hnow, Program.exec_bind_ok (await_exec hw₁)]
    simp only [Program.modifyGet, hlookup, cacheHit, hs, Bool.true_and]
    cases w.current.responseCache.lookup key with
    | none => exact ⟨none, w₁, rfl, rfl, ⟨rfl, rfl, rfl, rfl, rfl, rfl⟩, rfl⟩
    | some row =>
      by_cases hrow : row.isActive = true ∧ row.expiresAt > (w.env.clock 0).instant
      · simp only [if_pos hrow]
        refine ⟨_, _, rfl, ?_, ⟨rfl, rfl, rfl, rfl, rfl, rfl⟩, rfl⟩
        by_cases hnull : row.responseJson = "null" <;> simp [hrow, hnull]
      · simp only [if_neg hrow]
        refine ⟨none, w₁, rfl, ?_, ⟨rfl, rfl, rfl, rfl, rfl, rfl⟩, rfl⟩
        simp only [Option.isSome_none, Option.any_some]
        by_cases ha : row.isActive = true
        · simp [ha] at hrow
          simp [ha, hrow]
        · simp [ha]
  · refine ⟨none, w, ?_, by simp [cacheHit, hs], ⟨rfl, rfl, rfl, rfl, rfl, rfl⟩, rfl⟩
    rw [lookupExactCache, if_neg hs]
    rfl

theorem tryAcquire_exec (backendId : Slots.BackendId) {w : World} (hw : Quiet w) :
    (tryAcquire backendId).exec w = (.ok (Slots.tryAcquire (w.slots backendId)).1,
      { w with slots := Function.update w.slots backendId (Slots.tryAcquire (w.slots backendId)).2 }) := by
  refine (Program.exec_bind_ok (await_exec hw)).trans ?_
  refine (Program.exec_bind_ok (a := (Slots.tryAcquire (w.slots backendId)).1) rfl).trans ?_
  have hw' : Quiet { w with
      slots := Function.update w.slots backendId (Slots.tryAcquire (w.slots backendId)).2 } := hw
  exact (Program.exec_bind_ok (await_exec hw')).trans rfl

/-- A refused slot changes nothing. -/
theorem tryAcquire_refused {row : Option Slots.InferenceBackend} (h : (Slots.tryAcquire row).1 = false) :
    (Slots.tryAcquire row).2 = row := by
  unfold Slots.tryAcquire at h ⊢
  split at h
  · rfl
  · split_ifs at h ⊢ <;> rfl

theorem chooseRoute_exec {w : World} (hw : Quiet w) (routes : List Models.ModelBackendRoute) :
    ∃ w', (chooseRoute routes).exec w = (.ok (freeBackend w.slots routes), w') ∧ SameCore w w' := by
  induction routes with
  | nil => exact ⟨w, rfl, rfl, rfl, rfl, rfl, rfl, rfl⟩
  | cons route routes ih =>
    unfold chooseRoute freeBackend
    cases hb : route.inferenceBackend with
    | none =>
      rw [List.filterMap_cons_none hb]
      exact ih
    | some backend =>
      rw [List.filterMap_cons_some hb]
      show ∃ w', (tryAcquire backend.id >>= _).exec w = _ ∧ _
      rw [Program.exec_bind_ok (tryAcquire_exec backend.id hw)]
      cases ht : (Slots.tryAcquire (w.slots backend.id)).1 with
      | true =>
        rw [List.find?_cons_of_pos (by simpa using ht)]
        exact ⟨_, rfl, rfl, rfl, rfl, rfl, rfl, rfl⟩
      | false =>
        rw [tryAcquire_refused ht, Function.update_eq_self, List.find?_cons_of_neg (by simp [ht])]
        exact ih

theorem EndsIn.run {x : Prog JobResult} {r : JobResult} {st s : JobStatus} {com : Option JobStatus}
    {q : List (Option JobId)} (h : EndsIn jobId x r st) {w : World} (hw : Shows jobId ⟨some s, com, q⟩ w) :
    (x.exec w).1 = .ok r ∧ Leaves jobId (some st) q (x.exec w).2 := by
  obtain ⟨_, t, ht, rfl, hshows⟩ := (h s com q).returns hw
  rw [ht]
  exact ⟨rfl, _, hshows⟩

/-- `process_generation_job` takes its course. -/
theorem process_course (jobId : JobId) (settings : Settings)
    (outcome : Models.InferenceBackend → Except Exc ForwardResult) (rel : Relations) {w : World} (hw : Quiet w)
    (hcur : w.current = w.committed) :
    let r := (processGenerationJob settings (fun b => ofOutcome (outcome b)) jobId rel).exec w
    r.1 = (course settings w jobId rel).result outcome ∧
      Leaves jobId ((course settings w jobId rel).status outcome) w.queue r.2 := by
  unfold processGenerationJob course
  rw [Program.exec_bind_ok (loadJob_exec hw), hcur]
  cases hjob : w.committed.jobs.lookup jobId with
  | none =>
    have hstatus : statusOf jobId w.committed = none := by rw [statusOf, hjob, Option.map_none]
    exact ⟨rfl, _, hw, rfl, hstatus, rfl⟩
  | some job =>
    have hstatus : statusOf jobId w.committed = some job.status := by rw [statusOf, hjob, Option.map_some]
    have hshows : Shows jobId ⟨some job.status, some job.status, w.queue⟩ w :=
      ⟨hw, hcur ▸ hstatus, hstatus, rfl⟩
    dsimp only
    by_cases hqueued : job.status ≠ .queued
    · rw [if_pos hqueued, if_pos hqueued]
      exact ⟨rfl, _, hshows⟩
    rw [if_neg hqueued, if_neg hqueued]
    by_cases hmay : (!rel.mayRun) = true
    · rw [if_pos hmay, if_pos hmay]
      exact (endsIn_failEarly _).run hshows
    rw [if_neg hmay, if_neg hmay]
    obtain ⟨cached, w₁, hlookup, hhit, hsame, hslots⟩ := lookupExactCache_exec settings (jobKey job) hw
    have hshows₁ := (frame_shows jobId).same _ hsame hshows
    rw [Program.exec_bind_ok hlookup, ← hcur, ← hhit]
    cases cached with
    | some cached => exact (endsIn_completeFromCache job cached).run hshows₁
    | none =>
      simp only [Option.isSome_none, Bool.false_eq_true, if_false]
      unfold processOnBackend
      rcases rel.routes with _ | _ | routes
      · exact (endsIn_failEarly _).run hshows₁
      · have hq : job.status = .queued := not_not.mp hqueued
        exact ⟨rfl, _, hq ▸ hshows₁⟩
      · obtain ⟨w₂, hchoose, hsame₂⟩ := chooseRoute_exec hshows₁.1 routes
        have hshows₂ := (frame_shows jobId).same _ hsame₂ hshows₁
        rw [hslots] at hchoose
        dsimp only
        rw [Program.exec_bind_ok hchoose]
        cases freeBackend w.slots routes with
        | none =>
          dsimp only
          rw [Program.exec_bind_ok (await_exec hshows₂.1)]
          have hq : job.status = .queued := not_not.mp hqueued
          exact ⟨rfl, _, hq ▸ hshows₂⟩
        | some backend =>
          have hrun := triple_runOn settings outcome job backend _ _ _ w₂ hshows₂
          dsimp only
          rcases hr : (runOn settings (fun b => ofOutcome (outcome b)) jobId job backend).exec w₂ with ⟨_ | r, t⟩ <;>
            rw [hr] at hrun <;> exact ⟨hrun.1.symm, hrun.2⟩

/-! ## The worker's step -/

/-- The job is done with, or queued with its id in the list. -/
def Settled (jobId : JobId) (w : World) : Prop :=
  ∀ job, w.committed.jobs.lookup jobId = some job →
    job.status = .completed ∨ job.status = .failed ∨ job.status = .cancelled ∨
      job.status = .queued ∧ some jobId ∈ w.queue

theorem settled_iff {w : World} : Settled jobId w ↔ ∀ status, statusOf jobId w.committed = some status →
    status = .completed ∨ status = .failed ∨ status = .cancelled ∨ status = .queued ∧ some jobId ∈ w.queue := by
  constructor
  · intro h status hs
    obtain ⟨job, hjob, rfl⟩ := Option.map_eq_some_iff.mp hs
    exact h job hjob
  · intro h job hjob
    exact h job.status (by rw [statusOf, hjob, Option.map_some])

/-- The list after the step: a job without a slot goes back to its end. -/
def Course.queue (jobId : JobId) (rest : List (Option JobId)) : Course → List (Option JobId)
  | .requeued => rest ++ [some jobId]
  | _ => rest

theorem Course.queue_of_ne (outcome : Models.InferenceBackend → Except Exc ForwardResult) {c : Course}
    (h : c.result outcome ≠ .ok .requeue) (rest : List (Option JobId)) : c.queue jobId rest = rest := by
  cases c with
  | requeued => exact absurd rfl h
  | _ => rfl

theorem Course.eq_requeued {outcome : Models.InferenceBackend → Except Exc ForwardResult} {c : Course}
    (h : c.result outcome = .ok .requeue) : c = .requeued := by
  cases c with
  | requeued => rfl
  | given backend =>
    simp only [result, generated] at h
    split at h
    · cases h
    · split_ifs at h; cases h
  | _ => cases h

theorem rpush_exec {w : World} (hw : Quiet w) :
    (rpush jobId).exec w = (.ok (), { w with queue := w.queue ++ [some jobId] }) :=
  (Program.exec_bind_ok (await_exec hw)).trans rfl

theorem runOnce_course (settings : Settings) (outcome : Models.InferenceBackend → Except Exc ForwardResult)
    (rel : JobId → Relations) {w : World} {rest : List (Option JobId)} (hw : Quiet w)
    (hpop : w.queue = some jobId :: rest) :
    let r := (runOnce settings (fun b => ofOutcome (outcome b)) rel).exec w
    let c := course settings w jobId (rel jobId)
    r.1 = (c.result outcome).map (fun _ => ()) ∧ Leaves jobId (c.status outcome) (c.queue jobId rest) r.2 := by
  have hblpop : blpop.exec w = (.ok (some (some jobId)), { w with queue := rest }) := by
    refine (Program.exec_bind_ok (await_exec hw)).trans ?_
    show (Except.ok w.queue.head?, { w with queue := w.queue.tail }) = _
    rw [hpop]
    rfl
  have hbegin : beginSession.exec { w with queue := rest } =
      (.ok (), { w with queue := rest, current := w.committed }) := rfl
  have hawait : await.exec { w with queue := rest } = (.ok (), { w with queue := rest }) := await_exec hw
  have hprocess := process_course jobId settings outcome (rel jobId)
    (w := { w with queue := rest, current := w.committed }) hw rfl
  have hcourse : course settings { w with queue := rest, current := w.committed } jobId (rel jobId) =
      course settings w jobId (rel jobId) := rfl
  rw [hcourse] at hprocess
  unfold runOnce
  rw [Program.exec_bind_ok hblpop]
  dsimp only
  rw [Program.exec_bind_ok hawait, Program.exec_bind_ok hbegin]
  generalize course settings w jobId (rel jobId) = c at hprocess ⊢
  rcases hr : (processGenerationJob settings (fun b => ofOutcome (outcome b)) jobId (rel jobId)).exec
    { w with queue := rest, current := w.committed } with ⟨e | a, t⟩
  · rw [hr] at hprocess
    obtain ⟨hresult, hleaves⟩ := hprocess
    rw [Program.exec_bind_error hr, ← hresult, Course.queue_of_ne outcome (by rw [← hresult]; nofun)]
    exact ⟨rfl, hleaves⟩
  · rw [hr] at hprocess
    obtain ⟨hresult, hleaves⟩ := hprocess
    rw [Program.exec_bind_ok hr, ← hresult]
    cases a with
    | requeue =>
      obtain rfl := Course.eq_requeued hresult.symm
      obtain ⟨cur, hq, hcur, hcom, hqueue⟩ := hleaves
      have hq' : Quiet { t with queue := t.queue ++ [some jobId] } := hq
      dsimp only
      rw [Program.exec_bind_ok (rpush_exec hq), Program.exec_bind_ok (await_exec hq'), await_exec hq']
      exact ⟨rfl, cur, hq, hcur, hcom, congrArg (· ++ [some jobId]) hqueue⟩
    | _ =>
      rw [Course.queue_of_ne outcome (by rw [← hresult]; nofun)]
      exact ⟨rfl, hleaves⟩

/-- A job that is not skipped is queued or missing. -/
theorem course_skipped_iff (jobId : JobId) (settings : Settings) (w : World) (rel : Relations) (s : JobStatus) :
    course settings w jobId rel = .skipped s ↔ statusOf jobId w.committed = some s ∧ s ≠ .queued := by
  unfold course statusOf
  cases w.committed.jobs.lookup jobId with
  | none => simp
  | some job =>
    dsimp only [Option.map_some]
    rw [Option.some.injEq]
    by_cases hs : job.status ≠ .queued
    · rw [if_pos hs, Course.skipped.injEq]
      constructor
      · rintro rfl
        exact ⟨rfl, hs⟩
      · exact fun h => h.1
    · rw [if_neg hs]
      constructor
      · intro h
        exfalso
        split_ifs at h
        split at h
        · cases h
        · cases h
        · split at h <;> cases h
      · rintro ⟨rfl, hne⟩
        exact absurd hne hs

theorem course_missing_iff (jobId : JobId) (settings : Settings) (w : World) (rel : Relations) :
    course settings w jobId rel = .missing ↔ statusOf jobId w.committed = none := by
  unfold course statusOf
  cases w.committed.jobs.lookup jobId with
  | none => simp
  | some job =>
    simp only [Option.map_some, reduceCtorEq, iff_false]
    split_ifs
    · exact nofun
    · exact nofun
    · exact nofun
    · split
      · exact nofun
      · exact nofun
      · split <;> exact nofun

/-- The program returns and leaves the job settled. -/
def Finishes (jobId : JobId) (x : Prog Unit) (w : World) : Prop := (x.exec w).1 = .ok () ∧ Settled jobId (x.exec w).2

/-- **No job is abandoned**: the worker's step returns and leaves the job settled if and only if the job was not left
running before, nothing is missing to plan the routes of its model, where the work comes to it, and the proxy, where it
is called, raises nothing but `HTTPException`s. -/
theorem runOnce_finishes_iff (settings : Settings) (outcome : Models.InferenceBackend → Except Exc ForwardResult)
    (rel : JobId → Relations) {w : World} {jobId : JobId} {rest : List (Option JobId)} (hw : Quiet w)
    (hpop : w.queue = some jobId :: rest) :
    Finishes jobId (runOnce settings (fun b => ofOutcome (outcome b)) rel) w ↔
      statusOf jobId w.committed ≠ some .running ∧
        (∀ m, Reaches settings w jobId (rel jobId) m → Models.RoutingLoaded (rel jobId).primaryLoaded m) ∧
        ∀ backend, course settings w jobId (rel jobId) = .given backend → Handled (outcome backend) := by
  obtain ⟨hresult, cur, -, -, hstatus, hqueue⟩ := runOnce_course settings outcome rel hw hpop
  have hskipped := course_skipped_iff jobId settings w (rel jobId)
  have hloaded : (∀ m, Reaches settings w jobId (rel jobId) m → Models.RoutingLoaded (rel jobId).primaryLoaded m) ↔
      course settings w jobId (rel jobId) ≠ .unloaded := by
    rw [ne_eq, course_unloaded_iff]
    simp only [not_exists, not_and, not_not]
  rw [hloaded]
  dsimp only at hresult hstatus hqueue
  rw [Finishes, hresult, settled_iff, hstatus, hqueue]
  generalize course settings w jobId (rel jobId) = c at hskipped ⊢
  have hrunning : statusOf jobId w.committed = some .running ↔ c = .skipped .running := by
    rw [hskipped]
    exact ⟨fun h => ⟨h, by decide⟩, fun h => h.1⟩
  rw [ne_eq, hrunning]
  cases c with
  | missing => simp [Course.result, Course.status, Except.map]
  | skipped s =>
    have hs := ((hskipped s).mp rfl).2
    clear hskipped hrunning
    cases s with
    | queued => exact absurd rfl hs
    | _ => simp [Course.result, Course.status, Except.map]
  | refused => simp [Course.result, Course.status, Except.map]
  | cached => simp [Course.result, Course.status, Except.map]
  | unloaded => simp [Course.result, Except.map]
  | requeued => simp [Course.result, Course.status, Course.queue, Except.map]
  | given backend =>
    simp only [Course.result, Course.status, Course.given.injEq, forall_eq', reduceCtorEq, not_false_eq_true, true_and,
      ne_eq, Option.some.injEq, generated, Handled]
    cases outcome backend with
    | ok result => simp [Except.map]
    | error e =>
      by_cases he : e.httpError.isSome = true
      · simp [Except.map, he]
      · simp [Except.map, he]

/-! ### A backend that answers 200 with something else than JSON -/

theorem post_notJson {w : World} (hw : Quiet w) {statusCode : ℕ} {shown : String}
    (hanswer : w.env.answers 0 = .response statusCode none shown) (hs : isSuccess statusCode = true)
    (backendName : String) : ∃ t, (post backendName).exec w = (.error .other, t) := by
  let w₁ := w.setEnv fun env => { env with answers := fun n => env.answers (n + 1) }
  have hw₁ : Quiet w₁ := hw
  have hnext : nextAnswer.exec w = (.ok (.response statusCode none shown), w₁) := by
    rw [← hanswer]
    rfl
  refine ⟨w₁, ?_⟩
  rw [post, Program.exec_bind_ok (await_exec hw), Program.exec_bind_ok hnext]
  dsimp only
  rw [if_pos hs, Program.exec_bind_ok (await_exec hw₁)]
  rfl

/-- The real proxy lets the decoding error through. -/
theorem jobChat_notJson (settings : Settings) {backend : Models.InferenceBackend} {w : World} (hw : Quiet w)
    (hprovider : backend.provider ∈ ["llama.cpp", "ollama", "vllm"]) (hclosed : w.env.refusals 0 = false)
    {statusCode : ℕ} {shown : String} (hanswer : w.env.answers 0 = .response statusCode none shown)
    (hs : isSuccess statusCode = true) : ((jobChat settings backend).exec w).1 = .error .other := by
  let w₁ := w.setEnv fun env => { env with refusals := fun n => env.refusals (n + 1) }
  have hw₁ : Quiet w₁ := hw
  have hnext : nextRefusal.exec w = (.ok false, w₁) := by
    rw [← hclosed]
    rfl
  obtain ⟨t, hpost⟩ := post_notJson (w := w₁) hw₁ hanswer hs backend.name
  have hloop : (postLoop backend.name settings.retryAttempts).exec w₁ = (.error .other, t) := by
    cases settings.retryAttempts with
    | zero => exact hpost
    | succ n => exact Program.exec_bind_error hpost
  have hclient : (clientForBackend backend.provider).exec w₁ = (.ok (), w₁) := by
    rw [clientForBackend, if_neg (not_not.mpr hprovider)]
    rfl
  unfold jobChat chat
  rw [Program.exec_bind_ok (await_exec hw), Program.exec_bind_ok hnext]
  show ((jsonForward settings backend).exec w₁).1 = _
  rw [jsonForward, Program.exec_bind_ok hclient, Program.exec_bind_error hloop]

/-- One queued job, a backend with a free slot, and an answer without a payload. -/
def queuedWorld : World :=
  let job : GenerationJob :=
    { clientId := 0, resolvedModel := "m", cacheKey := "k", cacheFingerprint := "f", status := .queued,
      promptTokensEstimated := 5, completionTokensEstimated := 0, estimatedCostUsd := 0, backendName := none,
      attempts := 0, fallbackUsed := false, responseJson := none, errorMessage := none, backendErrors := [] }
  let db : Database := ⟨⟨∅, ∅⟩, [], ∅, [], (∅ : Table JobId GenerationJob).insert 0 job⟩
  { committed := db, current := db, slots := fun _ => some ⟨true, 1, 0⟩, queue := [some 0]
    env := { freshWorld.env with answers := fun _ => .response 200 none "<html>" } }

theorem runOnce_finishes_unavailable :
    Finishes 0 (runOnce ⟨false, 60, 1⟩ (fun _ => ofOutcome (.error (.http 503 (.text "data plane unavailable"))))
      fun _ => oneRoute) queuedWorld := by
  refine (runOnce_finishes_iff _ (fun _ => .error (.http 503 (.text "data plane unavailable"))) _
    (w := queuedWorld) rfl rfl).mpr ⟨by decide +kernel, ?_, fun _ _ e he => ?_⟩
  · rintro m ⟨-, -, -, -, -, hm⟩
    obtain rfl := Option.some.inj hm
    decide
  · cases he
    rfl

/-- The job is left running, with its id in no list. -/
theorem job_abandoned :
    ¬ Finishes 0 (runOnce ⟨false, 60, 1⟩ (jobChat ⟨false, 60, 1⟩) fun _ => oneRoute) queuedWorld := by
  rintro ⟨-, h⟩
  have hrunning := settled_iff.mp h .running (by decide +kernel)
  revert hrunning
  decide +kernel

end LlmStore.Jobs
