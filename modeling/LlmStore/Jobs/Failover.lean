import LlmStore.Inference.FixedOutcomes
import LlmStore.Jobs.Worker

/-!
# Jobs whose first backend fails

`process_generation_job` gives a job to the first route whose backend has a free slot, and to no other, while
`_chat_with_fallback` goes on to the next route after a failure on the backend's side. So when all backends have free
slots, a job ends like a chat request, with the same attempts and errors recorded, exactly if the routes can be planned
and the backend of the first one serves it (`alike_iff`).
-/

namespace LlmStore.Jobs.Failover

open LlmStore.Lib LlmStore.Usage LlmStore.Inference LlmStore.Inference.FixedOutcomes Program

/-! ## What is recorded -/

structure Recorded where
  attempts : ℕ
  fallbackUsed : Bool
  backendErrors : List BackendError

/-- In the log row of a chat request, by `bookAnswer` or by `logFailure`. -/
def ofResponse : Except Exc ForwardResult → Option Recorded
  | .ok result => some ⟨result.attempts, result.fallbackUsed, result.backendErrors⟩
  | .error e => e.httpError.map fun e => ⟨max e.backendErrors.length 1, e.backendErrors.length > 1, e.backendErrors⟩

/-- In the row of a job. -/
def ofJob (job : GenerationJob) : Recorded := ⟨job.attempts, job.fallbackUsed, job.backendErrors⟩

/-- The job is completed if and only if a chat request would be answered, and the same is recorded of both. -/
def Alike (settings : Settings) (jobId : JobId) (rel : Relations) (routes : List Models.ModelBackendRoute) (w : World) :
    Prop :=
  let response := ((chatWithFallback settings routes false).exec w).1
  let worked := (processGenerationJob settings (jobChat settings) jobId rel).exec w
  (worked.1 = .ok .completed ↔ ∃ result, response = .ok result) ∧
    (worked.2.committed.jobs.lookup jobId).map ofJob = ofResponse response

/-- A failure is recorded for good. -/
theorem ofResponse_failOver (reply : Models.InferenceBackend → Reply) (routes : List Models.ModelBackendRoute) (n : ℕ)
    (lastExc : ℕ × Detail) (backendErrors : List BackendError) :
    ∃ recorded, ofResponse (failOver (callOutcome reply) n (some lastExc) backendErrors routes) = some recorded ∧
      backendErrors <+: recorded.backendErrors := by
  induction routes generalizing n lastExc backendErrors with
  | nil => exact ⟨_, rfl, List.prefix_rfl⟩
  | cons route routes ih =>
    unfold failOver
    cases route.inferenceBackend with
    | none => exact ih _ _ _
    | some backend =>
      rcases callOutcome_cases reply backend with ⟨-, statusCode, body, -, hok⟩ | ⟨-, statusCode, detail, herror⟩
      · simp only [hok]
        exact ⟨_, rfl, List.prefix_rfl⟩
      · simp only [herror]
        split
        · obtain ⟨recorded, hrecorded, hprefix⟩ := ih (n + 1) (statusCode, detail)
            (backendErrors ++ [serializeBackendError route backend statusCode detail])
          exact ⟨recorded, hrecorded, (List.prefix_append _ _).trans hprefix⟩
        · exact ⟨_, rfl, List.prefix_append _ _⟩

/-! ## The work on a job -/

section Work

variable {jobId : JobId} {next : List Answer}

/-- The row of the job in the session and as committed. -/
def Rows (jobId : JobId) (rows : GenerationJob × GenerationJob) (w : World) : Prop :=
  w.current.jobs.lookup jobId = some rows.1 ∧ w.committed.jobs.lookup jobId = some rows.2

theorem inert_rows (jobId : JobId) (rows : GenerationJob × GenerationJob) : Inert (Rows jobId rows) := fun _ _ h => h

theorem jobFrame_rows (jobId : JobId) : JobFrame (fun rows w => Quiet w ∧ Rows jobId rows w) (fun _ => False) where
  await := by
    intro rows w hw
    rw [await_exec hw.1]
    exact ⟨hw, trivial⟩
  same := by
    rintro rows w w' hs ⟨hq, hcur, hcom⟩
    exact ⟨hs.faults.trans hq, by rw [hs.jobs, hcur], by rw [hs.committed, hcom]⟩

/-- The program returns and leaves the rows of the job as they are. -/
abbrev Leave {α : Type} (jobId : JobId) (x : Prog α) : Prop :=
  KeepsAll (fun rows w => Quiet w ∧ Rows jobId rows w) (fun _ => True) (fun _ => False) x

theorem frame_rows (jobId : JobId) : Frame (fun rows w => Quiet w ∧ Rows jobId rows w) (fun _ => False) :=
  (jobFrame_rows jobId).frame

/-- What leaves the rows alone, before something else. -/
theorem Leave.then {α β : Type} {x : Prog α} {f : α → Prog β} {rows : GenerationJob × GenerationJob}
    {Q : β → World → Prop} {E : Exc → World → Prop} (hx : Leave jobId x)
    (hf : ∀ a, Triple (fun w => Quiet w ∧ Rows jobId rows w) (f a) Q E) :
    Triple (fun w => Quiet w ∧ Rows jobId rows w) (x >>= f) Q E :=
  triple_bind ((hx rows).conseq (fun _ h => h) (fun _ _ h => h.1) fun _ _ h => h.2.elim) hf

theorem triple_updateRow (f : GenerationJob → GenerationJob) (job com : GenerationJob) :
    Triple (fun w => Quiet w ∧ Rows jobId (job, com) w) (updateJob jobId f)
      (fun _ w => Quiet w ∧ Rows jobId (f job, com) w) fun _ _ => False := by
  refine triple_modify ?_
  rintro w ⟨hq, hcur, hcom⟩
  refine ⟨hq, ?_, hcom⟩
  simp only [World.setCurrent, hcur, AList.lookup_insert]

theorem triple_commitRow (job com : GenerationJob) :
    Triple (fun w => Quiet w ∧ Rows jobId (job, com) w) commit (fun _ w => Quiet w ∧ Rows jobId (job, job) w)
      fun _ _ => False := by
  rintro w ⟨hq, hcur, -⟩
  rw [commit_exec hq]
  exact ⟨hq, hcur, hcur⟩

/-- The worker has returned `r` with this in the row of the job. -/
def Over (jobId : JobId) (r : JobResult) (recorded : Recorded) (returned : JobResult) (w : World) : Prop :=
  returned = r ∧ ∃ job, ofJob job = recorded ∧ Quiet w ∧ Rows jobId (job, job) w

theorem triple_last (r : JobResult) (job com : GenerationJob) :
    Triple (fun w => Quiet w ∧ Rows jobId (job, com) w) (do commit; pure r) (Over jobId r (ofJob job))
      fun _ _ => False :=
  triple_bind (triple_commitRow job com) fun _ => triple_pure fun _ hw => ⟨rfl, job, rfl, hw⟩

variable (settings : Settings) (reply : Models.InferenceBackend → Reply) (job : GenerationJob)
  (backend : Models.InferenceBackend)

variable (jobId) in
/-- The call of the proxy. -/
theorem comesTo_jobChat (rows : GenerationJob × GenerationJob) :
    ComesTo (fun w => Ready (script settings reply backend) w ∧ Rows jobId rows w) (jobChat settings backend)
      (callOutcome reply backend) fun w => Quiet w ∧ Rows jobId rows w := by
  have hchat := ready_chat [] settings reply (inert_rows jobId rows) backend
  rw [List.append_nil] at hchat
  exact hchat.conseq (fun _ h => h) (fun _ _ h => ⟨h.1, h.2.1.quiet, h.2.2⟩) fun _ _ h => ⟨h.1, h.2.1.quiet, h.2.2⟩

theorem triple_generate_ok {result : ForwardResult} (h : callOutcome reply backend = .ok result)
    (rows : GenerationJob × GenerationJob) :
    Triple (fun w => Ready (script settings reply backend) w ∧ Rows jobId rows w)
      (generate settings (jobChat settings) jobId job backend)
      (Over jobId .completed ⟨result.attempts, result.fallbackUsed, result.backendErrors⟩) fun _ _ => False := by
  have hchat := comesTo_jobChat jobId settings reply backend rows
  rw [h] at hchat
  refine triple_bind (hchat.conseq (fun _ h => h) (fun _ _ h => h) fun _ _ h => by cases h.1) fun result' => ?_
  rintro w ⟨hresult, hw⟩
  cases hresult
  refine Leave.then ((frame_rows jobId).storeExactCache settings _ _ _ _ _) (fun _ => ?_) w hw
  refine Leave.then ((jobFrame_rows jobId).bookAnswer _ _ _ _ _) fun _ => ?_
  exact triple_bind (triple_updateRow _ rows.1 rows.2) fun _ => triple_last .completed _ rows.2

theorem triple_generate_error {statusCode : ℕ} {detail : Detail}
    (h : callOutcome reply backend = .error (.http statusCode detail)) (rows : GenerationJob × GenerationJob) :
    Triple (fun w => Ready (script settings reply backend) w ∧ Rows jobId rows w)
      (generate settings (jobChat settings) jobId job backend) (fun _ _ => False)
      fun e w => e = .http statusCode detail ∧ Quiet w ∧ Rows jobId rows w := by
  have hchat := comesTo_jobChat jobId settings reply backend rows
  rw [h] at hchat
  refine triple_bind (Q := fun _ _ => False) (hchat.conseq (fun _ h => h) (fun _ _ h => by cases h.1) fun e w hw => ?_)
    fun _ _ hw => hw.elim
  obtain ⟨he, hw⟩ := hw
  cases he
  exact ⟨rfl, hw⟩

/-- The errors of a failed call name no route. -/
theorem httpError_http (statusCode : ℕ) (detail : Detail) :
    ∃ e, (Exc.http statusCode detail).httpError = some e ∧ e.backendErrors = [] := by
  cases detail with
  | text => exact ⟨_, rfl, rfl⟩
  | rejected => exact ⟨_, rfl, rfl⟩

theorem triple_orFail_ok {result : ForwardResult} (h : callOutcome reply backend = .ok result)
    (rows : GenerationJob × GenerationJob) :
    Triple (fun w => Ready (script settings reply backend) w ∧ Rows jobId rows w)
      (orFail jobId job backend (generate settings (jobChat settings) jobId job backend))
      (Over jobId .completed ⟨result.attempts, result.fallbackUsed, result.backendErrors⟩) fun _ _ => False :=
  triple_tryExcept (triple_generate_ok settings reply job backend h rows) fun _ _ hw => hw.elim

/-- The worker's `except HTTPException`. -/
theorem triple_orFail_error {statusCode : ℕ} {detail : Detail}
    (h : callOutcome reply backend = .error (.http statusCode detail)) (rows : GenerationJob × GenerationJob) :
    Triple (fun w => Ready (script settings reply backend) w ∧ Rows jobId rows w)
      (orFail jobId job backend (generate settings (jobChat settings) jobId job backend))
      (Over jobId .failed ⟨1, false, []⟩) fun _ _ => False := by
  refine triple_tryExcept ((triple_generate_error settings reply job backend h rows).conseq (fun _ h => h)
    (fun _ _ h => h.elim) fun _ _ h => h) fun e => ?_
  rintro w ⟨rfl, hw⟩
  obtain ⟨e, he, herrors⟩ := httpError_http statusCode detail
  simp only [he]
  refine Leave.then ((jobFrame_rows jobId).logRequest _) (fun _ => ?_) w hw
  refine triple_bind (triple_updateRow _ rows.1 rows.2) fun _ => ?_
  refine Leave.then ((frame_rows jobId).maybeRecordRequestErrorBurst _ _) fun _ => ?_
  refine (triple_last .failed _ rows.2).conseq (fun _ h => h) (fun _ _ h => ?_) fun _ _ h => h
  obtain ⟨hr, job, hjob, hw⟩ := h
  refine ⟨hr, job, hjob.trans ?_, hw⟩
  simp [ofJob, herrors]

/-- The slot is given back when the job is over. -/
theorem triple_release {r : JobResult} {recorded : Recorded} (returned : JobResult) (backendId : Slots.BackendId) :
    Triple (Over jobId r recorded returned) (release backendId) (fun _ => Over jobId r recorded returned)
      fun _ _ => False := by
  rintro w ⟨hr, job, hjob, hw⟩
  exact ((frame_rows jobId).release backendId (job, job)).conseq (fun _ h => h)
    (fun _ _ h => ⟨hr, job, hjob, h.1⟩) (fun _ _ h => h.2.elim) w hw

/-- The claimed job, whatever its work comes to. -/
theorem runOn_over {r : JobResult} {recorded : Recorded} {w : World} {com : GenerationJob}
    (hwork : ∀ rows, Triple (fun w => Ready (script settings reply backend) w ∧ Rows jobId rows w)
      (orFail jobId job backend (generate settings (jobChat settings) jobId job backend)) (Over jobId r recorded)
      fun _ _ => False)
    (hready : Ready (script settings reply backend) w) (hrows : Rows jobId (job, com) w) :
    ∃ w', (runOn settings (jobChat settings) jobId job backend).exec w = (.ok r, w') ∧
      (w'.committed.jobs.lookup jobId).map ofJob = some recorded := by
  let claimed : GenerationJob := { job with status := .running, backendName := some backend.name }
  let w₁ : World := w.setCurrent fun db => { db with jobs := db.jobs.insert jobId claimed }
  let w₂ : World := { w₁ with committed := w₁.current }
  have hupdate : (updateJob jobId fun job => { job with status := .running, backendName := some backend.name }).exec w =
      (.ok (), w₁) := by
    simp only [updateJob, Program.modify, Program.modifyGet, World.setCurrent, hrows.1, w₁, claimed]
  have hcommit : commit.exec w₁ = (.ok (), w₂) := commit_exec (w := w₁) hready.quiet
  have hclaimed : Rows jobId (claimed, claimed) w₂ := ⟨AList.lookup_insert _, AList.lookup_insert _⟩
  have hover := triple_tryFinally (hwork (claimed, claimed)) (fun returned => triple_release returned backend.id)
    (fun _ _ hw => hw.elim) w₂ ⟨⟨hready.quiet, hready.admits, hready.answers⟩, hclaimed⟩
  unfold runOn
  rw [exec_bind_ok hupdate, exec_bind_ok hcommit]
  rcases hr : (Program.tryFinally (orFail jobId job backend (generate settings (jobChat settings) jobId job backend))
    (release backend.id)).exec w₂ with ⟨_ | returned, w'⟩ <;> rw [hr] at hover
  · exact hover.elim
  · obtain ⟨rfl, job, hjob, -, hrow⟩ := hover
    exact ⟨w', rfl, by rw [hrow.2, Option.map_some, hjob]⟩

end Work

/-! ## A queued job and a chat request -/

/-- A job is queued, its client may have it worked on, no cached answer is found, every backend of the planned routes has
a free slot and meets each post with its reply, and nothing else fails. -/
structure Scene (settings : Settings) (reply : Models.InferenceBackend → Reply) (jobId : JobId) (rel : Relations)
    (model : Models.ModelRegistry) (routes : List Models.ModelBackendRoute) (w : World) : Prop where
  ready : Ready (scripts settings reply routes) w
  free : Free w.slots routes
  session : w.current = w.committed
  queued : ∃ job, w.committed.jobs.lookup jobId = some job ∧ job.status = .queued ∧ job.backendErrors = [] ∧
    cacheHit settings w.committed (w.env.clock 0).instant (jobKey job) = false
  mayRun : rel.mayRun = true
  loads : rel.model = some model
  order : Models.planRoutingOrder model rel.draws = routes

section Alike

variable {settings : Settings} {reply : Models.InferenceBackend → Reply} {jobId : JobId} {rel : Relations}
  {model : Models.ModelRegistry} {route : Models.ModelBackendRoute} {routes : List Models.ModelBackendRoute} {w : World}

variable (settings) in
/-- A look into the cache uses up no answer of a backend. -/
theorem ready_lookupExactCache {next : List Answer} (key : CacheKey) :
    Triple (Ready next) (lookupExactCache settings key) (fun _ => Ready next) fun _ _ => True := by
  unfold lookupExactCache
  split
  · refine triple_bind (Q := fun _ => Ready next) (triple_modifyGet fun w hw => ⟨hw.quiet, hw.admits, hw.answers⟩)
      fun now => ?_
    refine triple_bind (Q := fun _ => Ready next) (ready_await.conseq (P := fun w => Ready next w ∧ True)
      (fun _ h => ⟨h, trivial⟩) (fun _ _ h => h.1) fun _ _ _ => trivial) fun _ => triple_modifyGet fun w hw => ?_
    split
    · exact hw
    · split
      · exact ⟨hw.quiet, hw.admits, hw.answers⟩
      · exact hw
  · exact triple_pure fun _ hw => hw

/-- The worker comes to the routes. -/
theorem process_routes (h : Scene settings reply jobId rel model routes w) :
    ∃ job w', (processGenerationJob settings (jobChat settings) jobId rel).exec w =
        (processOnBackend settings (jobChat settings) jobId rel job).exec w' ∧
      Ready (scripts settings reply routes) w' ∧ w'.slots = w.slots ∧ Rows jobId (job, job) w' ∧
      job.backendErrors = [] := by
  obtain ⟨job, hjob, hqueued, herrors, hmiss⟩ := h.queued
  obtain ⟨cached, w₁, hlookup, hhit, hsame, hslots⟩ :=
    lookupExactCache_exec settings (jobKey job) (w := w) h.ready.quiet
  have hcached : cached = none := by
    rw [h.session, hmiss] at hhit
    simpa using hhit
  subst hcached
  have hready : Ready (scripts settings reply routes) w₁ := by
    have hkept := ready_lookupExactCache settings (jobKey job) w h.ready
    rw [hlookup] at hkept
    exact hkept
  refine ⟨job, w₁, ?_, hready, hslots, ⟨?_, ?_⟩, herrors⟩
  · unfold processGenerationJob
    rw [exec_bind_ok (loadJob_exec h.ready.quiet), h.session, hjob]
    dsimp only
    rw [if_neg (not_not.mpr hqueued), if_neg (by simp [h.mayRun]), exec_bind_ok hlookup]
  · rw [← hjob, ← h.session, ← hsame.jobs]
  · rw [← hjob, ← hsame.committed]

/-- The worker gives the job to the first route. -/
theorem process_runOn (h : Scene settings reply jobId rel model (route :: routes) w)
    (hloaded : Models.RoutingLoaded rel.primaryLoaded model) {backend : Models.InferenceBackend}
    (hbackend : route.inferenceBackend = some backend) :
    ∃ job w', (processGenerationJob settings (jobChat settings) jobId rel).exec w =
        (runOn settings (jobChat settings) jobId job backend).exec w' ∧
      Ready (script settings reply backend) w' ∧ Rows jobId (job, job) w' := by
  obtain ⟨job, w₁, hprocess, hready, hslots, hrows, -⟩ := process_routes h
  have hroutes : rel.routes = some (.ok (route :: routes)) := by
    rw [ModelLoad.routes, h.loads, Option.map_some, Models.planLoaded_of_loaded hloaded, h.order]
  have hfree : (Slots.tryAcquire (w₁.slots backend.id)).1 = true := by
    rw [hslots]
    exact h.free route List.mem_cons_self backend hbackend
  let w₂ : World :=
    { w₁ with slots := Function.update w₁.slots backend.id (Slots.tryAcquire (w₁.slots backend.id)).2 }
  have hchoose : (chooseRoute (route :: routes)).exec w₁ = (.ok (some backend), w₂) := by
    unfold chooseRoute
    rw [hbackend]
    show (tryAcquire backend.id >>= _).exec w₁ = _
    rw [exec_bind_ok (tryAcquire_exec backend.id hready.quiet), hfree]
    rfl
  refine ⟨job, w₂, ?_, ?_, hrows⟩
  · rw [hprocess]
    unfold processOnBackend
    rw [hroutes]
    dsimp only
    rw [exec_bind_ok hchoose]
  · have hfirst : scripts settings reply (route :: routes) =
        script settings reply backend ++ scripts settings reply routes := by
      simp [scripts, hbackend]
    rw [hfirst] at hready
    have hscript := hready.weaken
    exact ⟨hscript.quiet, hscript.admits, hscript.answers⟩

/-- The routes cannot be planned: an exception leaves the row of the job as it was. -/
theorem process_unloaded (h : Scene settings reply jobId rel model routes w)
    (hloaded : ¬ Models.RoutingLoaded rel.primaryLoaded model) :
    ∃ job w', (processGenerationJob settings (jobChat settings) jobId rel).exec w = (.error .other, w') ∧
      w'.committed.jobs.lookup jobId = some job ∧ job.backendErrors = [] := by
  obtain ⟨job, w₁, hprocess, -, -, hrows, herrors⟩ := process_routes h
  obtain ⟨e, he⟩ := Models.planLoaded_of_not_loaded hloaded rel.draws
  have hroutes : rel.routes = some (.error e) := by
    rw [ModelLoad.routes, h.loads, Option.map_some, he]
  refine ⟨job, w₁, ?_, hrows.2, herrors⟩
  rw [hprocess]
  unfold processOnBackend
  rw [hroutes]
  rfl

theorem response_of_serves (h : Scene settings reply jobId rel model (route :: routes) w)
    {backend : Models.InferenceBackend} (hbackend : route.inferenceBackend = some backend) {statusCode : ℕ}
    {body : String} (hok : callOutcome reply backend = .ok ⟨statusCode, body, backend.name, 1, false, []⟩) :
    ((chatWithFallback settings (route :: routes) false).exec w).1 =
      .ok ⟨statusCode, body, backend.name, 1, false, []⟩ := by
  rw [chatWithFallback_failOver settings reply h.ready h.free, failOver, hbackend]
  simp only [hok]
  rfl

/-- A failure of the first backend is recorded of the chat request. -/
theorem response_of_fails (h : Scene settings reply jobId rel model (route :: routes) w)
    {backend : Models.InferenceBackend} (hbackend : route.inferenceBackend = some backend) {statusCode : ℕ}
    {detail : Detail} (herror : callOutcome reply backend = .error (.http statusCode detail)) :
    ∃ recorded, ofResponse ((chatWithFallback settings (route :: routes) false).exec w).1 = some recorded ∧
      recorded.backendErrors ≠ [] := by
  let e := serializeBackendError route backend statusCode detail
  obtain ⟨recorded, hresponse, herrors⟩ : ∃ recorded,
      ofResponse ((chatWithFallback settings (route :: routes) false).exec w).1 = some recorded ∧
        [e] <+: recorded.backendErrors := by
    rw [chatWithFallback_failOver settings reply h.ready h.free, failOver, hbackend]
    simp only [herror]
    split
    · exact ofResponse_failOver reply routes 2 (statusCode, detail) [e]
    · exact ⟨_, rfl, List.prefix_rfl⟩
  refine ⟨recorded, hresponse, fun hnone => ?_⟩
  rw [hnone] at herrors
  exact absurd (List.prefix_nil.mp herrors) (List.cons_ne_nil e [])

theorem alike_of_serves (h : Scene settings reply jobId rel model (route :: routes) w)
    (hloaded : Models.RoutingLoaded rel.primaryLoaded model) {backend : Models.InferenceBackend}
    (hbackend : route.inferenceBackend = some backend) (hserves : Serves reply backend) :
    Alike settings jobId rel (route :: routes) w := by
  rcases callOutcome_cases reply backend with ⟨-, statusCode, body, -, hok⟩ | ⟨hfails, -⟩
  · obtain ⟨job, w', hprocess, hready, hrows⟩ := process_runOn h hloaded hbackend
    obtain ⟨w'', hrun, hrecorded⟩ := runOn_over settings reply job backend
      (fun rows => triple_orFail_ok settings reply job backend hok rows) hready hrows
    unfold Alike
    rw [hprocess, hrun, response_of_serves h hbackend hok]
    exact ⟨⟨fun _ => ⟨_, rfl⟩, fun _ => rfl⟩, hrecorded⟩
  · exact absurd hserves hfails

/-- A failure of the first backend fails the job, and is not recorded there. -/
theorem process_of_fails (h : Scene settings reply jobId rel model (route :: routes) w)
    (hloaded : Models.RoutingLoaded rel.primaryLoaded model) {backend : Models.InferenceBackend}
    (hbackend : route.inferenceBackend = some backend) {statusCode : ℕ} {detail : Detail}
    (herror : callOutcome reply backend = .error (.http statusCode detail)) :
    ∃ w', (processGenerationJob settings (jobChat settings) jobId rel).exec w = (.ok .failed, w') ∧
      (w'.committed.jobs.lookup jobId).map ofJob = some ⟨1, false, []⟩ := by
  obtain ⟨job, w', hprocess, hready, hrows⟩ := process_runOn h hloaded hbackend
  obtain ⟨w'', hrun, hrecorded⟩ := runOn_over settings reply job backend
    (fun rows => triple_orFail_error settings reply job backend herror rows) hready hrows
  exact ⟨w'', hprocess.trans hrun, hrecorded⟩

theorem not_alike_of_fails (h : Scene settings reply jobId rel model (route :: routes) w)
    (hloaded : Models.RoutingLoaded rel.primaryLoaded model) {backend : Models.InferenceBackend}
    (hbackend : route.inferenceBackend = some backend) (hfails : ¬ Serves reply backend) :
    ¬ Alike settings jobId rel (route :: routes) w := by
  rcases callOutcome_cases reply backend with ⟨hserves, -⟩ | ⟨-, statusCode, detail, herror⟩
  · exact absurd hserves hfails
  · obtain ⟨w', hprocess, hrecorded⟩ := process_of_fails h hloaded hbackend herror
    obtain ⟨recorded, hresponse, herrors⟩ := response_of_fails h hbackend herror
    rintro ⟨-, hsame⟩
    rw [hprocess, hresponse] at hsame
    exact herrors (congrArg Recorded.backendErrors (Option.some.inj (hsame.symm.trans hrecorded)))

/-- A job whose routes cannot be planned is neither completed nor failed. -/
theorem not_alike_of_not_loaded (h : Scene settings reply jobId rel model (route :: routes) w)
    (hloaded : ¬ Models.RoutingLoaded rel.primaryLoaded model) {backend : Models.InferenceBackend}
    (hbackend : route.inferenceBackend = some backend) : ¬ Alike settings jobId rel (route :: routes) w := by
  obtain ⟨job, w', hprocess, hjob, hnone⟩ := process_unloaded h hloaded
  rintro ⟨hresult, hsame⟩
  rw [hprocess] at hresult hsame
  rcases callOutcome_cases reply backend with ⟨-, statusCode, body, -, hok⟩ | ⟨-, statusCode, detail, herror⟩
  · have hcompleted := hresult.mpr ⟨_, response_of_serves h hbackend hok⟩
    cases hcompleted
  · obtain ⟨recorded, hresponse, herrors⟩ := response_of_fails h hbackend herror
    rw [hjob, Option.map_some, hresponse] at hsame
    exact herrors (congrArg Recorded.backendErrors (Option.some.inj hsame) ▸ hnone)

/-- **A job ends like a chat request exactly if its routes can be planned and the backend of the first one serves it.** -/
theorem alike_iff (h : Scene settings reply jobId rel model (route :: routes) w) :
    Alike settings jobId rel (route :: routes) w ↔
      Models.RoutingLoaded rel.primaryLoaded model ∧
        ∃ backend, route.inferenceBackend = some backend ∧ Serves reply backend := by
  obtain ⟨backend, hbackend⟩ : ∃ backend, route.inferenceBackend = some backend := by
    have heligible : route.eligible = true :=
      Models.eligible_of_mem_planRoutingOrder (h.order ▸ List.mem_cons_self)
    unfold Models.ModelBackendRoute.eligible at heligible
    cases hbackend : route.inferenceBackend with
    | none => simp [hbackend] at heligible
    | some backend => exact ⟨backend, rfl⟩
  constructor
  · intro halike
    have hloaded : Models.RoutingLoaded rel.primaryLoaded model := by
      by_contra hloaded
      exact not_alike_of_not_loaded h hloaded hbackend halike
    refine ⟨hloaded, ?_⟩
    by_contra hfails
    exact not_alike_of_fails h hloaded hbackend (fun hserves => hfails ⟨backend, hbackend, hserves⟩) halike
  · rintro ⟨hloaded, backend, hbackend, hserves⟩
    exact alike_of_serves h hloaded hbackend hserves

end Alike

/-! ## Two routes -/

/-- A route to a backend in good health. -/
def routeTo (id : Models.BackendId) (name : String) (priority : ℤ) : Models.ModelBackendRoute :=
  ⟨some ⟨id, name, "llama.cpp", true⟩, priority, 100, .healthy, 0⟩

def twoRoutes : List Models.ModelBackendRoute := [routeTo 0 "primary" 1, routeTo 1 "secondary" 2]

/-- A model with these routes. -/
def twoRouteModel : Models.ModelRegistry where
  modelId := "m"
  modelAlias := none
  isActive := true
  isDefault := false
  createdAt := 0
  inferenceBackend := none
  backendRoutes := twoRoutes

/-- The job's client may have it worked on. -/
def twoBackends : Relations :=
  { model := some twoRouteModel, primaryLoaded := false, draws := Stream'.const 0, client := some ⟨false, .active⟩ }

theorem plan_twoRouteModel : Models.planRoutingOrder twoRouteModel twoBackends.draws = twoRoutes := by
  have hcandidates : Models.getRoutingCandidates twoRouteModel = twoRoutes := by
    show List.mergeSort twoRoutes Models.ModelBackendRoute.before = _
    exact List.mergeSort_of_pairwise (by decide)
  have hkeys : Models.groupKeys twoRoutes = [(0, 1), (0, 2)] := by
    show List.mergeSort [(0, 1), (0, 2)] Models.keyLe = _
    exact List.mergeSort_of_pairwise (by decide)
  unfold Models.planRoutingOrder
  rw [hcandidates]
  show Models.drainGroups twoRoutes (Models.groupKeys twoRoutes) _ = _
  rw [hkeys]
  rfl

/-- A queued job, and backends that answer as they do. -/
def sceneWorld (reply : Models.InferenceBackend → Reply) : World :=
  { queuedWorld with env := { queuedWorld.env with
      answers := fun n => (scripts ⟨false, 60, 0⟩ reply twoRoutes).getD n .transportError } }

theorem scene_sceneWorld (reply : Models.InferenceBackend → Reply) :
    Scene ⟨false, 60, 0⟩ reply 0 twoBackends twoRouteModel twoRoutes (sceneWorld reply) where
  ready := ⟨rfl, rfl, fun n answer hn => by
    show (scripts ⟨false, 60, 0⟩ reply twoRoutes).getD n .transportError = answer
    rw [List.getD_eq_getElem?_getD, hn, Option.getD_some]⟩
  free := fun _ _ _ _ => rfl
  session := rfl
  queued := ⟨_, rfl, rfl, rfl, rfl⟩
  mayRun := rfl
  loads := rfl
  order := plan_twoRouteModel

/-- Both backends answer. -/
def bothServe : Models.InferenceBackend → Reply := fun _ => .success 200 "ok" "ok" rfl

theorem alike_bothServe : Alike ⟨false, 60, 0⟩ 0 twoBackends twoRoutes (sceneWorld bothServe) ↔
    Models.RoutingLoaded false twoRouteModel ∧
      ∃ backend, (routeTo 0 "primary" 1).inferenceBackend = some backend ∧ Serves bothServe backend :=
  alike_iff (scene_sceneWorld bothServe)

/-- The first backend cannot be reached. -/
def primaryDown : Models.InferenceBackend → Reply := fun backend =>
  if backend.id = 0 then .transportError else .success 200 "ok" "ok" rfl

/-- **A job fails although the second backend would have answered it**, as it answers the chat request. -/
theorem job_not_failed_over :
    Scene ⟨false, 60, 0⟩ primaryDown 0 twoBackends twoRouteModel twoRoutes (sceneWorld primaryDown) ∧
      ((processGenerationJob ⟨false, 60, 0⟩ (jobChat ⟨false, 60, 0⟩) 0 twoBackends).exec (sceneWorld primaryDown)).1 =
        .ok .failed ∧
      (∃ result, ((chatWithFallback ⟨false, 60, 0⟩ twoRoutes false).exec (sceneWorld primaryDown)).1 = .ok result) ∧
      ¬ Alike ⟨false, 60, 0⟩ 0 twoBackends twoRoutes (sceneWorld primaryDown) := by
  have hscene := scene_sceneWorld primaryDown
  have hloaded : Models.RoutingLoaded false twoRouteModel := by decide
  have hfails : ¬ Serves primaryDown ⟨0, "primary", "llama.cpp", true⟩ := by
    rintro ⟨-, _, _, _, _, hsuccess⟩
    cases hsuccess
  have herror : callOutcome primaryDown ⟨0, "primary", "llama.cpp", true⟩ =
      .error (.http 503 (.text "data plane unavailable")) := rfl
  obtain ⟨w', hprocess, -⟩ := process_of_fails hscene hloaded rfl herror
  exact ⟨hscene, by rw [hprocess], ⟨_, rfl⟩, not_alike_of_fails hscene hloaded rfl hfails⟩

end LlmStore.Jobs.Failover
