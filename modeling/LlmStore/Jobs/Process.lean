import LlmStore.Inference.Handlers
import LlmStore.Models.Routing

/-!
# Generation jobs

`process_generation_job` (`services/generation_jobs.py`) works on one job in a session of its own, and `_run_once`
(`workers/generation_worker.py`) takes the id of a job from the Redis list, processes it, and puts it back if no backend
has a slot. `cancel_job` cancels a job that is still queued.
-/

namespace LlmStore.Jobs

open LlmStore.Lib LlmStore.Usage LlmStore.Inference Program

/-- The columns of the client that a worker reads. -/
structure JobClient where
  isBlocked : Bool
  billingStatus : Billing.BillingStatus

/-- The model that is loaded with a job. -/
structure ModelLoad where
  /-- `none` if the model no longer exists. -/
  model : Option Models.ModelRegistry
  /-- Whether the primary backend is loaded, for which the query of the job does not ask. -/
  primaryLoaded : Bool
  /-- The numbers that the `rng` of `plan_routing_order` draws. -/
  draws : Stream' ℚ

/-- What is loaded with a job. -/
structure Relations extends ModelLoad where
  client : Option JobClient

/-- What `plan_routing_order` gives for the model of the job, or raises. -/
def ModelLoad.routes (rel : ModelLoad) : Option (Except Models.LoadError (List Models.ModelBackendRoute)) :=
  rel.model.map fun model => Models.planLoaded rel.primaryLoaded model rel.draws

/-- What `process_generation_job` returns. -/
inductive JobResult where
  | missing
  | skipped
  | failed
  | completed
  | requeue
  deriving DecidableEq, Repr

/-- The client of the job may have it worked on. -/
def Relations.mayRun (rel : Relations) : Bool :=
  rel.client.any fun client => !(client.isBlocked || client.billingStatus = .suspended)

/-! ## Steps of a worker -/

def loadJob (jobId : JobId) : Prog (Option GenerationJob) := do
  await
  modifyGet fun w => (w.current.jobs.lookup jobId, w)

/-- Assignments to the columns of the loaded row. -/
def updateJob (jobId : JobId) (f : GenerationJob → GenerationJob) : Prog Unit :=
  modify fun w => w.setCurrent fun db =>
    match db.jobs.lookup jobId with
    | none => db
    | some job => { db with jobs := db.jobs.insert jobId (f job) }

/-- A job that ends before it is given to a backend. -/
def failEarly (jobId : JobId) (message : String) : Prog JobResult := do
  updateJob jobId fun job => { job with status := .failed, errorMessage := some message }
  commit
  pure .failed

/-- The first route whose backend has a free slot, which is then taken. -/
def chooseRoute : List Models.ModelBackendRoute → Prog (Option Models.InferenceBackend)
  | [] => pure none
  | route :: routes =>
    match route.inferenceBackend with
    | none => chooseRoute routes
    | some backend => do
      if ← tryAcquire backend.id then pure (some backend) else chooseRoute routes

def jobTag (job : GenerationJob) : RequestTag :=
  { clientId := job.clientId, model := job.resolvedModel, endpoint := "/v1/chat/completions/async",
    promptTokens := job.promptTokensEstimated, estimatedCostUsd := job.estimatedCostUsd }

/-- The cached answers of the chat endpoint serve jobs too. -/
def jobKey (job : GenerationJob) : CacheKey :=
  ⟨"/v1/chat/completions", job.resolvedModel, job.cacheKey⟩

/-- The job is answered from the cache. -/
def completeFromCache (jobId : JobId) (job : GenerationJob) (cached : CachedResponse) : Prog JobResult := do
  bookAnswer (jobTag job) cached.result cached.completionTokens false true
  updateJob jobId fun job => { job with
    status := .completed, backendName := some "cache:exact", responseJson := some cached.payload, attempts := 0,
    fallbackUsed := false, completionTokensEstimated := cached.completionTokens }
  commit
  pure .completed

section Generate

variable (settings : Settings) (proxyChat : Models.InferenceBackend → Prog ForwardResult)

/-- The job is given to the backend whose slot the worker holds: the `try` of `process_generation_job`. -/
def generate (jobId : JobId) (job : GenerationJob) (backend : Models.InferenceBackend) : Prog JobResult := do
  let result ← proxyChat backend
  let completionTokens := estimateTokensFromText result.body
  storeExactCache settings (jobKey job) job.cacheFingerprint result.body job.promptTokensEstimated completionTokens
  bookAnswer (jobTag job) result completionTokens false false
  updateJob jobId fun job => { job with
    status := .completed, responseJson := some result.body, attempts := result.attempts,
    fallbackUsed := result.fallbackUsed, backendErrors := result.backendErrors,
    completionTokensEstimated := completionTokens }
  commit
  pure .completed

/-- `except HTTPException` of `process_generation_job`. -/
def orFail (jobId : JobId) (job : GenerationJob) (backend : Models.InferenceBackend) (x : Prog JobResult) :
    Prog JobResult :=
  tryExcept x fun exc =>
    match exc.httpError with
    | none => raise exc
    | some e => do
      logFailure (jobTag job) false (some backend.name) e
      updateJob jobId fun job => { job with
        status := .failed, errorMessage := some e.message, attempts := max e.backendErrors.length 1,
        fallbackUsed := e.backendErrors.length > 1, backendErrors := e.backendErrors }
      maybeRecordRequestErrorBurst job.clientId e.statusCode
      commit
      pure .failed

/-- The job is claimed, and the slot of its backend given back in the end. -/
def runOn (jobId : JobId) (job : GenerationJob) (backend : Models.InferenceBackend) : Prog JobResult := do
  updateJob jobId fun job => { job with status := .running, backendName := some backend.name }
  commit
  tryFinally (orFail jobId job backend (generate settings proxyChat jobId job backend)) (release backend.id)

/-- A job that is not in the cache. -/
def processOnBackend (jobId : JobId) (rel : Relations) (job : GenerationJob) : Prog JobResult :=
  match rel.routes with
  | none => failEarly jobId "configured model no longer exists"
  | some (.error _) => raise .other
  | some (.ok routes) => do
    match ← chooseRoute routes with
    | none => do
      await
      pure .requeue
    | some backend => runOn settings proxyChat jobId job backend

/-- `process_generation_job`, whose call of the proxy is `proxyChat`. -/
def processGenerationJob (jobId : JobId) (rel : Relations) : Prog JobResult := do
  match ← loadJob jobId with
  | none => pure .missing
  | some job =>
    if job.status ≠ .queued then pure .skipped
    else if !rel.mayRun then failEarly jobId "client blocked, missing or suspended"
    else do
      match ← lookupExactCache settings (jobKey job) with
      | some cached => completeFromCache jobId job cached
      | none => processOnBackend settings proxyChat jobId rel job

/-! ## The worker -/

/-- `BLPOP`; if nothing comes in time, there is no item. -/
def blpop : Prog (Option (Option JobId)) := do
  await
  modifyGet fun w => (w.queue.head?, { w with queue := w.queue.tail })

def rpush (jobId : JobId) : Prog Unit := do
  await
  modify fun w => { w with queue := w.queue ++ [some jobId] }

/-- `_run_once`; `rel` tells what is loaded with each job. -/
def runOnce (rel : JobId → Relations) : Prog Unit := do
  match ← blpop with
  | none => await
  | some none => await
  | some (some jobId) => do
    await
    beginSession
    match ← processGenerationJob settings proxyChat jobId (rel jobId) with
    | .requeue => do
      rpush jobId
      await
      await
    | _ => pure ()

end Generate

/-! ## Cancelling -/

/-- `get_job_for_client`. -/
def getJobForClient (clientId : ClientId) (jobId : JobId) : Prog (Option GenerationJob) := do
  let job ← loadJob jobId
  pure (job.filter (·.clientId = clientId))

/-- `cancel_job`. -/
def cancelJob (clientId : ClientId) (jobId : JobId) : Prog GenerationJob := do
  match ← getJobForClient clientId jobId with
  | none => raise (.http 404 (.text "job not found"))
  | some job =>
    if job.status ≠ .queued then raise (.http 409 (.text "job can only be cancelled while queued"))
    else do
      updateJob jobId fun job => { job with status := .cancelled }
      await
      pure { job with status := .cancelled }

/-- `cancel_generation_job`. -/
def cancelGenerationJob (clientId : ClientId) (jobId : JobId) : Prog GenerationJob := do
  beginSession
  let job ← cancelJob clientId jobId
  commit
  pure job

/-! ## Creating -/

/-- The row that `create_chat_generation_job` adds; a key that is taken is refused by the database. -/
def insertJob (jobId : JobId) (job : GenerationJob) : Prog Unit := do
  await
  let fresh ← modifyGet fun w =>
    match w.current.jobs.lookup jobId with
    | some _ => (false, w)
    | none => (true, w.setCurrent fun db => { db with jobs := db.jobs.insert jobId job })
  if fresh then pure () else raise .other

/-- The job of a request. -/
def queuedJob (r : ChatRequest) (estimatedCostUsd : ℚ) : GenerationJob :=
  { clientId := r.clientId, resolvedModel := r.model, cacheKey := r.cacheKey, cacheFingerprint := r.cacheFingerprint,
    status := .queued, promptTokensEstimated := r.promptTokens, completionTokensEstimated := 0, estimatedCostUsd,
    backendName := none, attempts := 0, fallbackUsed := false, responseJson := none, errorMessage := none,
    backendErrors := [] }

/-- `create_chat_generation_job`. -/
def createChatGenerationJob (r : ChatRequest) (jobId : JobId) : Prog Unit := do
  let incomingTokens := r.promptTokens + r.maxTokens
  tooManyRequests do
    enforceRateLimit r.rateLimitPerMinute
    ensureQuota r.clientId r.dailyTokenQuota r.monthlyTokenQuota incomingTokens
  let (dailyUsedBefore, monthlyUsedBefore) ← currentUsage r.clientId
  maybeRecordRepeatedLargePrompt r.clientId r.promptTokens
  maybeRecordPlanUsageAnomaly r.clientId r.dailyTokenQuota r.monthlyTokenQuota incomingTokens dailyUsedBefore
    monthlyUsedBefore
  insertJob jobId (queuedJob r (r.tag "/v1/chat/completions/async" monthlyUsedBefore).estimatedCostUsd)

/-- `chat_completions_async`, with the id that the new job gets. -/
def chatCompletionsAsync (prepared : Except HTTPException ChatRequest) (jobId : JobId) : Prog Unit := do
  beginSession
  await
  match prepared with
  | .error e => raise (.http e.statusCode (.text e.detail))
  | .ok r =>
    createChatGenerationJob r jobId
    commit
    rpush jobId

/-- The call of the real proxy: the worker has the slot already. -/
def jobChat (settings : Settings) (backend : Models.InferenceBackend) : Prog ForwardResult :=
  chat settings backend false false

end LlmStore.Jobs
