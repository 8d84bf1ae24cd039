import LlmStore.Inference.Forward

/-!
# Chat requests

`chat_completions` (`api/client.py`) and `portal_test_chat` (`api/portal.py`): admission, the exact cache, the call of
the backends, and what is booked and logged of it. What a handler works out before it touches Redis and the ledgers
(the model and its routes, the messages, the parameters) is given by a `ChatRequest`, or by the `HTTPException` with
which it refuses.
-/

namespace LlmStore.Inference

open LlmStore.Lib LlmStore.Usage Program

structure ChatRequest where
  clientId : ClientId
  sourceIp : String
  /-- `selected_model.model_id`. -/
  model : String
  /-- In the order of `plan_routing_order`. -/
  routes : List Models.ModelBackendRoute
  stream : Bool
  promptTokens : ℤ
  maxTokens : ℤ
  rateLimitPerMinute : ℤ
  dailyTokenQuota : ℤ
  monthlyTokenQuota : ℤ
  overagePricePer1kTokens : ℚ
  cacheKey : String
  cacheFingerprint : String

/-! ## Booking and logging -/

/-- What the log rows of one request have in common. -/
structure RequestTag where
  clientId : ClientId
  model : String
  endpoint : String
  promptTokens : ℤ
  estimatedCostUsd : ℚ

/-- `record_usage` and `log_request` for a request that was answered. -/
def bookAnswer (tag : RequestTag) (result : ForwardResult) (completionTokens : ℤ) (isStream cacheHit : Bool) :
    Prog Unit := do
  recordUsage tag.clientId tag.promptTokens completionTokens
  logRequest
    { clientId := tag.clientId, model := tag.model, endpoint := tag.endpoint,
      promptTokensEstimated := tag.promptTokens, completionTokensEstimated := completionTokens,
      httpStatus := result.statusCode, isStream, estimatedCostUsd := tag.estimatedCostUsd,
      backendName := some result.backendName, attempts := result.attempts, fallbackUsed := result.fallbackUsed,
      cacheHit, backendErrors := result.backendErrors, errorMessage := none }

/-- The answer that the cache gives. -/
def CachedResponse.result (cached : CachedResponse) : ForwardResult :=
  ⟨200, cached.payload, "cache:exact", 0, false, []⟩

/-- `log_request` for a request that failed. -/
def logFailure (tag : RequestTag) (isStream : Bool) (backendName : Option String) (e : HTTPError) : Prog Unit :=
  logRequest
    { clientId := tag.clientId, model := tag.model, endpoint := tag.endpoint,
      promptTokensEstimated := tag.promptTokens, completionTokensEstimated := 0, httpStatus := e.statusCode, isStream,
      estimatedCostUsd := tag.estimatedCostUsd, backendName, attempts := max e.backendErrors.length 1,
      fallbackUsed := e.backendErrors.length > 1, cacheHit := false, backendErrors := e.backendErrors,
      errorMessage := some e.message }

/-! ## The handlers -/

/-- Refusals of the limits become `HTTPException`s. -/
def tooManyRequests (checks : Prog Unit) : Prog Unit :=
  tryExcept checks fun
    | .rateLimitExceeded message => raise (.http 429 (.text message))
    | .quotaExceeded e => raise (.http 429 (.text e.message))
    | e => raise e

/-- `get_current_usage_snapshot`: the used tokens of the day and of the month. -/
def currentUsage (clientId : ClientId) : Prog (ℤ × ℤ) := do
  let now ← utcNow
  await
  modifyGet fun w => (((w.current.usage.counter (periodKey clientId now.date .daily)).usedTokens,
    (w.current.usage.counter (periodKey clientId now.date .monthly)).usedTokens), w)

/-- The tag of a request at an endpoint. -/
def ChatRequest.tag (r : ChatRequest) (endpoint : String) (monthlyUsedBefore : ℤ) : RequestTag :=
  { clientId := r.clientId, model := r.model, endpoint, promptTokens := r.promptTokens,
    estimatedCostUsd := Billing.estimateRequestCost monthlyUsedBefore (r.promptTokens + r.maxTokens)
      r.monthlyTokenQuota r.overagePricePer1kTokens }

/-- The `try` of the handlers: the status and the body of their answer. -/
def answerChat (settings : Settings) (r : ChatRequest) (tag : RequestTag) : Prog (ℕ × String) := do
  let key : CacheKey := ⟨tag.endpoint, r.model, r.cacheKey⟩
  match ← (if r.stream then pure none else lookupExactCache settings key) with
  | some cached =>
    bookAnswer tag cached.result cached.completionTokens false true
    commit
    pure (200, cached.payload)
  | none =>
    let result ← chatWithFallback settings r.routes r.stream
    if r.stream then bookAnswer tag result r.maxTokens true false
    else
      let completionTokens := estimateTokensFromText result.body
      storeExactCache settings key r.cacheFingerprint result.body r.promptTokens completionTokens
      bookAnswer tag result completionTokens false false
    commit
    pure (result.statusCode, result.body)

/-- `except HTTPException` of the handlers, with what they do between the log row and the commit. -/
def orLogFailure (tag : RequestTag) (isStream : Bool) (between : HTTPError → Prog Unit) (x : Prog (ℕ × String)) :
    Prog (ℕ × String) :=
  tryExcept x fun exc =>
    match exc.httpError with
    | none => raise exc
    | some e => do
      logFailure tag isStream (e.backendErrors.getLast?.map (·.backendName)) e
      between e
      commit
      raise exc

/-- `chat_completions`. -/
def chatCompletions (settings : Settings) (prepared : Except HTTPException ChatRequest) : Prog (ℕ × String) := do
  beginSession
  await
  match prepared with
  | .error e => raise (.http e.statusCode (.text e.detail))
  | .ok r =>
    let incomingTokens := r.promptTokens + r.maxTokens
    tooManyRequests do
      enforceIpRateLimit r.sourceIp 60
      enforceRateLimit r.rateLimitPerMinute
      ensureQuota r.clientId r.dailyTokenQuota r.monthlyTokenQuota incomingTokens
    let (dailyUsedBefore, monthlyUsedBefore) ← currentUsage r.clientId
    maybeRecordRepeatedLargePrompt r.clientId r.promptTokens
    maybeRecordPlanUsageAnomaly r.clientId r.dailyTokenQuota r.monthlyTokenQuota incomingTokens dailyUsedBefore
      monthlyUsedBefore
    let tag := r.tag "/v1/chat/completions" monthlyUsedBefore
    orLogFailure tag r.stream (fun e => maybeRecordRequestErrorBurst r.clientId e.statusCode) (answerChat settings r tag)

/-- `portal_test_chat`, whose requests never stream. Of its answer the model and the text are left out. -/
def portalTestChat (settings : Settings) (prepared : Except HTTPException ChatRequest) : Prog (ℕ × String) := do
  beginSession
  await
  match prepared with
  | .error e => raise (.http e.statusCode (.text e.detail))
  | .ok r =>
    let r := { r with stream := false }
    tooManyRequests do
      enforceRateLimit r.rateLimitPerMinute
      ensureQuota r.clientId r.dailyTokenQuota r.monthlyTokenQuota (r.promptTokens + r.maxTokens)
    let (_, monthlyUsedBefore) ← currentUsage r.clientId
    let tag := r.tag "/portal/test-chat" monthlyUsedBefore
    orLogFailure tag false (fun _ => pure ()) (answerChat settings r tag)

end LlmStore.Inference
