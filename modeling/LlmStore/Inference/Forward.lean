import LlmStore.Inference.Session

/-!
# Calls of the inference proxy

`services/inference_proxy.py`: a call of `chat` passes the circuit breaker, takes a slot of its backend unless its
caller has one, and posts the request, for a plain answer again after a failure on the backend's side, or opens a
stream. `_chat_with_fallback` (`api/client.py`) goes through the routes of a model until one of them answers.
-/

namespace LlmStore.Inference

open LlmStore.Lib Program

/-! ## Errors -/

/-- `str(exc.detail)`. -/
def Detail.str : Detail → String
  | .text s => s
  | .rejected backendStatusCode backendResponse =>
    "\x7b'message': 'data plane rejected request', 'backend_status_code': " ++ toString backendStatusCode ++
      ", 'backend_response': " ++ backendResponse ++ "\x7d"

/-- What a handler of `HTTPException` reads of the exception. -/
structure HTTPError where
  statusCode : ℕ
  /-- `_error_message_for_log(exc.detail)`. -/
  message : String
  /-- `_backend_errors_for_log(exc.detail)`. -/
  backendErrors : List BackendError

/-- `except HTTPException as exc`. -/
def Exc.httpError : Exc → Option HTTPError
  | .http statusCode (.text s) => some ⟨statusCode, s, []⟩
  | .http statusCode (.rejected _ _) => some ⟨statusCode, "data plane rejected request", []⟩
  | .routesFailed statusCode message backendErrors => some ⟨statusCode, message, backendErrors⟩
  | .rateLimitExceeded _ | .quotaExceeded _ | .other => none

/-- What goes wrong with a post: an `HTTPStatusError` or a `TransportError`. -/
inductive PostError where
  | httpStatus (statusCode : ℕ) (shown : String)
  | transport

namespace PostError

/-- `_should_trip_circuit_breaker`; also whether the post may be tried again. -/
def onBackendSide : PostError → Bool
  | .httpStatus statusCode _ => statusCode ≥ 500
  | .transport => true

/-- The `HTTPException` for the last error. -/
def toExc : PostError → Exc
  | .httpStatus statusCode shown =>
    if statusCode < 500 then .http statusCode (.rejected statusCode shown)
    else .http 503 (.text "data plane unavailable")
  | .transport => .http 503 (.text "data plane unavailable")

end PostError

/-! ## One call -/

/-- A `ForwardResult`; the body of a stream is left out. -/
structure ForwardResult where
  statusCode : ℕ
  body : String
  backendName : String
  attempts : ℕ
  fallbackUsed : Bool
  backendErrors : List BackendError

/-- `response.is_success`. -/
def isSuccess (statusCode : ℕ) : Bool := 200 ≤ statusCode ∧ statusCode ≤ 299

/-- `_client_for_backend`. -/
def clientForBackend (provider : String) : Prog Unit :=
  if provider ∉ ["llama.cpp", "ollama", "vllm"] then raise (.http 503 (.text "unsupported model backend")) else pure ()

/-- The `try` of the loop of `_json_forward`. -/
def post (backendName : String) : Prog (ForwardResult ⊕ PostError) := do
  await
  match ← nextAnswer with
  | .transportError => pure (.inr .transport)
  | .response statusCode payload shown =>
    if isSuccess statusCode then
      await
      match payload with
      | some body => pure (.inl ⟨statusCode, body, backendName, 1, false, []⟩)
      | none => raise .other
    else pure (.inr (.httpStatus statusCode shown))

/-- The loop of `_json_forward`, with so many more attempts left. -/
def postLoop (backendName : String) : ℕ → Prog (ForwardResult ⊕ PostError)
  | 0 => post backendName
  | attemptsLeft + 1 => do
    match ← post backendName with
    | .inl result => pure (.inl result)
    | .inr e =>
      if e.onBackendSide then do
        await
        postLoop backendName attemptsLeft
      else pure (.inr e)

/-- After the last error. -/
def raiseLast (e : PostError) : Prog ForwardResult := do
  if e.onBackendSide then await else pure ()
  raise e.toExc

/-- `_json_forward`. -/
def jsonForward (settings : Settings) (backend : Models.InferenceBackend) : Prog ForwardResult := do
  clientForBackend backend.provider
  match ← postLoop backend.name settings.retryAttempts with
  | .inl result => pure result
  | .inr e => raiseLast e

/-- `_streaming_forward`, which returns as soon as the stream is open. -/
def streamingForward (backend : Models.InferenceBackend) : Prog ForwardResult := do
  clientForBackend backend.provider
  await
  match ← nextAnswer with
  | .transportError => do
    await
    raiseLast .transport
  | .response statusCode _ shown =>
    if isSuccess statusCode then do
      await
      pure ⟨200, "", backend.name, 1, false, []⟩
    else do
      await
      -- the body, which `_backend_error_detail` asks for, has not been fetched
      if statusCode < 500 then raise .other else raiseLast (.httpStatus statusCode shown)

/-! ## Slots -/

/-- `BackendSlotManager.try_acquire`, in a session of its own. -/
def tryAcquire (backendId : Slots.BackendId) : Prog Bool := do
  await
  let acquired ← modifyGet fun w =>
    ((Slots.tryAcquire (w.slots backendId)).1,
      { w with slots := Function.update w.slots backendId (Slots.tryAcquire (w.slots backendId)).2 })
  await
  pure acquired

/-- `BackendSlotManager.acquire`. Requests come one after another here, so nobody gives up a slot while it waits. -/
def acquire (backendId : Slots.BackendId) : Prog Unit := do
  if ← tryAcquire backendId then pure ()
  else raise (.http 504 (.text "backend concurrency limit reached"))

/-- `BackendSlotManager.release`. -/
def release (backendId : Slots.BackendId) : Prog Unit := do
  await
  modify fun w => { w with slots := Function.update w.slots backendId (Slots.release (w.slots backendId)) }
  await

/-- `async with self.queue_manager.slot(...)`. -/
def withSlot (backendId : Slots.BackendId) (body : Prog ForwardResult) : Prog ForwardResult := do
  await
  if ← nextRefusal then raise (.http 429 (.text "generation queue is full"))
  else tryFinally (do acquire backendId; tryFinally body (release backendId)) await

/-- `InferenceProxy.chat`, that is `_forward`; its three `except` clauses are at the places that raise. -/
def chat (settings : Settings) (backend : Models.InferenceBackend) (stream manageSlot : Bool) : Prog ForwardResult := do
  await
  if ← nextRefusal then raise (.http 503 (.text "data plane circuit breaker is open"))
  else
    let body := if stream then streamingForward backend else jsonForward settings backend
    if manageSlot then withSlot backend.id body else body

/-! ## All routes of a model -/

/-- `_is_retryable_backend_error`. -/
def isRetryable (statusCode : ℕ) : Bool := statusCode ≥ 500

/-- `_serialize_backend_error`. -/
def serializeBackendError (route : Models.ModelBackendRoute) (backend : Models.InferenceBackend) (statusCode : ℕ)
    (detail : Detail) : BackendError :=
  { backendId := backend.id, backendName := backend.name, provider := backend.provider,
    routePriority := route.priority, routeWeight := route.weight, routeState := route.state, statusCode,
    error := detail.str }

/-- The end of `_chat_with_fallback`, with the last exception, if any, and the errors so far. -/
def raiseRoutesFailed (lastExc : Option (ℕ × Detail)) (backendErrors : List BackendError) : Prog ForwardResult :=
  match lastExc with
  | none => raise (.http 503 (.text "model backend is not active"))
  | some (statusCode, detail) => raise (.routesFailed statusCode detail.str backendErrors)

/-- The loop of `_chat_with_fallback` over the remaining routes; `attempt` is the number of the first of them. -/
def tryRoutes (settings : Settings) (stream : Bool) :
    ℕ → Option (ℕ × Detail) → List BackendError → List Models.ModelBackendRoute → Prog ForwardResult
  | _, lastExc, backendErrors, [] => raiseRoutesFailed lastExc backendErrors
  | attempt, lastExc, backendErrors, route :: routes =>
    match route.inferenceBackend with
    | none => tryRoutes settings stream (attempt + 1) lastExc backendErrors routes
    | some backend =>
      tryExcept
        (do
          let result ← chat settings backend stream true
          pure { result with attempts := attempt, fallbackUsed := attempt > 1, backendErrors })
        fun
        | .http statusCode detail =>
          let backendErrors := backendErrors ++ [serializeBackendError route backend statusCode detail]
          if isRetryable statusCode then
            tryRoutes settings stream (attempt + 1) (some (statusCode, detail)) backendErrors routes
          else raiseRoutesFailed (some (statusCode, detail)) backendErrors
        | e => raise e

/-- `_chat_with_fallback`, with the routes in the order of `plan_routing_order`. -/
def chatWithFallback (settings : Settings) (routes : List Models.ModelBackendRoute) (stream : Bool) :
    Prog ForwardResult :=
  tryRoutes settings stream 1 none [] routes

end LlmStore.Inference
