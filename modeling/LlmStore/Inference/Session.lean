import LlmStore.Billing.Invoices
import LlmStore.Core.Http
import LlmStore.Core.Text
import LlmStore.Lib.Program
import LlmStore.Models.Registry
import LlmStore.Proxy.Slots

/-!
# Requests on a database session

Handlers are programs on a `World`: the committed database, the session's view of it, the slot counters and the Redis
list of the workers, and an `Environment` that answers whatever is decided outside: whether an awaited call fails, what
the clock and Redis say, and what the backends reply. A request starts with a fresh session; what it has not committed
when it ends is lost.
-/

namespace LlmStore.Inference

open LlmStore.Calendar LlmStore.Lib LlmStore.Usage LlmStore.Models

/-! ## Rows -/

/-- What `_serialize_backend_error` tells of a failed route. -/
structure BackendError where
  backendId : Models.BackendId
  backendName : String
  provider : String
  routePriority : ℤ
  routeWeight : ℤ
  routeState : RouteState
  statusCode : ℕ
  error : String
  deriving DecidableEq

structure RequestLog where
  clientId : ClientId
  model : String
  endpoint : String
  promptTokensEstimated : ℤ
  completionTokensEstimated : ℤ
  httpStatus : ℕ
  isStream : Bool
  estimatedCostUsd : ℚ
  backendName : Option String
  attempts : ℕ
  fallbackUsed : Bool
  cacheHit : Bool
  backendErrors : List BackendError
  errorMessage : Option String
  deriving DecidableEq

/-- The columns by which a cached response is looked up. -/
structure CacheKey where
  endpoint : String
  model : String
  requestHash : String
  deriving DecidableEq

structure ResponseCache where
  requestFingerprint : String
  responseJson : String
  promptTokensEstimated : ℤ
  completionTokensEstimated : ℤ
  expiresAt : Instant
  isActive : Bool
  hitCount : ℕ

structure SecurityEvent where
  eventType : String
  severity : String
  title : String
  clientId : ClientId
  deriving DecidableEq

abbrev JobId := ℕ

inductive JobStatus where
  | queued
  | running
  | completed
  | failed
  | cancelled
  deriving DecidableEq, Repr

structure GenerationJob where
  clientId : ClientId
  resolvedModel : String
  /-- The key and fingerprint that `build_chat_cache_key` makes of the stored request. -/
  cacheKey : String
  cacheFingerprint : String
  status : JobStatus
  promptTokensEstimated : ℤ
  completionTokensEstimated : ℤ
  estimatedCostUsd : ℚ
  backendName : Option String
  attempts : ℕ
  fallbackUsed : Bool
  responseJson : Option String
  errorMessage : Option String
  backendErrors : List BackendError

structure Database where
  usage : UsageTables
  requestLogs : List RequestLog
  responseCache : Table CacheKey ResponseCache
  securityEvents : List SecurityEvent
  jobs : Table JobId GenerationJob

/-! ## Worlds -/

/-- What a backend does with a request. -/
inductive Answer where
  /-- A response with its status. `payload` is the text of the payload handed on, `none` where the response has none (its
  text is no JSON, say); `shown` is how the response appears in the detail of an error. -/
  | response (status : ℕ) (payload : Option String) (shown : String)
  | transportError

/-- The answers from outside, in the order in which they are asked for. -/
structure Environment where
  faults : ℕ → Bool
  clock : ℕ → Datetime
  redis : ℕ → ℕ
  /-- Whether the circuit breaker is open, or the queue full. -/
  refusals : ℕ → Bool
  answers : ℕ → Answer

structure Settings where
  responseCacheEnabled : Bool
  responseCacheTtlSeconds : ℤ
  retryAttempts : ℕ

structure World where
  committed : Database
  /-- The session's view: the committed rows with its own changes. -/
  current : Database
  slots : Slots.BackendId → Option Slots.InferenceBackend
  /-- `none` stands for a text that is no id. -/
  queue : List (Option JobId)
  env : Environment

/-- The `detail` of an `HTTPException` of the proxy. -/
inductive Detail where
  | text (s : String)
  /-- The `dict` of `_backend_error_detail`. -/
  | rejected (backendStatusCode : ℕ) (backendResponse : String)
  deriving DecidableEq

/-- The exceptions that the handlers tell apart. -/
inductive Exc where
  | http (statusCode : ℕ) (detail : Detail)
  /-- An `HTTPException` whose detail `_chat_with_fallback` has replaced by a message and the routes' errors. -/
  | routesFailed (statusCode : ℕ) (message : String) (backendErrors : List BackendError)
  | rateLimitExceeded (message : String)
  | quotaExceeded (e : QuotaExceeded)
  | other

abbrev Prog := Program Exc World

namespace World

/-- The world with another view of the session. -/
def setCurrent (w : World) (f : Database → Database) : World := { w with current := f w.current }

def setEnv (w : World) (f : Environment → Environment) : World := { w with env := f w.env }

end World

open Program

/-! ## Asking the environment -/

def nextFault : Prog Bool :=
  modifyGet fun w => (w.env.faults 0, w.setEnv fun env => { env with faults := fun n => env.faults (n + 1) })

def utcNow : Prog Datetime :=
  modifyGet fun w => (w.env.clock 0, w.setEnv fun env => { env with clock := fun n => env.clock (n + 1) })

/-- The reply of Redis to `INCR`, or to `SET` with `nx=True` (zero for a key that exists). -/
def redisReply : Prog ℕ :=
  modifyGet fun w => (w.env.redis 0, w.setEnv fun env => { env with redis := fun n => env.redis (n + 1) })

def nextRefusal : Prog Bool :=
  modifyGet fun w => (w.env.refusals 0, w.setEnv fun env => { env with refusals := fun n => env.refusals (n + 1) })

def nextAnswer : Prog Answer :=
  modifyGet fun w => (w.env.answers 0, w.setEnv fun env => { env with answers := fun n => env.answers (n + 1) })

/-- An awaited call that may raise. -/
def await : Prog Unit := do
  let fault ← nextFault
  if fault then raise .other else pure ()

/-! ## The session -/

def beginSession : Prog Unit := modify fun w => { w with current := w.committed }

/-- `session.commit()`. If it raises, the database has committed or not. -/
def commit : Prog Unit := do
  let fault ← nextFault
  if fault then
    let committed ← nextFault
    if committed then modify fun w => { w with committed := w.current } else pure ()
    raise .other
  else modify fun w => { w with committed := w.current }

def changeUsage (f : UsageTables → UsageTables) : Prog Unit :=
  modify fun w => w.setCurrent fun db => { db with usage := f db.usage }

/-- `ensure_quota`. -/
def ensureQuota (clientId : ClientId) (dailyLimit monthlyLimit incomingTokens : ℤ) : Prog Unit := do
  let now ← utcNow
  await
  let verdict ← modifyGet fun w =>
    let (verdict, usage) := Usage.ensureQuota w.current.usage clientId now.date dailyLimit monthlyLimit incomingTokens
    (verdict, w.setCurrent fun db => { db with usage })
  match verdict with
  | .ok () => pure ()
  | .error e => raise (.quotaExceeded e)

/-- `record_usage`, each period behind the calls that load its rows. -/
def recordUsage (clientId : ClientId) (promptTokens completionTokens : ℤ) : Prog Unit := do
  let now ← utcNow
  await
  changeUsage fun usage => recordPeriod usage (periodKey clientId now.date .daily) promptTokens completionTokens
  await
  changeUsage fun usage => recordPeriod usage (periodKey clientId now.date .monthly) promptTokens completionTokens

/-- `log_request`. -/
def logRequest (row : RequestLog) : Prog Unit := do
  await
  modify fun w => w.setCurrent fun db => { db with requestLogs := db.requestLogs ++ [row] }

/-- `log_security_event`. -/
def logSecurityEvent (event : SecurityEvent) : Prog Unit := do
  await
  modify fun w => w.setCurrent fun db => { db with securityEvents := db.securityEvents ++ [event] }

/-! ## Redis counters -/

/-- `redis.incr(key)`, with the expiry of a new key. -/
def redisIncr : Prog ℕ := do
  await
  let count ← redisReply
  if count = 1 then await else pure ()
  pure count

/-- `enforce_ip_rate_limit`. -/
def enforceIpRateLimit (sourceIp : String) (limitPerMinute : ℤ) : Prog Unit := do
  let count ← redisIncr
  if (count : ℤ) > limitPerMinute then
    raise (.rateLimitExceeded ("IP address " ++ sourceIp ++ " exceeded " ++ toString limitPerMinute ++
      " requests per minute"))
  else pure ()

/-- `enforce_rate_limit`. -/
def enforceRateLimit (limitPerMinute : ℤ) : Prog Unit := do
  let count ← redisIncr
  if (count : ℤ) > limitPerMinute then
    raise (.rateLimitExceeded ("client exceeded " ++ toString limitPerMinute ++ " requests per minute"))
  else pure ()

/-- The end of the three functions below: an event is recorded once for each count. -/
def recordGated (event : SecurityEvent) : Prog Unit := do
  await
  let fresh ← redisReply
  if fresh = 0 then pure () else logSecurityEvent event

/-- `maybe_record_repeated_large_prompt`. -/
def maybeRecordRepeatedLargePrompt (clientId : ClientId) (promptTokens : ℤ) : Prog Unit := do
  if promptTokens < 2048 then pure ()
  else
    let seen ← redisIncr
    if seen ≥ 3 then
      recordGated ⟨"repeated_large_prompt", "medium", "Large prompt repeated multiple times", clientId⟩
    else pure ()

/-- `maybe_record_plan_usage_anomaly`; a limit of zero counts as unused. -/
def maybeRecordPlanUsageAnomaly (clientId : ClientId)
    (dailyLimit monthlyLimit incomingTokens dailyUsedBefore monthlyUsedBefore : ℤ) : Prog Unit := do
  let ratio (used limit : ℤ) : ℚ := if limit = 0 then 0 else (used + incomingTokens) / limit
  if max (ratio dailyUsedBefore dailyLimit) (ratio monthlyUsedBefore monthlyLimit) < 9 / 10 then pure ()
  else
    logSecurityEvent
      ⟨"usage_above_plan_pattern", "medium", "Usage pattern above expected plan threshold", clientId⟩

/-- `maybe_record_request_error_burst`. -/
def maybeRecordRequestErrorBurst (clientId : ClientId) (statusCode : ℕ) : Prog Unit := do
  if statusCode < 400 then pure ()
  else
    let total ← redisIncr
    if total ≥ 5 then
      recordGated ⟨"request_error_burst", if statusCode ≥ 500 then "high" else "medium",
        "Many request errors for client", clientId⟩
    else pure ()

/-! ## The exact cache -/

/-- A cached payload with its completion tokens. -/
structure CachedResponse where
  payload : String
  completionTokens : ℤ

/-- `lookup_exact_cache`, of which a hit with a payload is used: the stored text of `null` has none. -/
def lookupExactCache (settings : Settings) (key : CacheKey) : Prog (Option CachedResponse) := do
  if settings.responseCacheEnabled then
    let now ← utcNow
    await
    modifyGet fun w =>
      match w.current.responseCache.lookup key with
      | none => (none, w)
      | some row =>
        if row.isActive ∧ row.expiresAt > now.instant then
          (if row.responseJson = "null" then none else some ⟨row.responseJson, row.completionTokensEstimated⟩,
            w.setCurrent fun db => { db with
              responseCache := db.responseCache.insert key { row with hitCount := row.hitCount + 1 } })
        else (none, w)
  else pure none

/-- `store_exact_cache`. -/
def storeExactCache (settings : Settings) (key : CacheKey) (requestFingerprint responseJson : String)
    (promptTokens completionTokens : ℤ) : Prog Unit := do
  if settings.responseCacheEnabled then
    let now ← utcNow
    await
    modify fun w => w.setCurrent fun db => { db with
      responseCache := db.responseCache.insert key
        { requestFingerprint, responseJson, promptTokensEstimated := promptTokens,
          completionTokensEstimated := completionTokens,
          expiresAt := now.instant + settings.responseCacheTtlSeconds * 1000000, isActive := true
          hitCount := ((db.responseCache.lookup key).map (·.hitCount)).getD 0 } }
  else pure ()

/-! ## Estimates -/

/-- `estimate_tokens_from_text`. -/
def estimateTokensFromText (text : String) : ℤ :=
  if text = "" then 0 else max 1 ((Text.split text.toList).length * 13 / 10)

end LlmStore.Inference
