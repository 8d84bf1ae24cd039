import LlmStore.Inference.Parameters

/-!
# Admission at the four entry points

`chat_completions`, `completions`, `prepare_async_chat_job` and `portal_test_chat` up to the first call that no limit
decides, with all that they have worked out by then. The Redis counters and the quota counters are the state of a
request; a refused one leaves behind what it has counted.

The four are copies of one sequence of checks that have drifted apart, and one of them calls a function by a name that
is not bound: it fails for each request that gets that far (`one_rule_iff`).
-/

namespace LlmStore.Inference.Admission

open LlmStore.Calendar LlmStore.Lib LlmStore.Usage LlmStore.Models Program

/-! ## Counters -/

/-- The keys of the rate-limit counters, one for each minute. -/
inductive RateKey where
  | ip (sourceIp : String) (minute : ℕ)
  | client (clientId : ClientId) (minute : ℕ)
  deriving DecidableEq

structure Counters where
  redis : RateKey → ℕ
  usage : UsageTables

/-- What the clock says during a request. -/
structure Now where
  minute : ℕ
  today : Date

/-- The configuration, the rows and the hash of `_hash_json` that a request finds. -/
structure Context where
  settings : Settings
  registry : List ModelRegistry
  client : Client
  hashJson : Json → String

abbrev Handler := Program Failure Counters

/-- A computation that touches no counter. -/
def ofExcept {α : Type} (x : Except Failure α) : Handler α := ⟨fun s => (x, s)⟩

/-- `redis.incr(key)`. -/
def incr (key : RateKey) : Handler ℕ :=
  modifyGet fun s => (s.redis key + 1, { s with redis := Function.update s.redis key (s.redis key + 1) })

/-- `enforce_ip_rate_limit`; the handlers turn its exception into a response. -/
def enforceIpRateLimit (now : Now) (sourceIp : String) (limitPerMinute : ℤ) : Handler Unit := do
  let current ← incr (.ip sourceIp now.minute)
  ofExcept (refuseIf (current > limitPerMinute) 429
    ("IP address " ++ sourceIp ++ " exceeded " ++ toString limitPerMinute ++ " requests per minute"))

/-- `enforce_rate_limit`, likewise. -/
def enforceRateLimit (now : Now) (clientId : ClientId) (limitPerMinute : ℤ) : Handler Unit := do
  let current ← incr (.client clientId now.minute)
  ofExcept (refuseIf (current > limitPerMinute) 429
    ("client exceeded " ++ toString limitPerMinute ++ " requests per minute"))

/-- The verdict on a number of tokens that is not finite: one that is above all others exceeds every limit, and one that
is below or beside them none. -/
def overrule (incomingTokens : PyFloat) (verdict : Except QuotaExceeded Unit) : Except QuotaExceeded Unit :=
  match incomingTokens with
  | .posInf => .error .daily
  | .negInf | .nan => .ok ()
  | .finite _ | .negZero => verdict

/-- `ensure_quota`, likewise. Counters and limits are integers: with a fraction of a token, as a client's default may
have it, a sum exceeds a limit just if it does so with the tokens rounded up. -/
def ensureQuota (now : Now) (clientId : ClientId) (plan : EffectivePlan) (incomingTokens : PyFloat) : Handler Unit := do
  let verdict ← modifyGet fun s =>
    let (verdict, usage) := Usage.ensureQuota s.usage clientId now.today plan.dailyTokenQuota plan.monthlyTokenQuota
      ⌈incomingTokens.value?.getD 0⌉
    (overrule incomingTokens verdict, { s with usage })
  ofExcept (verdict.mapError fun e => .http ⟨429, e.message⟩)

/-! ## Bodies and cache keys -/

def optional (value : Option PyFloat) : Json := value.elim .null .float

def PartType.value : PartType → String
  | .text => "text"
  | .imageUrl => "image_url"

def ChatContentPart.modelDump (part : ChatContentPart) : Json :=
  .obj [("type", .str part.type.value.toList), ("text", part.text.elim .null fun s => .str s.toList),
    ("image_url", part.imageUrl.getD .null)]

def Content.modelDump : Content → Json
  | .text s => .str s.toList
  | .parts items => .arr (items.map (·.modelDump))

def ChatMessage.modelDump (message : ChatMessage) : Json :=
  .obj [("role", .str message.role.value.toList), ("content", message.content.modelDump)]

/-- `payload.model_dump()`. -/
def ChatCompletionRequest.modelDump (payload : ChatCompletionRequest) : List (String × Json) :=
  [("model", .str payload.model.toList), ("messages", .arr (payload.messages.map (·.modelDump))),
    ("temperature", optional payload.temperature), ("top_p", optional payload.topP),
    ("max_tokens", payload.maxTokens.elim .null .int), ("stream", .bool payload.stream),
    ("safety_profile", .str payload.safetyProfile.value.toList), ("include_reasoning", .bool payload.includeReasoning)]

def Message.modelDump (message : Message) : Json :=
  .obj [("role", .str message.role.value.toList), ("content", .str message.content.toList)]

/-- The parameters that go into a request body and into its cache key. -/
def Parameters.assign (p : Parameters) (body : List (String × Json)) : List (String × Json) :=
  Json.setItem "top_p" p.topP (Json.setItem "temperature" p.temperature (Json.setItem "max_tokens" p.maxTokens body))

/-- `build_chat_cache_key`: the hash and the fingerprint. -/
def buildChatCacheKey (hashJson : Json → String) (model : String) (messages : List Json)
    (temperature topP maxTokens : Json) (includeReasoning : Bool) : String × String :=
  (hashJson (.obj [("cache_schema_version", .int 2), ("kind", .str "chat".toList), ("model", .str model.toList),
    ("messages", .arr messages), ("temperature", temperature), ("top_p", topP), ("max_tokens", maxTokens),
    ("include_reasoning", .bool includeReasoning)]), "chat:" ++ model ++ ":" ++ toString messages.length)

/-- What a handler asks the backends, under which key it looks for an answer in the cache, and the tokens that it
reserves and charges for the prompt. -/
structure Question where
  body : List (String × Json)
  includeReasoning : Bool
  cacheKey : String × String
  promptTokens : ℤ

/-! ## The handlers -/

/-- `f"{system_prompt}\n\n{content}"`. -/
def underSystemPrompt (systemPrompt content : String) : String := systemPrompt ++ "\n\n" ++ content

/-- `if client.system_prompt:`, and what `chat_completions` makes of the messages. -/
def withSystemPrompt (systemPrompt : Option String) (messages : List Message) : List Message :=
  match systemPrompt.filter (· ≠ "") with
  | none => messages
  | some prompt =>
    match messages.findIdx? (·.role = .system) with
    | some i => messages.modify i fun message => { message with content := underSystemPrompt prompt message.content }
    | none => ⟨.system, prompt⟩ :: messages

/-- `min(value, bound)`. -/
def atMost (value : Json) (bound : PyFloat) : Json := if value.float?.any (bound.lt ·) then .float bound else value

/-- `max(value, bound)`. -/
def atLeast (value : Json) (bound : PyFloat) : Json := if value.float?.any (·.lt bound) then .float bound else value

/-- The safety profile's hold on temperature and top_p. -/
def SafetyProfile.clamp (profile : SafetyProfile) (p : Parameters) : Parameters :=
  match profile with
  | .default => p
  | .strict =>
    { p with temperature := atMost p.temperature (.finite (1 / 2)), topP := atMost p.topP (.finite (4 / 5)) }
  | .relaxed =>
    { p with temperature := atLeast p.temperature (.finite 1), topP := atLeast p.topP (.finite (9 / 10)) }

section Handlers

variable (ctx : Context) (now : Now)

def checkContext (promptTokens : ℤ) : Except Failure Unit :=
  refuseIf (promptTokens > ctx.client.maxContextTokens) 413 "prompt exceeds client context limit"

def resolve (requestedModel : String) : Except Failure ModelRegistry :=
  ((resolveRequestedModel ctx.registry ctx.client.toModels requestedModel).map (·.1)).mapError .http

/-- The limits that all handlers ask. -/
def enforceClientLimits (plan : EffectivePlan) (promptTokens : ℤ) (p : Parameters) : Handler Unit := do
  enforceRateLimit now ctx.client.id plan.rateLimitPerMinute
  ensureQuota now ctx.client.id plan ((p.maxTokens.float?.getD (.finite 0)).plusInt promptTokens)

/-- What `chat_completions` makes of an admitted request. -/
def chatQuestion (hashJson : Json → String) (payload : ChatCompletionRequest) (modelId : String)
    (messages : List Message) (p : Parameters) : Question :=
  let body := Json.exclude ["include_reasoning", "safety_profile"] payload.modelDump
  let body := Json.setItem "messages" (.arr (messages.map (·.modelDump))) body
  let body := Json.setItem "model" (.str modelId.toList) body
  let clamped := payload.safetyProfile.clamp p
  { body := clamped.assign body
    includeReasoning := payload.includeReasoning
    cacheKey := buildChatCacheKey hashJson modelId (messages.map (·.modelDump)) clamped.temperature clamped.topP
      clamped.maxTokens payload.includeReasoning
    promptTokens := estimatePromptTokens messages }

/-- `chat_completions`. -/
def chatCompletions (sourceIp : String) (payload : ChatCompletionRequest) : Handler Question := do
  let selectedModel ← ofExcept (resolve ctx payload.model)
  let messages ← ofExcept (normalizeMessages payload.messages)
  ofExcept (checkContext ctx (estimatePromptTokens messages))
  let (p, effectivePlan) ← ofExcept (validateParams ctx.settings ctx.client payload.toSampling)
  let messages := withSystemPrompt ctx.client.systemPrompt messages
  ofExcept (checkContext ctx (estimatePromptTokens messages))
  enforceIpRateLimit now sourceIp 60
  enforceClientLimits ctx now effectivePlan (estimatePromptTokens messages) p
  pure (chatQuestion ctx.hashJson payload selectedModel.modelId messages p)

/-- `completions`. The name `_validated_params` is bound nowhere in its module, so nothing after the call is reached. -/
def completions (payload : CompletionRequest) : Handler Question := do
  let _ ← ofExcept (resolve ctx payload.model)
  ofExcept (checkContext ctx (estimateTokensFromText payload.prompt))
  raise (.nameError "_validated_params")

structure PreparedAsyncChatJob where
  selectedModelId : String
  requestBody : List (String × Json)
  promptTokens : ℤ

/-- What `prepare_async_chat_job` makes of an admitted request. -/
def preparedJob (payload : ChatCompletionRequest) (modelId : String) (messages : List Message) (p : Parameters) :
    PreparedAsyncChatJob :=
  let body := Json.exclude ["include_reasoning"] payload.modelDump
  let body := Json.setItem "messages" (.arr (messages.map (·.modelDump))) body
  let body := Json.setItem "model" (.str modelId.toList) body
  { selectedModelId := modelId
    requestBody := Json.setItem "include_reasoning" (.bool payload.includeReasoning) (p.assign body)
    promptTokens := estimatePromptTokens messages }

/-- `prepare_async_chat_job`. -/
def prepareAsyncChatJob (payload : ChatCompletionRequest) : Handler PreparedAsyncChatJob := do
  ofExcept (refuseIf payload.stream 422 "stream is not supported for async jobs")
  let selectedModel ← ofExcept (resolve ctx payload.model)
  let messages ← ofExcept (normalizeMessages payload.messages)
  ofExcept (checkContext ctx (estimatePromptTokens messages))
  let (p, effectivePlan) ← ofExcept (validateParams ctx.settings ctx.client payload.toSampling)
  enforceClientLimits ctx now effectivePlan (estimatePromptTokens messages) p
  pure (preparedJob payload selectedModel.modelId messages p)

/-- Of a job, what its processing asks the backends. `requestJson` is what `json.loads` makes of the column. -/
structure GenerationJob where
  resolvedModel : String
  requestJson : List (String × Json)
  promptTokensEstimated : ℤ

def PreparedAsyncChatJob.job (prepared : PreparedAsyncChatJob) : GenerationJob :=
  ⟨prepared.selectedModelId, prepared.requestBody, prepared.promptTokens⟩

/-- `create_chat_generation_job`, which `chat_completions_async` runs. -/
def createChatGenerationJob (payload : ChatCompletionRequest) : Handler GenerationJob := do
  let prepared ← prepareAsyncChatJob ctx now payload
  pure prepared.job

/-- The `ChatCompletionRequest` that `portal_test_chat` makes of its payload. -/
def PortalTestChatRequest.chatPayload (payload : PortalTestChatRequest) : ChatCompletionRequest where
  model := payload.model.getD "default"
  messages := [⟨.user, .text payload.prompt⟩]
  temperature := none
  topP := none
  maxTokens := payload.maxTokens
  stream := false
  safetyProfile := .default
  includeReasoning := false
  temperature_range := by simp
  topP_range := by simp
  maxTokens_range n hn := ⟨(payload.maxTokens_range n hn).1, (payload.maxTokens_range n hn).2.trans (by norm_num)⟩
  model_length := by
    rcases h : payload.model with _ | name
    · decide
    · exact payload.model_length name h
  messages_length := by simp
  user_message := ⟨_, List.mem_singleton_self _, rfl⟩

/-- `portal_test_chat`. -/
def portalTestChat (payload : PortalTestChatRequest) : Handler Question := do
  let chatPayload := payload.chatPayload
  let selectedModel ← ofExcept (resolve ctx chatPayload.model)
  let messages : List Message := [⟨.user, payload.prompt⟩]
  let promptTokens := estimatePromptTokens messages
  ofExcept (checkContext ctx promptTokens)
  let (p, effectivePlan) ← ofExcept (validateParams ctx.settings ctx.client chatPayload.toSampling)
  enforceClientLimits ctx now effectivePlan promptTokens p
  let body := Json.exclude ["include_reasoning"] chatPayload.modelDump
  let body := Json.setItem "model" (.str selectedModel.modelId.toList) body
  pure
    { body := p.assign body
      includeReasoning := false
      cacheKey := buildChatCacheKey ctx.hashJson selectedModel.modelId (messages.map (·.modelDump)) p.temperature p.topP
        p.maxTokens false
      promptTokens }

end Handlers

/-! ## Outcomes -/

@[simp] theorem exec_ofExcept_bind {α β : Type} (x : Except Failure α) (f : α → Handler β) (s : Counters) :
    (ofExcept x >>= f).exec s = match x with
      | .ok a => (f a).exec s
      | .error e => (.error e, s) := by
  cases x <;> rfl

theorem of_ofExcept_bind {α β : Type} {x : Except Failure α} {f : α → Handler β} {s : Counters} {b : β}
    (h : ((ofExcept x >>= f).exec s).1 = .ok b) : ∃ a, x = .ok a ∧ ((f a).exec s).1 = .ok b := by
  cases x with
  | ok a => exact ⟨a, rfl, h⟩
  | error e => cases h

/-- A handler has admitted the request, or how it has failed. -/
def outcome {α : Type} (handler : Handler α) (s : Counters) : Except Failure Unit := (handler.exec s).1.map fun _ => ()

/-- All admit, or all reject with one status. -/
def OneRule (outcomes : List (Except Failure Unit)) : Prop :=
  (∀ o ∈ outcomes, o = .ok ()) ∨
    ∃ statusCode, ∀ o ∈ outcomes, ∃ detail, o = .error (.http ⟨statusCode, detail⟩)

/-- One request, put to each of the entry points: the same model, estimate and parameters, and no streaming. Of the
parameters, the portal's payload has only `max_tokens`. -/
structure SameRequest (chat async : ChatCompletionRequest) (completion : CompletionRequest)
    (portal : PortalTestChatRequest) (promptTokens : ℤ) : Prop where
  model : async.model = chat.model ∧ completion.model = chat.model ∧ portal.chatPayload.model = chat.model
  chat_estimate : ∃ messages, normalizeMessages chat.messages = .ok messages ∧
    estimatePromptTokens messages = promptTokens
  async_estimate : ∃ messages, normalizeMessages async.messages = .ok messages ∧
    estimatePromptTokens messages = promptTokens
  completion_estimate : estimateTokensFromText completion.prompt = promptTokens
  portal_estimate : estimatePromptTokens [⟨.user, portal.prompt⟩] = promptTokens
  sampling : async.toSampling = chat.toSampling ∧ completion.toSampling = chat.toSampling ∧
    portal.maxTokens = chat.maxTokens
  not_stream : chat.stream = false

/-- What becomes of one request at the four entry points, from the same counters. -/
def outcomes (ctx : Context) (now : Now) (sourceIp : String) (chat async : ChatCompletionRequest)
    (completion : CompletionRequest) (portal : PortalTestChatRequest) (s : Counters) : List (Except Failure Unit) :=
  [outcome (chatCompletions ctx now sourceIp chat) s, outcome (completions ctx completion) s,
    outcome (createChatGenerationJob ctx now async) s, outcome (portalTestChat ctx now portal) s]

section OneRule

variable {ctx : Context} {now : Now} {sourceIp : String} {s : Counters} {chat async : ChatCompletionRequest}
  {completion : CompletionRequest} {portal : PortalTestChatRequest} {promptTokens : ℤ}

theorem checkContext_eq (ctx : Context) (promptTokens : ℤ) :
    checkContext ctx promptTokens = if promptTokens > ctx.client.maxContextTokens then
      .error (.http ⟨413, "prompt exceeds client context limit"⟩) else .ok () := by
  simp [checkContext, refuseIf]

theorem not_async_stream (h : SameRequest chat async completion portal promptTokens) : async.stream = false := by
  rw [h.sampling.1]
  exact h.not_stream

/-- A model that is refused is refused by all. -/
theorem outcomes_of_unresolved (h : SameRequest chat async completion portal promptTokens) {e : Failure}
    (hr : resolve ctx chat.model = .error e) :
    ∀ o ∈ outcomes ctx now sourceIp chat async completion portal s, o = .error e := by
  obtain ⟨hasync, hcompletion, hportal⟩ := h.model
  have hstream := not_async_stream h
  intro o ho
  simp only [outcomes, List.mem_cons, List.not_mem_nil, or_false] at ho
  rcases ho with rfl | rfl | rfl | rfl
  · simp [outcome, chatCompletions, hr, Except.map]
  · simp [outcome, completions, hcompletion, hr, Except.map]
  · have hp : (prepareAsyncChatJob ctx now async).exec s = (.error e, s) := by
      simp [prepareAsyncChatJob, hstream, refuseIf, hasync, hr]
    rw [outcome, createChatGenerationJob, exec_bind_error hp]
    rfl
  · simp [outcome, portalTestChat, hportal, hr, Except.map]

/-- A prompt over the client's context limit is refused by all. -/
theorem outcomes_of_long (h : SameRequest chat async completion portal promptTokens) {model : ModelRegistry}
    (hr : resolve ctx chat.model = .ok model) (hl : promptTokens > ctx.client.maxContextTokens) :
    ∀ o ∈ outcomes ctx now sourceIp chat async completion portal s,
      o = .error (.http ⟨413, "prompt exceeds client context limit"⟩) := by
  obtain ⟨hasync, hcompletion, hportal⟩ := h.model
  obtain ⟨messages, hm, he⟩ := h.chat_estimate
  obtain ⟨messages', hm', he'⟩ := h.async_estimate
  have hstream := not_async_stream h
  have hc := (checkContext_eq ctx promptTokens).trans (if_pos hl)
  intro o ho
  simp only [outcomes, List.mem_cons, List.not_mem_nil, or_false] at ho
  rcases ho with rfl | rfl | rfl | rfl
  · simp [outcome, chatCompletions, hr, hm, he, hc, Except.map]
  · simp [outcome, completions, hcompletion, hr, h.completion_estimate, hc, Except.map]
  · have hp : (prepareAsyncChatJob ctx now async).exec s =
        (.error (.http ⟨413, "prompt exceeds client context limit"⟩), s) := by
      simp [prepareAsyncChatJob, hstream, refuseIf, hasync, hr, hm', he', hc]
    rw [outcome, createChatGenerationJob, exec_bind_error hp]
    rfl
  · simp [outcome, portalTestChat, hportal, hr, h.portal_estimate, hc, Except.map]

theorem outcome_bind_pure {α β : Type} (x : Handler α) (f : α → β) (s : Counters) :
    outcome (x >>= fun a => pure (f a)) s = outcome x s := by
  unfold outcome
  rcases hr : x.exec s with ⟨e | a, t⟩
  · rw [exec_bind_error hr]
    rfl
  · rw [exec_bind_ok hr]
    rfl

/-- The async path and the portal ask the same limits in the same order. -/
theorem outcome_async_eq_portal (h : SameRequest chat async completion portal promptTokens)
    (hp : portal.chatPayload.toSampling = chat.toSampling) :
    outcome (createChatGenerationJob ctx now async) s = outcome (portalTestChat ctx now portal) s := by
  obtain ⟨hasync, -, hportal⟩ := h.model
  obtain ⟨messages, hm, he⟩ := h.async_estimate
  rw [createChatGenerationJob, outcome_bind_pure]
  simp only [outcome, prepareAsyncChatJob, portalTestChat, exec_ofExcept_bind, refuseIf, hasync, hportal, hm, he,
    h.portal_estimate, h.sampling.1, hp, h.not_stream, Bool.false_eq_true, if_false]
  rcases resolve ctx chat.model with e | model
  · rfl
  rcases checkContext ctx promptTokens with e | -
  · rfl
  rcases validateParams ctx.settings ctx.client chat.toSampling with e | ⟨p, plan⟩
  · rfl
  show outcome (enforceClientLimits ctx now plan promptTokens p >>= fun _ => pure _) s =
    outcome (enforceClientLimits ctx now plan promptTokens p >>= fun _ => pure _) s
  rw [outcome_bind_pure, outcome_bind_pure]

/-- A completion request that gets past the context limit ends in an exception that is no `HTTPException`. -/
theorem outcome_completions (s : Counters) {model : ModelRegistry} (hr : resolve ctx completion.model = .ok model)
    (hs : estimateTokensFromText completion.prompt ≤ ctx.client.maxContextTokens) :
    outcome (completions ctx completion) s = .error (.nameError "_validated_params") := by
  have hc := (checkContext_eq ctx (estimateTokensFromText completion.prompt)).trans (if_neg hs.not_gt)
  simp only [outcome, completions, exec_ofExcept_bind, hr, hc]
  rfl

end OneRule

/-- **The entry points agree about a request just if its model is refused or its prompt is too long.** -/
theorem one_rule_iff (ctx : Context) (now : Now) (sourceIp : String) (s : Counters)
    {chat async : ChatCompletionRequest} {completion : CompletionRequest} {portal : PortalTestChatRequest}
    {promptTokens : ℤ} (h : SameRequest chat async completion portal promptTokens) :
    OneRule (outcomes ctx now sourceIp chat async completion portal s) ↔
      (∃ e, resolveRequestedModel ctx.registry ctx.client.toModels chat.model = .error e) ∨
        promptTokens > ctx.client.maxContextTokens := by
  rcases hr : resolveRequestedModel ctx.registry ctx.client.toModels chat.model with exc | ⟨model, name⟩
  · have hres : resolve ctx chat.model = .error (.http exc) := by simp [resolve, hr, Except.map, Except.mapError]
    refine iff_of_true (.inr ⟨exc.statusCode, fun o ho => ⟨exc.detail, ?_⟩⟩) (.inl ⟨exc, rfl⟩)
    exact outcomes_of_unresolved h hres o ho
  · have hres : resolve ctx chat.model = .ok model := by simp [resolve, hr, Except.map, Except.mapError]
    by_cases hl : promptTokens > ctx.client.maxContextTokens
    · refine iff_of_true (.inr ⟨413, fun o ho => ⟨"prompt exceeds client context limit", ?_⟩⟩) (.inr hl)
      exact outcomes_of_long h hres hl o ho
    · refine iff_of_false ?_ (by simp [hl])
      have hcrash := outcome_completions s (h.model.2.1.symm ▸ hres)
        (h.completion_estimate.trans_le (not_lt.mp hl))
      have hmem : outcome (completions ctx completion) s ∈
          outcomes ctx now sourceIp chat async completion portal s := by simp [outcomes]
      rw [hcrash] at hmem
      rintro (hall | ⟨statusCode, hall⟩)
      · cases hall _ hmem
      · obtain ⟨detail, hd⟩ := hall _ hmem
        cases hd

/-! ## A request that only completions fail -/

def onlyModel : ModelRegistry :=
  { modelId := "qwen", modelAlias := none, isActive := true, isDefault := true, createdAt := 0,
    inferenceBackend := some ⟨1, "gpu", "llama.cpp", true⟩, backendRoutes := [] }

def demoClient : Client :=
  { id := 1, allowedModelsJson := .absent, billingPlan := none, rateLimitPerMinute := 5, dailyTokenQuota := 20000,
    monthlyTokenQuota := 300000, maxContextTokens := 32768, maxOutputTokens := 2048,
    systemPrompt := some "Be brief.", metadataJson := .absent }

def defaultSettings : Settings :=
  { defaultMaxTokens := 512, maxCompletionTokens := 2048, defaultTemperature := .finite (7 / 10),
    maxTemperature := .finite (3 / 2), defaultTopP := .finite (95 / 100), maxTopP := .finite 1 }

def demoContext : Context := ⟨defaultSettings, [onlyModel], demoClient, fun _ => ""⟩

def noCounters : Counters := ⟨fun _ => 0, ⟨∅, ∅⟩⟩

def demoNow : Now := ⟨0, { year := 2027, month := 7, day := 14 }⟩

def demoSampling : Sampling where
  temperature := none
  topP := none
  maxTokens := some 128
  stream := false
  temperature_range := by simp
  topP_range := by simp
  maxTokens_range := by simp

def helloChat : ChatCompletionRequest :=
  { demoSampling with
    model := "qwen", messages := [⟨.user, .text "hello"⟩], safetyProfile := .default, includeReasoning := false
    model_length := by decide, messages_length := by simp, user_message := ⟨_, List.mem_singleton_self _, rfl⟩ }

def helloCompletion : CompletionRequest :=
  { demoSampling with model := "qwen", prompt := "say hello to me", model_length := by decide, prompt_length := by decide }

def helloPortal : PortalTestChatRequest where
  prompt := "hello"
  model := some "qwen"
  maxTokens := some 128
  prompt_length := by decide
  model_length := by simp; decide
  maxTokens_range := by simp

theorem same_hello : SameRequest helloChat helloChat helloCompletion helloPortal 5 where
  model := ⟨rfl, rfl, rfl⟩
  chat_estimate := ⟨[⟨.user, "hello"⟩], rfl, by decide⟩
  async_estimate := ⟨[⟨.user, "hello"⟩], rfl, by decide⟩
  completion_estimate := by decide
  portal_estimate := by decide
  sampling := ⟨rfl, rfl, rfl⟩
  not_stream := rfl

theorem resolve_demo : resolve demoContext "qwen" = .ok onlyModel := by
  have hs : selectModel (listActiveRegistryModels [onlyModel]) "qwen" = some onlyModel := by
    simp [listActiveRegistryModels, selectModel, onlyModel]
  have hr : getRoutingCandidates onlyModel ≠ [] := by simp [getRoutingCandidates, onlyModel]
  rw [resolve, demoContext, resolveRequestedModel_selected hs hr]
  rfl

theorem one_rule_iff_hello :
    OneRule (outcomes demoContext demoNow "10.0.0.1" helloChat helloChat helloCompletion helloPortal
      noCounters) ↔
      (∃ e, resolveRequestedModel demoContext.registry demoContext.client.toModels helloChat.model = .error e) ∨
        5 > demoContext.client.maxContextTokens :=
  one_rule_iff demoContext demoNow "10.0.0.1" noCounters same_hello

theorem validate_hello : validateParams demoContext.settings demoContext.client helloChat.toSampling =
    .ok (⟨.int 128, .float (.finite (7 / 10)), .float (.finite (95 / 100))⟩, resolveEffectivePlan demoClient) := by
  norm_num [validateParams, demoContext, demoClient, defaultSettings, helloChat, demoSampling, requestedMaxTokens,
    givenOrDefault, ofPython, refuseIf, Json.exceeds, Json.float?, Json.get, MetadataJson.clientDefaults,
    resolveEffectivePlan, Except.map, Except.mapError, bind, Except.bind, pure, Except.pure]

theorem chat_admits_hello :
    outcome (chatCompletions demoContext demoNow "10.0.0.1" helloChat) noCounters = .ok () := by
  have hm : normalizeMessages helloChat.messages = .ok [⟨.user, "hello"⟩] := rfl
  have hc : checkContext demoContext (estimatePromptTokens [⟨.user, "hello"⟩]) = .ok () := by rfl
  have hr : resolve demoContext helloChat.model = .ok onlyModel := resolve_demo
  have hs : withSystemPrompt demoContext.client.systemPrompt [⟨.user, "hello"⟩] =
      [⟨.system, "Be brief."⟩, ⟨.user, "hello"⟩] := rfl
  have hc' : checkContext demoContext (estimatePromptTokens [⟨.system, "Be brief."⟩, ⟨.user, "hello"⟩]) = .ok () := by
    rfl
  have hq : ((Json.int 128).float?.getD (.finite 0)).plusInt
      (estimatePromptTokens [⟨.system, "Be brief."⟩, ⟨.user, "hello"⟩]) = .finite (139 : ℤ) := by
    have he : estimatePromptTokens [⟨.system, "Be brief."⟩, ⟨.user, "hello"⟩] = 11 := by decide
    norm_num [he, Json.float?, PyFloat.plusInt]
  simp only [outcome, chatCompletions, exec_ofExcept_bind, hr, hm, hc, validate_hello, hs, hc',
    enforceClientLimits, ensureQuota, hq, PyFloat.value?, Option.getD_some, Int.ceil_intCast]
  rfl

/-- **Chat admits the request and completions fail it**, with an exception that is no `HTTPException`. -/
theorem completions_crash :
    outcome (chatCompletions demoContext demoNow "10.0.0.1" helloChat) noCounters = .ok () ∧
      outcome (completions demoContext helloCompletion) noCounters = .error (.nameError "_validated_params") ∧
        ¬ OneRule (outcomes demoContext demoNow "10.0.0.1" helloChat helloChat helloCompletion helloPortal
          noCounters) := by
  have hcrash : outcome (completions demoContext helloCompletion) noCounters =
      .error (.nameError "_validated_params") :=
    outcome_completions noCounters resolve_demo (by decide)
  refine ⟨chat_admits_hello, hcrash, ?_⟩
  rintro (hall | ⟨statusCode, hall⟩)
  · have := (hall _ (by simp [outcomes])).symm.trans hcrash
    cases this
  · obtain ⟨detail, hd⟩ := hall _ (List.mem_cons_of_mem _ List.mem_cons_self)
    cases hd.symm.trans hcrash

end LlmStore.Inference.Admission
