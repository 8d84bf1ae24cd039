import LlmStore.Core.Json
import LlmStore.Inference.Session

/-!
# Payloads and parameters

The payloads of `schemas/inference.py` and what is worked out from them before a request touches a counter:
`normalize_messages`, `estimate_prompt_tokens` and `validate_params`. Of the settings and of a client's and a plan's
columns only what these functions, the choice of the model and the limits read is kept.
-/

namespace LlmStore.Inference.Admission

open LlmStore.Usage LlmStore.Models

/-! ## Payloads -/

inductive Role where
  | system
  | user
  | assistant
  | tool
  deriving DecidableEq

def Role.value : Role → String
  | .system => "system"
  | .user => "user"
  | .assistant => "assistant"
  | .tool => "tool"

inductive SafetyProfile where
  | default
  | strict
  | relaxed
  deriving DecidableEq

def SafetyProfile.value : SafetyProfile → String
  | .default => "default"
  | .strict => "strict"
  | .relaxed => "relaxed"

inductive PartType where
  | text
  | imageUrl
  deriving DecidableEq

structure ChatContentPart where
  type : PartType
  text : Option String
  imageUrl : Option Json

inductive Content where
  | text (s : String)
  | parts (parts : List ChatContentPart)

structure ChatMessage where
  role : Role
  content : Content

/-- The parameters that chat and completion requests share, in the ranges that their schemas accept. -/
structure Sampling where
  temperature : Option PyFloat
  topP : Option PyFloat
  maxTokens : Option ℤ
  stream : Bool
  temperature_range : ∀ x ∈ temperature, (PyFloat.finite 0).le x ∧ x.le (.finite 2)
  topP_range : ∀ x ∈ topP, (PyFloat.finite 0).le x ∧ x.le (.finite 1)
  maxTokens_range : ∀ n ∈ maxTokens, 1 ≤ n ∧ n ≤ 1000000

structure ChatCompletionRequest extends Sampling where
  model : String
  messages : List ChatMessage
  safetyProfile : SafetyProfile
  includeReasoning : Bool
  model_length : 1 ≤ model.length ∧ model.length ≤ 255
  messages_length : messages.length ≤ 128
  /-- `ensure_non_empty_user_content`. -/
  user_message : ∃ message ∈ messages, message.role = .user

structure CompletionRequest extends Sampling where
  model : String
  prompt : String
  model_length : 1 ≤ model.length ∧ model.length ≤ 255
  prompt_length : 1 ≤ prompt.length ∧ prompt.length ≤ 20000

structure PortalTestChatRequest where
  prompt : String
  model : Option String
  maxTokens : Option ℤ
  prompt_length : 1 ≤ prompt.length ∧ prompt.length ≤ 20000
  model_length : ∀ name ∈ model, 1 ≤ name.length ∧ name.length ≤ 255
  maxTokens_range : ∀ n ∈ maxTokens, 1 ≤ n ∧ n ≤ 32768

/-! ## Clients and settings -/

structure BillingPlan extends Models.BillingPlan where
  rateLimitPerMinute : ℤ
  dailyTokenQuota : ℤ
  monthlyTokenQuota : ℤ
  maxOutputTokens : ℤ
  allowStreaming : Bool

/-- What `json.loads` makes of `metadata_json`. -/
inductive MetadataJson where
  /-- `NULL` or the empty text. -/
  | absent
  | malformed
  | value (v : Json)

structure Client where
  id : ClientId
  allowedModelsJson : AllowedModelsJson
  billingPlan : Option BillingPlan
  rateLimitPerMinute : ℤ
  dailyTokenQuota : ℤ
  monthlyTokenQuota : ℤ
  maxContextTokens : ℤ
  maxOutputTokens : ℤ
  systemPrompt : Option String
  metadataJson : MetadataJson

/-- What the choice of the model reads of a client. -/
def Client.toModels (client : Client) : Models.Client :=
  ⟨client.allowedModelsJson, client.billingPlan.map (·.toBillingPlan)⟩

structure Settings where
  defaultMaxTokens : ℤ
  maxCompletionTokens : ℤ
  defaultTemperature : PyFloat
  maxTemperature : PyFloat
  defaultTopP : PyFloat
  maxTopP : PyFloat

structure EffectivePlan where
  rateLimitPerMinute : ℤ
  dailyTokenQuota : ℤ
  monthlyTokenQuota : ℤ
  maxOutputTokens : ℤ
  allowStreaming : Bool

/-- `resolve_effective_plan`. -/
def resolveEffectivePlan (client : Client) : EffectivePlan :=
  match client.billingPlan with
  | some plan =>
    ⟨plan.rateLimitPerMinute, plan.dailyTokenQuota, plan.monthlyTokenQuota, plan.maxOutputTokens, plan.allowStreaming⟩
  | none => ⟨client.rateLimitPerMinute, client.dailyTokenQuota, client.monthlyTokenQuota, client.maxOutputTokens, true⟩

/-! ## Failures -/

/-- How a handler ends without an answer: an `HTTPException`, or an exception that none of the code expects. -/
inductive Failure where
  | http (e : HTTPException)
  | pyError (e : PyError)
  | nameError (name : String)
  deriving DecidableEq

/-- `if refused: raise HTTPException(...)`. -/
def refuseIf (refused : Bool) (statusCode : ℕ) (detail : String) : Except Failure Unit :=
  if refused then .error (.http ⟨statusCode, detail⟩) else .ok ()

/-- An operation on a JSON value, with the exception it raises. -/
def ofPython {α : Type} (x : Except PyError α) : Except Failure α := x.mapError .pyError

/-! ## Messages -/

/-- A message whose content is a text. -/
structure Message where
  role : Role
  content : String
  deriving DecidableEq

/-- The text of content parts that are all texts. -/
def joinParts : List ChatContentPart → Except Failure (List String)
  | [] => .ok []
  | part :: parts =>
    match part.type with
    | .text => (joinParts parts).map ((part.text.getD "") :: ·)
    | .imageUrl => .error (.http ⟨422, "image_url is not supported yet. Only text content parts are allowed."⟩)

/-- The body of the loop of `normalize_messages`. -/
def normalizeMessage (message : ChatMessage) : Except Failure Message :=
  match message.content with
  | .text s => .ok ⟨message.role, s⟩
  | .parts parts => (joinParts parts).map fun texts => ⟨message.role, "\n".intercalate texts⟩

/-- `normalize_messages`. -/
def normalizeMessages (messages : List ChatMessage) : Except Failure (List Message) := messages.mapM normalizeMessage

/-- `estimate_prompt_tokens(messages=messages)`. -/
def estimatePromptTokens (messages : List Message) : ℤ :=
  (messages.map fun message => estimateTokensFromText message.content + 4).sum

/-! ## Parameters -/

/-- `client_defaults`. -/
def MetadataJson.clientDefaults : MetadataJson → Json
  | .absent | .malformed => .obj []
  | .value v => v

/-- The parameters that `validate_params` returns. A default of the client goes through as it is, a boolean too. -/
structure Parameters where
  maxTokens : Json
  temperature : Json
  topP : Json

/-- The value asked for, or the client's default, or the one of the settings; `None` counts as absent. -/
def givenOrDefault (given : Option PyFloat) (clientDefaults : Json) (key : String) (fallback : PyFloat) :
    Except PyError Json :=
  match given with
  | some x => .ok (.float x)
  | none => (clientDefaults.get key .null).map fun value =>
    match value with
    | .null => .float fallback
    | value => value

/-- `payload.max_tokens or client_defaults.get("max_tokens") or settings.default_max_tokens`; a number of tokens that is
asked for is not zero. -/
def requestedMaxTokens (given : Option ℤ) (clientDefaults : Json) (fallback : ℤ) : Except PyError Json :=
  match given with
  | some n => .ok (.int n)
  | none => (clientDefaults.get "max_tokens" .null).map fun value => if value.truthy then value else .int fallback

/-- `validate_params`. -/
def validateParams (settings : Settings) (client : Client) (payload : Sampling) :
    Except Failure (Parameters × EffectivePlan) := do
  let effectivePlan := resolveEffectivePlan client
  let clientDefaults := client.metadataJson.clientDefaults
  let maxTokens ← ofPython (requestedMaxTokens payload.maxTokens clientDefaults settings.defaultMaxTokens)
  let limit := min effectivePlan.maxOutputTokens settings.maxCompletionTokens
  refuseIf (← ofPython (maxTokens.exceeds (.finite limit))) 400
    ("max_tokens exceeds allowed limit (" ++ toString limit ++ ") for this client")
  let temperature ← ofPython
    (givenOrDefault payload.temperature clientDefaults "temperature" settings.defaultTemperature)
  let topP ← ofPython (givenOrDefault payload.topP clientDefaults "top_p" settings.defaultTopP)
  refuseIf (payload.stream && !effectivePlan.allowStreaming) 403 "streaming is not allowed for this billing plan"
  refuseIf (← ofPython (temperature.exceeds settings.maxTemperature)) 422 "temperature exceeds configured maximum"
  refuseIf (← ofPython (topP.exceeds settings.maxTopP)) 422 "top_p exceeds configured maximum"
  pure (⟨maxTokens, temperature, topP⟩, effectivePlan)

end LlmStore.Inference.Admission
