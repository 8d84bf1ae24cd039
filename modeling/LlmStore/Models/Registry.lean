import Mathlib.Data.Finset.Sort
import LlmStore.Core.Calendar
import LlmStore.Core.Http
import LlmStore.Core.Text

/-!
# The model registry and who may use a model

`services/model_policy.py`: the active models, the candidates to route a request to, and the choice of the requested
model. Of a backend, a route, a plan and a client only what this choice reads is kept.

A column `allowed_models_json` is taken as what `json.loads` makes of its text. A set of names with no element means
no restriction (`Admits`).
-/

namespace LlmStore.Models

open LlmStore.Calendar

/-! ## Allowed names -/

section Admits

variable {α : Type*} [DecidableEq α]

/-- `names` has an allowed one; the empty set allows everything. -/
def Admits (allowed names : Finset α) : Prop := allowed = ∅ ∨ (names ∩ allowed).Nonempty

instance (allowed names : Finset α) : Decidable (Admits allowed names) := by unfold Admits; infer_instance

/-- Two sets that agree on the names admit them alike, unless just one of them is empty. -/
theorem admits_congr {s t names : Finset α} (h : names ∩ s = names ∩ t) :
    (Admits s names ↔ Admits t names) ↔ (names ∩ s).Nonempty ∨ (s = ∅ ↔ t = ∅) := by
  unfold Admits
  rw [h]
  tauto

end Admits

/-! ## Rows -/

/-- What `json.loads` makes of `allowed_models_json`. Of the items of a list the code uses only what `str` makes of
them. -/
inductive AllowedModelsJson where
  /-- `NULL` or the empty text. -/
  | absent
  | malformed
  /-- A JSON value that is no list. -/
  | notList
  | items (strs : List String)
  deriving DecidableEq

/-- `str(item).strip()` is empty. -/
def isBlank (item : String) : Bool := Text.isBlank item.toList

/-- `_parse_allowed_models`. -/
def parseAllowedModels : AllowedModelsJson → Finset String
  | .absent | .malformed | .notList => ∅
  | .items strs => (strs.filter fun item => !isBlank item).toFinset

/-- The characters of `^[a-z0-9_-]+$`. -/
def isCodeChar (c : Char) : Bool := c.isLower || c.isDigit || c == '_' || c == '-'

/-- The codes that `BillingPlanCreate` accepts. -/
def PlanCode := { s : String // s.length ≤ 32 ∧ 2 ≤ s.length ∧ ∀ c ∈ s.toList, isCodeChar c = true }
  deriving DecidableEq

structure BillingPlan where
  code : PlanCode
  allowedModelsJson : AllowedModelsJson
  deriving DecidableEq

structure Client where
  allowedModelsJson : AllowedModelsJson
  billingPlan : Option BillingPlan

abbrev BackendId := ℕ

structure InferenceBackend where
  id : BackendId
  name : String
  provider : String
  isActive : Bool

/-- The states that `BackendRouteInput` accepts. -/
inductive RouteState where
  | healthy
  | degraded
  | unhealthy
  | disabled
  deriving DecidableEq

/-- `ROUTE_STATE_ORDER`. -/
def RouteState.order : RouteState → ℕ
  | .healthy => 0
  | .degraded => 1
  | .unhealthy => 2
  | .disabled => 3

structure ModelBackendRoute where
  inferenceBackend : Option InferenceBackend
  priority : ℤ
  weight : ℤ
  state : RouteState
  createdAt : Instant

structure ModelRegistry where
  modelId : String
  modelAlias : Option String
  isActive : Bool
  isDefault : Bool
  createdAt : Instant
  inferenceBackend : Option InferenceBackend
  backendRoutes : List ModelBackendRoute

/-- `model.model_alias or ""`. -/
def ModelRegistry.aliasOrEmpty (m : ModelRegistry) : String := m.modelAlias.getD ""

/-! ## Choosing a model -/

/-- `get_effective_allowed_models`. -/
def getEffectiveAllowedModels (client : Client) : Finset String :=
  let clientAllowed := parseAllowedModels client.allowedModelsJson
  if clientAllowed ≠ ∅ then clientAllowed
  else match client.billingPlan with
    | none => ∅
    | some plan => parseAllowedModels plan.allowedModelsJson

/-- `list_active_registry_models`. -/
def listActiveRegistryModels (registry : List ModelRegistry) : List ModelRegistry :=
  let rows := (registry.filter (·.isActive)).mergeSort fun a b =>
    if a.isDefault = b.isDefault then a.createdAt ≤ b.createdAt else a.isDefault
  rows.filter fun item => item.inferenceBackend.all (·.isActive)

/-- The sort key of `get_routing_candidates`, compared. -/
def ModelBackendRoute.before (a b : ModelBackendRoute) : Bool :=
  if a.state.order ≠ b.state.order then a.state.order < b.state.order
  else if a.priority ≠ b.priority then a.priority < b.priority
  else if a.weight ≠ b.weight then b.weight < a.weight
  else a.createdAt ≤ b.createdAt

/-- `get_routing_candidates`. -/
def getRoutingCandidates (model : ModelRegistry) : List ModelBackendRoute :=
  let routes := model.backendRoutes.filter fun item =>
    item.inferenceBackend.any (·.isActive) && item.state != .disabled
  match routes, model.inferenceBackend with
  | [], some backend =>
    if backend.isActive then
      -- not a row: it has no time of creation, and is never compared
      [{ inferenceBackend := some backend, priority := 1, weight := 100, state := .healthy, createdAt := 0 }]
    else []
  | routes, _ => routes.mergeSort ModelBackendRoute.before

/-- The access check of `resolve_requested_model`. -/
def accessCheck (client : Client) (selected : ModelRegistry) : Except HTTPException Unit :=
  let allowed := getEffectiveAllowedModels client
  if allowed ≠ ∅ ∧ selected.modelId ∉ allowed ∧ selected.aliasOrEmpty ∉ allowed then
    .error ⟨403, "requested model is not allowed for this client"⟩
  else .ok ()

/-- The first active model with the requested name, or the default model for `""` and `"default"`. -/
def selectModel (activeModels : List ModelRegistry) (requestedModel : String) : Option ModelRegistry :=
  match activeModels.find? fun item => item.modelId == requestedModel || item.modelAlias == some requestedModel with
  | some item => some item
  | none =>
    if requestedModel = "" ∨ requestedModel = "default" then
      (activeModels.find? (·.isDefault)).or activeModels.head?
    else none

/-- `resolve_requested_model`. -/
def resolveRequestedModel (registry : List ModelRegistry) (client : Client) (requestedModel : String) :
    Except HTTPException (ModelRegistry × String) :=
  let activeModels := listActiveRegistryModels registry
  if activeModels.isEmpty then .error ⟨503, "no active models configured"⟩
  else match selectModel activeModels requestedModel with
    | none => .error ⟨404, "requested model not found"⟩
    | some selected =>
      if (getRoutingCandidates selected).isEmpty then .error ⟨503, "model backend is not active"⟩
      else (accessCheck client selected).map fun _ => (selected, requestedModel)

/-! ## The access check in terms of the public names -/

/-- The names under which a model can be asked for. -/
def publicNames (model : ModelRegistry) : Finset String :=
  insert model.modelId (if model.aliasOrEmpty = "" then ∅ else {model.aliasOrEmpty})

theorem not_isBlank_of_mem {json : AllowedModelsJson} {name : String} (h : name ∈ parseAllowedModels json) :
    isBlank name = false := by
  cases json with
  | items strs => simpa using (List.mem_filter.mp (List.mem_toFinset.mp h)).2
  | absent => simp [parseAllowedModels] at h
  | malformed => simp [parseAllowedModels] at h
  | notList => simp [parseAllowedModels] at h

theorem empty_notMem_parseAllowedModels (json : AllowedModelsJson) : "" ∉ parseAllowedModels json := fun h =>
  absurd (not_isBlank_of_mem h) (by decide)

/-- Without an override of its own, a client has the models of its plan. -/
theorem getEffectiveAllowedModels_plan {client : Client} {plan : BillingPlan}
    (hc : parseAllowedModels client.allowedModelsJson = ∅) (hp : client.billingPlan = some plan) :
    getEffectiveAllowedModels client = parseAllowedModels plan.allowedModelsJson := by
  simp [getEffectiveAllowedModels, hc, hp]

/-- The access check asks whether the allowed names admit the model. -/
theorem accessCheck_iff {client : Client} {selected : ModelRegistry} {json : AllowedModelsJson}
    (h : getEffectiveAllowedModels client = parseAllowedModels json) :
    accessCheck client selected = .ok () ↔ Admits (parseAllowedModels json) (publicNames selected) := by
  have hblank := empty_notMem_parseAllowedModels json
  have hnames : (publicNames selected ∩ parseAllowedModels json).Nonempty ↔
      selected.modelId ∈ parseAllowedModels json ∨ selected.aliasOrEmpty ∈ parseAllowedModels json := by
    constructor
    · rintro ⟨name, hname⟩
      rw [Finset.mem_inter, publicNames, Finset.mem_insert] at hname
      rcases hname with ⟨rfl | halias, hmem⟩
      · exact .inl hmem
      · split_ifs at halias with he
        · simp at halias
        · rw [Finset.mem_singleton] at halias
          exact .inr (halias ▸ hmem)
    · rintro (hid | halias)
      · exact ⟨_, Finset.mem_inter.mpr ⟨Finset.mem_insert_self _ _, hid⟩⟩
      · have hne : selected.aliasOrEmpty ≠ "" := fun he => hblank (he ▸ halias)
        refine ⟨_, Finset.mem_inter.mpr ⟨Finset.mem_insert_of_mem ?_, halias⟩⟩
        rw [if_neg hne]
        exact Finset.mem_singleton_self _
  rw [accessCheck, h, Admits, hnames]
  split_ifs with hc
  · simp only [false_iff]
    tauto
  · simp only [true_iff]
    tauto

/-- A model that is selected and has a route is refused by its access check only. -/
theorem resolveRequestedModel_selected {registry : List ModelRegistry} {client : Client} {requestedModel : String}
    {selected : ModelRegistry} (hs : selectModel (listActiveRegistryModels registry) requestedModel = some selected)
    (hr : getRoutingCandidates selected ≠ []) :
    resolveRequestedModel registry client requestedModel =
      (accessCheck client selected).map fun _ => (selected, requestedModel) := by
  have hne : listActiveRegistryModels registry ≠ [] := by
    rintro he
    rw [he] at hs
    simp [selectModel] at hs
  simp [resolveRequestedModel, hs, hr, hne]

end LlmStore.Models
