import LlmStore.Models.Seeding

/-!
# Administering the registry

The handlers of `api/admin.py` that write models, routes and backends. A handler is refused or commits one new state
(`attempt`); a refused one leaves the registry as it is. Deletions get the models named in the request log, and the
Docker actions their outcome, from outside.

`create_model` and `patch_model` are cut at their search for duplicates: what comes before it, the search, and what
comes after it.
-/

namespace LlmStore.Models

open LlmStore.Calendar LlmStore.Lib

/-! ## Requests -/

/-- A name of at least one character, as the schemas require. -/
abbrev NonEmpty := { s : String // s ≠ "" }

structure BackendRouteInput where
  inferenceBackendId : BackendId
  priority : ℤ
  weight : ℤ
  state : RouteState

structure ModelRegistryCreate where
  displayName : Option String
  modelId : NonEmpty
  modelAlias : Option NonEmpty
  inferenceBackendId : Option BackendId
  provider : Provider
  modelFile : String
  contextLength : ℤ
  isActive : Bool
  isDefault : Bool
  status : String
  promptTemplate : Option String
  allowReasoning : Option Bool
  includeReasoningDefault : Option Bool
  allowedPlanCodes : Option (List String)
  createBackend : Option InferenceBackendCreate
  metadataJson : MetadataJson
  backendRoutes : List BackendRouteInput

/-- `none` for a field that is not set, `some none` for one that is `null`. -/
abbrev Patch (α : Type) := Option (Option α)

structure ModelRegistryPatch where
  displayName : Patch String := none
  modelAlias : Patch NonEmpty := none
  inferenceBackendId : Patch BackendId := none
  provider : Patch Provider := none
  modelFile : Patch String := none
  contextLength : Patch ℤ := none
  isDefault : Patch Bool := none
  isActive : Patch Bool := none
  status : Patch String := none
  promptTemplate : Patch String := none
  allowReasoning : Patch Bool := none
  includeReasoningDefault : Patch Bool := none
  allowedPlanCodes : Option (List String) := none
  metadataJson : Option MetadataJson := none
  backendRoutes : Option (List BackendRouteInput) := none

structure InferenceBackendPatch where
  name : Patch String := none
  provider : Patch Provider := none
  backendUrl : Patch String := none
  healthcheckPath : Patch String := none
  isActive : Patch Bool := none
  isDefault : Patch Bool := none
  status : Patch String := none
  maxParallelRequests : Patch ℤ := none
  metadataJson : Option MetadataJson := none

structure BackendRoutePatch where
  priority : Patch ℤ := none
  weight : Patch ℤ := none
  state : Patch RouteState := none

inductive DeleteMode where
  | auto
  | soft
  | hard
  | registerOnly
  deriving DecidableEq

structure ModelDeleteRequest where
  confirmRouteRemoval : Bool
  mode : DeleteMode

/-- `setattr` of a column that may be `NULL`. -/
def Patch.get {α : Type} (patch : Patch α) (old : Option α) : Option α := patch.getD old

/-- `setattr` of a column that is `NOT NULL`, and the flush. -/
def Patch.require {α : Type} (patch : Patch α) (old : α) : Except Failure α :=
  match patch with
  | none => .ok old
  | some none => .error .integrityError
  | some (some a) => .ok a

/-! ## Parts that handlers share -/

/-- One pass over the routes that `_sync_model_backend_routes` is given. -/
def syncRoute (now : Instant) (existing routes : Table BackendId RouteRow) (r : BackendRouteInput) :
    Table BackendId RouteRow :=
  let createdAt := ((existing.lookup r.inferenceBackendId).map (·.createdAt)).getD now
  routes.insert r.inferenceBackendId { priority := r.priority, weight := r.weight, state := r.state, createdAt }

/-- `_sync_model_backend_routes`. Two new routes for one backend meet the unique key. -/
def syncModelBackendRoutes (now : Instant) (backends : Table BackendId BackendRow)
    (existing : Table BackendId RouteRow) (routesPayload : List BackendRouteInput) :
    Except Failure (Table BackendId RouteRow) :=
  let added := (routesPayload.map (·.inferenceBackendId)).filter fun id => (existing.lookup id).isNone
  if ∃ r ∈ routesPayload, (backends.lookup r.inferenceBackendId).isNone then refuse 404 "backend not found"
  else if ¬ added.Nodup then .error .integrityError
  else .ok (routesPayload.foldl (syncRoute now existing) ∅)

/-- The existing routes as a payload. -/
def routesAsPayload (routes : Table BackendId RouteRow) : List BackendRouteInput :=
  routes.entries.map fun e =>
    { inferenceBackendId := e.1, priority := e.2.priority, weight := e.2.weight, state := e.2.state }

/-- `sync_allowed_plans`, with its `ValueError` as the handlers answer it. -/
def syncPlans (t : Tables) (m : ModelRow) (codes : Option (List String)) : Except Failure (List BillingPlan) :=
  match syncAllowedPlans t.plans (m.load t.backends) codes with
  | .ok plans => .ok plans
  | .error text => refuse 400 text

/-- `sanitize_model_filename` and `ensure_model_file_exists`, with their exceptions as the handlers answer them. -/
def checkModelFile (env : Env) (files : String → FileCheck) (filename : String) (provider : Option Provider) :
    Except Failure String :=
  match sanitizeModelFilename filename provider with
  | .error text => refuse 400 text
  | .ok file =>
    if provider = some .llamaCpp then
      match files file with
      | .present => .ok file
      | .outside => refuse 400 "model file must stay inside /models"
      | .missing => refuse 404 ("model file not found in " ++ env.modelsDir)
    else .ok file

/-- `session.get(ModelRegistry, model_id)` or 404. -/
def getModel (t : Tables) (pk : Uuid) : Except Failure ModelRow :=
  match t.models.lookup pk with
  | none => refuse 404 "model not found"
  | some m => .ok m

/-- `session.get(InferenceBackend, backend_id)` or 404. -/
def getBackend (t : Tables) (id : BackendId) : Except Failure BackendRow :=
  match t.backends.lookup id with
  | none => refuse 404 "backend not found"
  | some b => .ok b

/-- The search for a backend with the name. -/
def checkBackendName (t : Tables) (name : String) : Except Failure Unit := do
  match ← scalarOneOrNone (t.backends.select fun _ b => b.name = name) with
  | some _ => refuse 409 "backend name already exists"
  | none => return ()

def Tables.setModel (t : Tables) (pk : Uuid) (f : ModelRow → ModelRow) : Tables :=
  { t with models := t.models.modify pk f }

def Tables.setBackend (t : Tables) (id : BackendId) (f : BackendRow → BackendRow) : Tables :=
  { t with backends := t.backends.modify id f }

/-- `item.is_default = False` for all backends but one. -/
def clearBackendDefaults (keep : Option BackendId) (backends : Table BackendId BackendRow) :
    Table BackendId BackendRow :=
  backends.mapRows fun id b => if keep = some id then b else { b with isDefault := false }

/-! ## Models -/

section Models

variable (env : Env) (files : String → FileCheck)

/-- What `create_model` has at hand when it searches for duplicates. -/
structure CreateContext where
  tables : Tables
  backendId : Option BackendId
  modelFile : String

/-- The primary backend of a new model, and the backends with it. -/
def createModelBackend (payload : ModelRegistryCreate) (t : Tables) :
    Except Failure (Option BackendId × Table BackendId BackendRow) :=
  match payload.inferenceBackendId, payload.createBackend with
  | some _, some _ => refuse 409 "choose an existing backend or create a new one"
  | some id, none => do
    let _ ← getBackend t id
    return (some id, t.backends)
  | none, some new => do
    checkBackendName t new.name
    let id := env.backendIds.next t.backends.keys
    return (some id, t.backends.insert id (new.row env.now))
  | none, none => .ok (none, t.backends)

/-- `create_model` before its search for duplicates. -/
def createModelChecks (payload : ModelRegistryCreate) (t : Tables) : Except Failure CreateContext := do
  let (backendId, backends) ← createModelBackend env payload t
  let modelFile ← checkModelFile env files payload.modelFile (some payload.provider)
  return ⟨{ t with backends }, backendId, modelFile⟩

/-- The clauses of the search for duplicates. -/
def ModelRegistryCreate.duplicates (payload : ModelRegistryCreate) (m : ModelRow) : Bool :=
  m.modelId = payload.modelId.val || payload.modelAlias.any fun name => m.modelAlias = some name.val

/-- The search for duplicates of `create_model`. -/
def createModelSearch (payload : ModelRegistryCreate) (t : Tables) : Except Failure Unit := do
  match ← scalarOneOrNone (t.models.select fun _ m => payload.duplicates m) with
  | some _ => refuse 409 "model id or alias already exists"
  | none => return ()

/-- The row that `create_model` adds, with its routes. -/
def createModelRow (payload : ModelRegistryCreate) (c : CreateContext) (routes : Table BackendId RouteRow) :
    ModelRow :=
  let metadataJson := mergeMetadata payload.metadataJson
    [("display_name", payload.displayName.map fun s => .str s.toList),
      ("allow_reasoning", payload.allowReasoning.map .bool),
      ("include_reasoning_default", payload.includeReasoningDefault.map .bool)]
  let modelAlias := payload.modelAlias.map (·.val)
  { modelId := payload.modelId.val
    modelAlias
    inferenceBackendId := c.backendId
    provider := payload.provider
    modelFile := c.modelFile
    contextLength := payload.contextLength
    isActive := payload.isActive
    isDefault := payload.isDefault
    status := payload.status
    promptTemplate :=
      some (promptTemplateForPayload payload.promptTemplate payload.modelId.val c.modelFile modelAlias metadataJson)
    metadataJson
    createdAt := env.now
    backendRoutes := routes }

/-- `create_model` after its search for duplicates. -/
def createModelRest (payload : ModelRegistryCreate) (c : CreateContext) : Except Failure Tables := do
  let t := c.tables
  let models := if payload.isDefault then clearDefaults none t.models else t.models
  let routesPayload :=
    match payload.backendRoutes, c.backendId with
    | [], some id => [{ inferenceBackendId := id, priority := 1, weight := 100, state := .healthy }]
    | routes, _ => routes
  let routes ← syncModelBackendRoutes env.now t.backends ∅ routesPayload
  let row := createModelRow env payload c routes
  let plans ← syncPlans t row payload.allowedPlanCodes
  return { t with models := models.insert (env.uuids.next t.models.keys) row, plans }

/-- `create_model`. -/
def createModel (payload : ModelRegistryCreate) (t : Tables) : Except Failure Tables := do
  let c ← createModelChecks env files payload t
  createModelSearch payload c.tables
  createModelRest env payload c

/-- `patch_model` before its search for duplicates. -/
def patchModelChecks (pk : Uuid) (payload : ModelRegistryPatch) (t : Tables) : Except Failure ModelRow := do
  let model ← getModel t pk
  match payload.inferenceBackendId with
  | some (some id) =>
    let _ ← getBackend t id
    return model
  | _ => return model

/-- The search for duplicates of `patch_model`. -/
def patchModelSearch (pk : Uuid) (payload : ModelRegistryPatch) (t : Tables) : Except Failure Unit :=
  match payload.modelAlias with
  | some (some name) => do
    match ← scalarOneOrNone (t.models.select fun pk' m => m.modelAlias = some name.val && pk' != pk) with
    | some _ => refuse 409 "model alias already exists"
    | none => return ()
  | _ => return ()

/-- The routes of `patch_model`. -/
def patchModelRoutes (payload : ModelRegistryPatch) (t : Tables) (model : ModelRow) :
    Except Failure (Table BackendId RouteRow) :=
  match payload.backendRoutes, payload.inferenceBackendId with
  | some routes, _ => syncModelBackendRoutes env.now t.backends model.backendRoutes routes
  | none, some (some id) =>
    if (model.backendRoutes.lookup id).isSome then .ok model.backendRoutes
    else
      syncModelBackendRoutes env.now t.backends model.backendRoutes
        (routesAsPayload model.backendRoutes ++
          [{ inferenceBackendId := id, priority := 1, weight := 100, state := .healthy }])
  | none, _ => .ok model.backendRoutes

/-- The fields of the metadata that a patch sets. -/
def ModelRegistryPatch.metadataUpdates (payload : ModelRegistryPatch) : List (String × Option Json) :=
  (payload.displayName.map fun s => ("display_name", s.map fun s => .str s.toList)).toList ++
    (payload.allowReasoning.map fun b => ("allow_reasoning", b.map .bool)).toList ++
    (payload.includeReasoningDefault.map fun b => ("include_reasoning_default", b.map .bool)).toList

/-- The `model_file` that `patch_model` writes. -/
def patchModelFile (payload : ModelRegistryPatch) (model : ModelRow) : Except Failure String :=
  match payload.modelFile with
  | some file => checkModelFile env files (file.getD "") (payload.provider.getD (some model.provider))
  | none => .ok model.modelFile

/-- `patch_model` after its search for duplicates. -/
def patchModelRest (pk : Uuid) (payload : ModelRegistryPatch) (model : ModelRow) (t : Tables) :
    Except Failure Tables := do
  let models := if payload.isDefault = some (some true) then clearDefaults (some pk) t.models else t.models
  refuseIf (payload.isActive = some (some false) ∧ model.isDefault) 409 "default model cannot be disabled"
  let modelFile ← patchModelFile env files payload model
  let provider ← payload.provider.require model.provider
  let contextLength ← payload.contextLength.require model.contextLength
  let isDefault ← payload.isDefault.require model.isDefault
  let isActive ← payload.isActive.require model.isActive
  let status ← payload.status.require model.status
  let modelAlias := Patch.get (payload.modelAlias.map fun name => name.map (·.val)) model.modelAlias
  let metadataJson := payload.metadataJson.getD model.metadataJson
  let metadataJson :=
    if payload.metadataUpdates = [] then metadataJson else mergeMetadata metadataJson payload.metadataUpdates
  let promptTemplate := payload.promptTemplate.get model.promptTemplate
  let promptTemplate :=
    if payload.promptTemplate.isSome || payload.modelFile.isSome || payload.provider.isSome ||
        payload.modelAlias.isSome then
      some (promptTemplateForPayload promptTemplate model.modelId modelFile modelAlias metadataJson)
    else promptTemplate
  let routes ← patchModelRoutes env payload t model
  let row :=
    { model with
      modelAlias, provider, modelFile, contextLength, isDefault, isActive, status, promptTemplate, metadataJson
      inferenceBackendId := payload.inferenceBackendId.get model.inferenceBackendId
      backendRoutes := routes }
  let plans ← syncPlans t row payload.allowedPlanCodes
  return { t with models := models.modify pk fun _ => row, plans }

/-- `patch_model`. -/
def patchModel (pk : Uuid) (payload : ModelRegistryPatch) (t : Tables) : Except Failure Tables := do
  let model ← patchModelChecks pk payload t
  patchModelSearch pk payload t
  patchModelRest env files pk payload model t

/-- `set_default_model`. -/
def setDefaultModel (pk : Uuid) (t : Tables) : Except Failure Tables := do
  let _ ← getModel t pk
  let cleared := { t with models := clearDefaults (some pk) t.models }
  return cleared.setModel pk fun m => { m with isDefault := true, isActive := true }

/-- `enable_model`. -/
def enableModel (settings : Settings) (pk : Uuid) (t : Tables) : Except Failure Tables := do
  let model ← getModel t pk
  let bonsai := model.modelAlias = some "bonsai" || model.modelAlias = some "bonzai" ||
    contains "bonsai" (lower model.modelId.toList)
  let active := (model.inferenceBackendId.bind (loadBackend t.backends)).any (·.isActive)
  refuseIf (bonsai && !active && !settings.bonsaiEnabled) 409 "bonsai backend offline"
  return t.setModel pk fun m => { m with isActive := true, status := "configured" }

/-- `disable_model`. -/
def disableModel (pk : Uuid) (t : Tables) : Except Failure Tables := do
  let model ← getModel t pk
  refuseIf model.isDefault 409 "default model cannot be disabled"
  return t.setModel pk fun m => { m with isActive := false, status := "disabled" }

/-- `s[:n]`. -/
def truncate (n : ℕ) (s : String) : String := String.ofList (s.toList.take n)

/-- `archive_model_identity`; `deletedAt` is the text of the time. -/
def archiveModelIdentity (pk : Uuid) (deletedAt : String) (m : ModelRow) : ModelRow :=
  let metadata := parseMetadata m.metadataJson
  let metadata := Json.setItem "deleted_public_model_id" (.str m.modelId.toList) metadata
  let metadata := Json.setItem "deleted_public_model_alias"
    ((m.modelAlias.map fun s => Json.str s.toList).getD .null) metadata
  let metadata := Json.setItem "deleted_at" (.str deletedAt.toList) metadata
  { m with
    modelId := truncate 255 (m.modelId ++ "::deleted::" ++ pk.firstGroup)
    modelAlias :=
      m.modelAlias.map fun name => if name = "" then name else truncate 128 (name ++ "-deleted-" ++ pk.firstGroup)
    metadataJson := .value (.obj metadata)
    isActive := false
    isDefault := false
    status := "soft-deleted"
    inferenceBackendId := none
    backendRoutes := ∅ }

/-- `delete_model`; `log` are the models of the request log. A generation job that refers to the model keeps it from
being deleted. -/
def deleteModel (pk : Uuid) (payload : ModelDeleteRequest) (deletedAt : String) (log : List String) (hasJobs : Bool)
    (t : Tables) : Except Failure Tables := do
  let model ← getModel t pk
  refuseIf model.isDefault 409 "default model cannot be removed"
  refuseIf (model.backendRoutes.entries ≠ [] ∧ ¬ payload.confirmRouteRemoval) 409
    "model still has active backend routes; confirm route removal"
  let requestCount := log.countP fun name => name = model.modelId || name = model.modelAlias.getD ""
  refuseIf ((payload.mode = .hard ∨ payload.mode = .registerOnly) ∧ requestCount ≠ 0) 409
    "model has request history; use soft delete or disable it"
  if payload.mode = .soft ∨ payload.mode = .auto ∧ requestCount ≠ 0 then
    return t.setModel pk (archiveModelIdentity pk deletedAt)
  else if hasJobs then .error .integrityError
  else return { t with models := t.models.erase pk }

end Models

/-! ## Routes -/

section Routes

variable (env : Env)

/-- `create_model_route`. -/
def createModelRoute (pk : Uuid) (payload : BackendRouteInput) (t : Tables) : Except Failure Tables := do
  let model ← getModel t pk
  let _ ← getBackend t payload.inferenceBackendId
  refuseIf (model.backendRoutes.lookup payload.inferenceBackendId).isSome 409 "route already exists for this backend"
  let routes ← syncModelBackendRoutes env.now t.backends model.backendRoutes
    (routesAsPayload model.backendRoutes ++ [payload])
  return t.setModel pk fun m =>
    { m with
      backendRoutes := routes
      inferenceBackendId := m.inferenceBackendId.or (some payload.inferenceBackendId) }

/-- The route of a model to a backend or 404. -/
def getRoute (t : Tables) (pk : Uuid) (id : BackendId) : Except Failure RouteRow :=
  match (t.models.lookup pk).bind fun m => m.backendRoutes.lookup id with
  | none => refuse 404 "model backend route not found"
  | some route => .ok route

/-- `patch_model_backend_route`. -/
def patchModelBackendRoute (pk : Uuid) (id : BackendId) (payload : BackendRoutePatch) (t : Tables) :
    Except Failure Tables := do
  let route ← getRoute t pk id
  let priority ← payload.priority.require route.priority
  let weight ← payload.weight.require route.weight
  let state ← payload.state.require route.state
  return t.setModel pk fun m =>
    { m with backendRoutes := m.backendRoutes.modify id fun route => { route with priority, weight, state } }

/-- `delete_model_route`. -/
def deleteModelRoute (pk : Uuid) (id : BackendId) (t : Tables) : Except Failure Tables := do
  let _ ← getRoute t pk id
  return t.setModel pk fun m =>
    { m with
      backendRoutes := m.backendRoutes.erase id
      inferenceBackendId := if m.inferenceBackendId = some id then none else m.inferenceBackendId }

end Routes

/-! ## Backends -/

inductive BackendAction where
  | start
  | stop
  | restart
  deriving DecidableEq

section Backends

variable (env : Env)

/-- `create_backend`. -/
def createBackend (payload : InferenceBackendCreate) (t : Tables) : Except Failure Tables := do
  checkBackendName t payload.name
  let backends := if payload.isDefault then clearBackendDefaults none t.backends else t.backends
  return { t with backends := backends.insert (env.backendIds.next t.backends.keys) (payload.row env.now) }

/-- The search for the new name of a backend. -/
def checkNewBackendName (t : Tables) (backend : BackendRow) (payload : InferenceBackendPatch) : Except Failure Unit :=
  match payload.name with
  | some (some name) => if name ≠ backend.name then checkBackendName t name else .ok ()
  | _ => .ok ()

/-- `patch_backend`. -/
def patchBackend (id : BackendId) (payload : InferenceBackendPatch) (t : Tables) : Except Failure Tables := do
  let backend ← getBackend t id
  checkNewBackendName t backend payload
  let backends := if payload.isDefault = some (some true) then clearBackendDefaults (some id) t.backends else t.backends
  let name ← payload.name.require backend.name
  let provider ← payload.provider.require backend.provider
  let backendUrl ← payload.backendUrl.require backend.backendUrl
  let healthcheckPath ← payload.healthcheckPath.require backend.healthcheckPath
  let isActive ← payload.isActive.require backend.isActive
  let isDefault ← payload.isDefault.require backend.isDefault
  let status ← payload.status.require backend.status
  let maxParallelRequests ← payload.maxParallelRequests.require backend.maxParallelRequests
  let metadataJson := payload.metadataJson.getD backend.metadataJson
  return { t with
    backends := backends.modify id fun b =>
      { b with
        name, provider, backendUrl, healthcheckPath, isActive, isDefault, status, maxParallelRequests, metadataJson } }

/-- `_run_backend_action`; `docker` is how the checks and the command before the write end. -/
def runBackendAction (id : BackendId) (action : BackendAction) (docker : Except HTTPException Unit) (t : Tables) :
    Except Failure Tables := do
  let _ ← getBackend t id
  match docker with
  | .error e => .error (.http e)
  | .ok _ =>
    return t.setBackend id fun b =>
      { b with
        status := match action with
          | .start => "starting"
          | .stop => "stopped"
          | .restart => "restarting"
        isActive := action ≠ .stop }

end Backends

/-! ## Operations -/

inductive Operation where
  | createModel (files : String → FileCheck) (payload : ModelRegistryCreate)
  | patchModel (files : String → FileCheck) (pk : Uuid) (payload : ModelRegistryPatch)
  | setDefaultModel (pk : Uuid)
  | enableModel (pk : Uuid)
  | disableModel (pk : Uuid)
  | deleteModel (pk : Uuid) (payload : ModelDeleteRequest) (deletedAt : String) (log : List String) (hasJobs : Bool)
  | createModelRoute (pk : Uuid) (payload : BackendRouteInput)
  | patchModelBackendRoute (pk : Uuid) (id : BackendId) (payload : BackendRoutePatch)
  | deleteModelRoute (pk : Uuid) (id : BackendId)
  | createBackend (payload : InferenceBackendCreate)
  | patchBackend (id : BackendId) (payload : InferenceBackendPatch)
  | runBackendAction (id : BackendId) (action : BackendAction) (docker : Except HTTPException Unit)
  /-- `list_backends`, which commits `ensure_default_backends`. -/
  | listBackends
  /-- `ensure_default_model`, at a start or by `reload_models`. -/
  | ensureDefaultModel

section Operations

variable (settings : Settings)

/-- What an operation writes, before it commits. -/
def Operation.write (env : Env) : Operation → Tables → Except Failure Tables
  | .createModel files payload => Models.createModel env files payload
  | .patchModel files pk payload => Models.patchModel env files pk payload
  | .setDefaultModel pk => Models.setDefaultModel pk
  | .enableModel pk => Models.enableModel settings pk
  | .disableModel pk => Models.disableModel pk
  | .deleteModel pk payload deletedAt log hasJobs => Models.deleteModel pk payload deletedAt log hasJobs
  | .createModelRoute pk payload => Models.createModelRoute env pk payload
  | .patchModelBackendRoute pk id payload => Models.patchModelBackendRoute pk id payload
  | .deleteModelRoute pk id => Models.deleteModelRoute pk id
  | .createBackend payload => Models.createBackend env payload
  | .patchBackend id payload => Models.patchBackend id payload
  | .runBackendAction id action docker => Models.runBackendAction id action docker
  | .listBackends => fun t => .ok { t with backends := (ensureDefaultBackends env settings t.backends).2 }
  | .ensureDefaultModel => Models.ensureDefaultModel env settings

/-- An operation at a time, with the ids of the rows that it adds. -/
structure Step where
  env : Env
  operation : Operation

/-- The answer to an operation: an exception, or the registry that it commits. -/
def attempt (r : Registry) (s : Step) : Except Failure Registry :=
  s.operation.write settings s.env r.toTables >>= commit

/-- The states that an operation commits. -/
def registryCommits (r : Registry) (s : Step) : List Registry :=
  match attempt settings r s with
  | .ok r' => [r']
  | .error _ => []

end Operations

/-- A database without models. -/
def emptyRegistry (plans : List BillingPlan) : Registry where
  backends := ∅
  models := ∅
  plans
  constraints := by
    constructor <;> exact List.Pairwise.nil

end LlmStore.Models
