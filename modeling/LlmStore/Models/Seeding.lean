import LlmStore.Models.Prompting

/-!
# Seeding the registry

`ensure_default_backends` and `ensure_default_model`, which run at every start and on `/models/reload`. Four backends
and three models are looked up, the backends by name and the models by id or alias, and made or brought back to their
settings.

`EntryStep` says what the search for one model and its write do, for a model that is found and for one that is made.
-/

namespace LlmStore.Models

open LlmStore.Calendar LlmStore.Lib

/-- What seeding reads of the settings. -/
structure Settings where
  modelId : String
  modelFile : String
  bonsaiModelId : String
  bonsaiModelFile : String
  bonsaiEnabled : Bool
  maxContextTokens : ℤ
  dataPlaneBaseUrl : String
  bonsaiBaseUrl : String
  ollamaBaseUrl : String

/-! ## Backends -/

/-- The columns of a backend that a payload gives, `InferenceBackendCreate` or one of `ensure_default_backends`. -/
structure InferenceBackendCreate where
  name : String
  provider : Provider
  backendUrl : String
  healthcheckPath : String
  isActive : Bool
  isDefault : Bool
  status : String
  maxParallelRequests : ℤ
  metadataJson : MetadataJson

/-- `InferenceBackend(**payload)`. -/
def InferenceBackendCreate.row (payload : InferenceBackendCreate) (now : Instant) : BackendRow :=
  { name := payload.name
    provider := payload.provider
    backendUrl := payload.backendUrl
    healthcheckPath := payload.healthcheckPath
    isActive := payload.isActive
    isDefault := payload.isDefault
    status := payload.status
    maxParallelRequests := payload.maxParallelRequests
    metadataJson := payload.metadataJson
    createdAt := now }

/-- The loop over the payload of a backend that is there; `ollama-local` keeps two columns. -/
def InferenceBackendCreate.update (payload : InferenceBackendCreate) (b : BackendRow) : BackendRow :=
  let row := payload.row b.createdAt
  if payload.name = "ollama-local" then { row with isActive := b.isActive, status := b.status } else row

def serviceMetadata (serviceName : String) (testBackend : Option Bool) : MetadataJson :=
  .value (.obj (("service_name", .str serviceName.toList) ::
    (testBackend.map fun b => ("test_backend", Json.bool b)).toList))

section Settings

variable (settings : Settings)

def gemmaBackend : InferenceBackendCreate where
  name := "gemma-local"
  provider := .llamaCpp
  backendUrl := settings.dataPlaneBaseUrl
  healthcheckPath := "/health"
  isActive := true
  isDefault := true
  status := "configured"
  maxParallelRequests := 1
  metadataJson := serviceMetadata "data-plane-gemma" none

def bonsaiBackend : InferenceBackendCreate where
  name := "bonsai-local"
  provider := .llamaCpp
  backendUrl := settings.bonsaiBaseUrl
  healthcheckPath := "/health"
  isActive := settings.bonsaiEnabled
  isDefault := false
  status := if settings.bonsaiEnabled then "configured" else "optional-disabled"
  maxParallelRequests := 1
  metadataJson := serviceMetadata "data-plane-bonsai" (some false)

def ollamaBackend : InferenceBackendCreate where
  name := "ollama-local"
  provider := .ollama
  backendUrl := settings.ollamaBaseUrl
  healthcheckPath := "/api/tags"
  isActive := false
  isDefault := false
  status := "optional"
  maxParallelRequests := 1
  metadataJson := serviceMetadata "data-plane-ollama" none

def fallbackBackend : InferenceBackendCreate where
  name := "fallback-local"
  provider := .llamaCpp
  backendUrl := "http://data-plane-mock:8081"
  healthcheckPath := "/health"
  isActive := false
  isDefault := false
  status := "test-disabled"
  maxParallelRequests := 8
  metadataJson := serviceMetadata "data-plane-mock" (some true)

end Settings

/-- `existing.get(name)`. -/
def backendNamed (name : String) (backends : Table BackendId BackendRow) : Option BackendId :=
  (backends.entries.find? fun e => e.2.name = name).map (·.1)

/-- One pass of the loop of `ensure_default_backends`, with the id of the backend. -/
def ensureBackend (env : Env) (payload : InferenceBackendCreate) (backends : Table BackendId BackendRow) :
    BackendId × Table BackendId BackendRow :=
  match backendNamed payload.name backends with
  | some id => (id, backends.modify id payload.update)
  | none =>
    let id := env.backendIds.next backends.keys
    (id, backends.insert id (payload.row env.now))

/-- The backends that the seeded models refer to. -/
structure SeededBackends where
  gemma : BackendId
  bonsai : BackendId
  fallback : BackendId

/-- `ensure_default_backends`. Its last loop gives each of the four the `is_default` of its payload once more. -/
def ensureDefaultBackends (env : Env) (settings : Settings) (backends : Table BackendId BackendRow) :
    SeededBackends × Table BackendId BackendRow :=
  let gemma := ensureBackend env (gemmaBackend settings) backends
  let bonsai := ensureBackend env (bonsaiBackend settings) gemma.2
  let ollama := ensureBackend env (ollamaBackend settings) bonsai.2
  let fallback := ensureBackend env fallbackBackend ollama.2
  (⟨gemma.1, bonsai.1, fallback.1⟩, fallback.2)

/-! ## Routes -/

/-- The body that `_ensure_default_route` and `_ensure_fallback_route` share. -/
def ensureRoute (now : Instant) (priority : ℤ) (backendId : BackendId) (backendActive : Bool)
    (routes : Table BackendId RouteRow) : Table BackendId RouteRow :=
  match routes.lookup backendId with
  | none =>
    routes.insert backendId
      { priority, weight := 100, state := if backendActive then .healthy else .disabled, createdAt := now }
  | some _ =>
    routes.modify backendId fun route =>
      { route with
        priority
        weight := 100
        state :=
          if !backendActive then .disabled else if route.state = .disabled then .healthy else route.state }

/-- `_ensure_default_route`. -/
def ensureDefaultRoute (now : Instant) := ensureRoute now 1

/-- `_ensure_fallback_route`. -/
def ensureFallbackRoute (now : Instant) := ensureRoute now 2

/-! ## Models -/

/-- `_build_metadata`. -/
def buildMetadata (recommendedQuantization gpuProfile backendName architecture : String) : MetadataJson :=
  .value (.obj
    [("recommended_quantization", .str recommendedQuantization.toList), ("gpu_profile", .str gpuProfile.toList),
      ("backend", .str "llama.cpp".toList), ("backend_name", .str backendName.toList),
      ("architecture", .str architecture.toList)])

/-- The arguments of `_ensure_model_entry`. -/
structure ModelEntry where
  modelId : String
  modelAlias : String
  modelFile : String
  backend : BackendId
  /-- `backend.is_active`. -/
  backendActive : Bool
  isDefault : Bool
  isActive : Bool
  metadata : MetadataJson

/-- The model is found by the search for the entry. -/
def ModelEntry.matches (e : ModelEntry) (m : ModelRow) : Bool :=
  m.modelId = e.modelId || m.modelAlias = some e.modelAlias

section Entries

variable (env : Env) (settings : Settings)

/-- The columns that `_ensure_model_entry` writes. What it compares the metadata with at its end it has just written. -/
def ModelEntry.write (e : ModelEntry) (m : ModelRow) : ModelRow :=
  { m with
    modelAlias := some e.modelAlias
    inferenceBackendId := some e.backend
    provider := .llamaCpp
    modelFile := e.modelFile
    contextLength := settings.maxContextTokens
    isActive := e.isActive
    isDefault := e.isDefault
    status := if e.isActive then "configured" else "optional-disabled"
    promptTemplate := detectPromptTemplate e.modelId e.modelFile (some e.modelAlias) e.metadata
    metadataJson := e.metadata
    backendRoutes := ensureDefaultRoute env.now e.backend e.backendActive m.backendRoutes }

/-- A new model, before its columns are written. -/
def ModelEntry.blank (e : ModelEntry) : ModelRow :=
  { modelId := e.modelId
    modelAlias := none
    inferenceBackendId := none
    provider := .llamaCpp
    modelFile := e.modelFile
    contextLength := settings.maxContextTokens
    isActive := e.isActive
    isDefault := e.isDefault
    status := "configured"
    promptTemplate := none
    metadataJson := .absent
    createdAt := env.now
    backendRoutes := ∅ }

/-- `_ensure_model_entry`, with the id of the model. -/
def ensureModelEntry (e : ModelEntry) (models : Table Uuid ModelRow) : Except Failure (Uuid × Table Uuid ModelRow) := do
  match ← scalarOneOrNone (models.select fun _ m => e.matches m) with
  | none =>
    let pk := env.uuids.next models.keys
    return (pk, models.insert pk (e.write env settings (e.blank env settings)))
  | some found => return (found.1, models.modify found.1 (e.write env settings))

/-- The backend with this id is active. -/
def isActiveBackend (backends : Table BackendId BackendRow) (id : BackendId) : Bool :=
  (backends.lookup id).any (·.isActive)

def gemmaEntry (backends : Table BackendId BackendRow) (id : BackendId) : ModelEntry where
  modelId := settings.modelId
  modelAlias := "gemma"
  modelFile := settings.modelFile
  backend := id
  backendActive := isActiveBackend backends id
  isDefault := true
  isActive := true
  metadata := buildMetadata "Q4_K_M" "RTX 4050 6GB" "gemma-local" "gemma"

def bonsaiEntry (backends : Table BackendId BackendRow) (id : BackendId) : ModelEntry where
  modelId := settings.bonsaiModelId
  modelAlias := "bonsai"
  modelFile := settings.bonsaiModelFile
  backend := id
  backendActive := isActiveBackend backends id
  isDefault := false
  isActive := isActiveBackend backends id
  metadata := buildMetadata "Q4_K_M" "RTX 4050 6GB" "bonsai-local" "qwen3"

/-- The entry for the common misspelling. -/
def bonzaiEntry (backends : Table BackendId BackendRow) (id : BackendId) : ModelEntry :=
  { bonsaiEntry settings backends id with
    modelId := settings.bonsaiModelId ++ "/alias-bonzai"
    modelAlias := "bonzai" }

/-- `item.is_default = False` for all models but one. -/
def clearDefaults (keep : Option Uuid) (models : Table Uuid ModelRow) : Table Uuid ModelRow :=
  models.mapRows fun pk m => if keep = some pk then m else { m with isDefault := false }

/-- `ensure_default_model`. -/
def ensureDefaultModel (t : Tables) : Except Failure Tables := do
  let (ids, backends) := ensureDefaultBackends env settings t.backends
  let (gemma, models) ← ensureModelEntry env settings (gemmaEntry settings backends ids.gemma) t.models
  let models := models.modify gemma fun m =>
    { m with
      backendRoutes :=
        ensureFallbackRoute env.now ids.fallback (isActiveBackend backends ids.fallback) m.backendRoutes }
  let (_, models) ← ensureModelEntry env settings (bonsaiEntry settings backends ids.bonsai) models
  let (_, models) ← ensureModelEntry env settings (bonzaiEntry settings backends ids.bonsai) models
  return { t with backends, models := clearDefaults (some gemma) models }

end Entries

/-! ## One entry -/

section EntryStep

variable {env : Env} {settings : Settings} {e : ModelEntry} {models models' : Table Uuid ModelRow} {pk : Uuid}
  {base : ModelRow}

/-- The search for `e` and the write: `base` is the model that is found or, if there is none, a blank one. -/
structure EntryStep (env : Env) (settings : Settings) (e : ModelEntry) (models : Table Uuid ModelRow) (pk : Uuid)
    (base : ModelRow) (models' : Table Uuid ModelRow) : Prop where
  origin : models.lookup pk = some base ∨ models.lookup pk = none ∧ base = e.blank env settings
  found : e.matches base = true
  only : ∀ k m, models.lookup k = some m → e.matches m = true → k = pk
  self : models'.lookup pk = some (e.write env settings base)
  other : ∀ k, k ≠ pk → models'.lookup k = models.lookup k

theorem matches_blank (env : Env) (settings : Settings) (e : ModelEntry) : e.matches (e.blank env settings) = true := by
  simp [ModelEntry.matches, ModelEntry.blank]

/-- What `_ensure_model_entry` does. -/
theorem entryStep_of_ok (h : ensureModelEntry env settings e models = .ok (pk, models')) :
    ∃ base, EntryStep env settings e models pk base models' := by
  obtain ⟨found, hfound, hwrite⟩ := bind_eq_ok_iff.mp h
  cases found with
  | none =>
    cases hwrite
    have hnone := scalarOneOrNone_none_iff.mp hfound
    have hfresh : models.lookup (env.uuids.next models.keys) = none := by
      rw [AList.lookup_eq_none, AList.mem_keys]
      exact env.uuids.fresh models.keys
    refine ⟨e.blank env settings, .inr ⟨hfresh, rfl⟩, matches_blank env settings e, ?_, ?_, ?_⟩
    · intro k m hk hm
      rw [hnone k m hk] at hm
      cases hm
    · exact AList.lookup_insert models
    · exact fun k hk => AList.lookup_insert_ne hk
  | some found =>
    obtain ⟨k, m⟩ := found
    cases hwrite
    obtain ⟨hk, hm, honly⟩ := scalarOneOrNone_some_iff.mp hfound
    refine ⟨m, .inl hk, hm, honly, ?_, fun k' hk' => Table.lookup_modify_ne hk' _ _⟩
    rw [Table.lookup_modify_self, hk]
    rfl

/-- The search fails only if it finds two models. -/
theorem ensureModelEntry_isOk
    (h : ∀ k k' m m', models.lookup k = some m → models.lookup k' = some m' → e.matches m = true →
      e.matches m' = true → k = k') :
    ∃ pk models', ensureModelEntry env settings e models = .ok (pk, models') := by
  unfold ensureModelEntry
  cases hs : scalarOneOrNone (models.select fun _ m => e.matches m) with
  | error x =>
    obtain ⟨-, k, k', m, m', hne, hk, hk', hm, hm'⟩ := scalarOneOrNone_error_iff.mp hs
    exact absurd (h k k' m m' hk hk' hm hm') hne
  | ok found => cases found <;> exact ⟨_, _, rfl⟩

/-- The only model that is found is changed in its place. -/
theorem ensureModelEntry_found {m : ModelRow} (hpk : models.lookup pk = some m) (hm : e.matches m = true)
    (honly : ∀ k m', models.lookup k = some m' → e.matches m' = true → k = pk) :
    ensureModelEntry env settings e models = .ok (pk, models.modify pk (e.write env settings)) := by
  have hs := scalarOneOrNone_some_iff (p := fun _ m => e.matches m).mpr ⟨hpk, hm, honly⟩
  rw [ensureModelEntry, hs]
  rfl

theorem ModelEntry.matches_iff {m : ModelRow} :
    e.matches m = true ↔ m.modelId = e.modelId ∨ m.modelAlias = some e.modelAlias := by
  simp [ModelEntry.matches]

/-- An entry keeps the unique columns. -/
theorem EntryStep.unique (h : EntryStep env settings e models pk base models')
    (hids : models.UniqueBy fun m => some m.modelId) (haliases : models.UniqueBy ModelRow.modelAlias) :
    models'.UniqueBy (fun m => some m.modelId) ∧ models'.UniqueBy ModelRow.modelAlias := by
  constructor
  · refine hids.set h.self h.other fun k m name hk hm hname hname' => hk ?_
    have hid : m.modelId = base.modelId := Option.some.inj (hname'.trans hname.symm)
    rcases h.origin with hbase | ⟨-, rfl⟩
    · exact Table.uniqueBy_iff.mp hids k pk m base _ hm hbase rfl (congrArg some hid.symm)
    · exact h.only k m hm (ModelEntry.matches_iff.mpr (.inl hid))
  · refine haliases.set h.self h.other fun k m name hk hm hname hname' => hk ?_
    obtain rfl := Option.some.inj hname
    exact h.only k m hm (ModelEntry.matches_iff.mpr (.inr hname'))

end EntryStep

/-! ## All entries -/

section Ensured

variable (env : Env) (settings : Settings)

/-- The three entries, in their order. -/
def seedEntries (t : Tables) : ModelEntry × ModelEntry × ModelEntry :=
  let (ids, backends) := ensureDefaultBackends env settings t.backends
  (gemmaEntry settings backends ids.gemma, bonsaiEntry settings backends ids.bonsai,
    bonzaiEntry settings backends ids.bonsai)

/-- The fallback route of the first model. -/
def addFallback (t : Tables) (gemma : Uuid) (models : Table Uuid ModelRow) : Table Uuid ModelRow :=
  let (ids, backends) := ensureDefaultBackends env settings t.backends
  models.modify gemma fun m =>
    { m with
      backendRoutes :=
        ensureFallbackRoute env.now ids.fallback (isActiveBackend backends ids.fallback) m.backendRoutes }

/-- The models between the entries, when `ensure_default_model` leads from `t` to `t'`. -/
structure Ensured (t t' : Tables) : Prop where
  steps : ∃ gemma bonsai bonzai m₁ m₂ m₃ models₁ models₂ models₃,
    EntryStep env settings (seedEntries env settings t).1 t.models gemma m₁ models₁ ∧
    EntryStep env settings (seedEntries env settings t).2.1 (addFallback env settings t gemma models₁) bonsai m₂
      models₂ ∧
    EntryStep env settings (seedEntries env settings t).2.2 models₂ bonzai m₃ models₃ ∧
    t'.models = clearDefaults (some gemma) models₃
  backends : t'.backends = (ensureDefaultBackends env settings t.backends).2
  plans : t'.plans = t.plans

theorem ensured_of_ok {t t' : Tables} (h : ensureDefaultModel env settings t = .ok t') :
    Ensured env settings t t' := by
  obtain ⟨⟨gemma, models₁⟩, h₁, h⟩ := bind_eq_ok_iff.mp h
  obtain ⟨⟨bonsai, models₂⟩, h₂, h⟩ := bind_eq_ok_iff.mp h
  obtain ⟨⟨bonzai, models₃⟩, h₃, h⟩ := bind_eq_ok_iff.mp h
  cases h
  obtain ⟨m₁, hs₁⟩ := entryStep_of_ok h₁
  obtain ⟨m₂, hs₂⟩ := entryStep_of_ok h₂
  obtain ⟨m₃, hs₃⟩ := entryStep_of_ok h₃
  exact ⟨⟨gemma, bonsai, bonzai, m₁, m₂, m₃, models₁, models₂, models₃, hs₁, hs₂, hs₃, rfl⟩, rfl, rfl⟩

end Ensured

end LlmStore.Models
