import LlmStore.Core.Json
import LlmStore.Lib.Table
import LlmStore.Models.PlanAccess

/-!
# The tables of the model registry

Backends, models with their routes, and billing plans, as the migrations of `alembic/versions` lay them out. A model's
routes are a table with the backend's id as key, so `uq_model_backend_route` holds by construction; the other unique
columns are `Constraints`, which every committed `Registry` carries. Foreign keys are not among them: a handler looks a
backend up before it refers to it, and no backend is ever deleted.

`ModelRow.load` is the row as the handlers of `services/model_policy.py` see it, with `MODEL_REGISTRY_ROUTING_LOADS`.
-/

namespace LlmStore.Models

open LlmStore.Calendar LlmStore.Lib

/-! ## Columns -/

/-- The id of a model: the first group of its text and, as a number, the others. -/
structure Uuid where
  firstGroup : String
  rest : ℕ
  deriving DecidableEq

/-- The providers that the schemas accept. -/
inductive Provider where
  | llamaCpp
  | ollama
  | vllm
  deriving DecidableEq

def Provider.text : Provider → String
  | .llamaCpp => "llama.cpp"
  | .ollama => "ollama"
  | .vllm => "vllm"

/-- What `json.loads` makes of `metadata_json`. -/
inductive MetadataJson where
  /-- `NULL` or the empty text. -/
  | absent
  | malformed (raw : String)
  | value (json : Json)

/-! ## Rows -/

structure BackendRow where
  name : String
  provider : Provider
  backendUrl : String
  healthcheckPath : String
  isActive : Bool
  isDefault : Bool
  status : String
  maxParallelRequests : ℤ
  metadataJson : MetadataJson
  createdAt : Instant

structure RouteRow where
  priority : ℤ
  weight : ℤ
  state : RouteState
  createdAt : Instant
  deriving DecidableEq

structure ModelRow where
  modelId : String
  modelAlias : Option String
  inferenceBackendId : Option BackendId
  provider : Provider
  modelFile : String
  contextLength : ℤ
  isActive : Bool
  isDefault : Bool
  status : String
  promptTemplate : Option String
  metadataJson : MetadataJson
  createdAt : Instant
  backendRoutes : Table BackendId RouteRow

structure Tables where
  backends : Table BackendId BackendRow
  models : Table Uuid ModelRow
  plans : List BillingPlan

/-- The unique columns; a model without an alias clashes with no other. -/
structure Constraints (t : Tables) : Prop where
  backendNames : t.backends.UniqueBy fun b => some b.name
  modelIds : t.models.UniqueBy fun m => some m.modelId
  modelAliases : t.models.UniqueBy ModelRow.modelAlias

instance (t : Tables) : Decidable (Constraints t) :=
  decidable_of_iff
    (t.backends.UniqueBy (fun b => some b.name) ∧ t.models.UniqueBy (fun m => some m.modelId) ∧
      t.models.UniqueBy ModelRow.modelAlias)
    ⟨fun ⟨hb, hi, ha⟩ => ⟨hb, hi, ha⟩, fun ⟨hb, hi, ha⟩ => ⟨hb, hi, ha⟩⟩

/-- What is committed. -/
structure Registry extends Tables where
  constraints : Constraints toTables

/-- Two models with one `model_id` are one model. -/
theorem Registry.modelId_inj (r : Registry) {pk pk' : Uuid} {m m' : ModelRow} (h : r.models.lookup pk = some m)
    (h' : r.models.lookup pk' = some m') (he : m.modelId = m'.modelId) : pk = pk' :=
  Table.uniqueBy_iff.mp r.constraints.modelIds pk pk' m m' m.modelId h h' rfl (congrArg some he.symm)

/-- Two models with one alias are one model. -/
theorem Registry.modelAlias_inj (r : Registry) {pk pk' : Uuid} {m m' : ModelRow} {name : String}
    (h : r.models.lookup pk = some m) (h' : r.models.lookup pk' = some m') (ha : m.modelAlias = some name)
    (ha' : m'.modelAlias = some name) : pk = pk' :=
  Table.uniqueBy_iff.mp r.constraints.modelAliases pk pk' m m' name h h' ha ha'

/-! ## Rows with what they refer to -/

def BackendRow.load (id : BackendId) (b : BackendRow) : InferenceBackend :=
  { id, name := b.name, provider := b.provider.text, isActive := b.isActive }

section Load

variable (backends : Table BackendId BackendRow)

def loadBackend (id : BackendId) : Option InferenceBackend := (backends.lookup id).map (BackendRow.load id)

def RouteRow.load (id : BackendId) (r : RouteRow) : ModelBackendRoute :=
  { inferenceBackend := loadBackend backends id
    priority := r.priority
    weight := r.weight
    state := r.state
    createdAt := r.createdAt }

def ModelRow.load (m : ModelRow) : ModelRegistry :=
  { modelId := m.modelId
    modelAlias := m.modelAlias
    isActive := m.isActive
    isDefault := m.isDefault
    createdAt := m.createdAt
    inferenceBackend := m.inferenceBackendId.bind (loadBackend backends)
    backendRoutes := m.backendRoutes.entries.map fun e => e.2.load backends e.1 }

end Load

/-- `select(ModelRegistry).options(*MODEL_REGISTRY_ROUTING_LOADS)`. -/
def Tables.load (t : Tables) : List ModelRegistry := t.models.entries.map fun e => e.2.load t.backends

theorem loadBackend_id {backends : Table BackendId BackendRow} {id : BackendId} {b : InferenceBackend}
    (h : loadBackend backends id = some b) : b.id = id := by
  obtain ⟨row, -, rfl⟩ := Option.map_eq_some_iff.mp h
  rfl

/-- A route of a loaded model comes from the row under its backend's id. -/
theorem mem_load_backendRoutes {backends : Table BackendId BackendRow} {m : ModelRow} {r : ModelBackendRoute} :
    r ∈ (m.load backends).backendRoutes ↔
      ∃ id row, m.backendRoutes.lookup id = some row ∧ row.load backends id = r := by
  rw [ModelRow.load, List.mem_map]
  constructor
  · rintro ⟨⟨id, row⟩, he, rfl⟩
    exact ⟨id, row, Table.mem_entries_iff.mp he, rfl⟩
  · rintro ⟨id, row, hrow, rfl⟩
    exact ⟨⟨id, row⟩, Table.mem_entries_iff.mpr hrow, rfl⟩

/-! ## Transactions -/

/-- Why a handler ends without a commit. -/
inductive Failure where
  | http (e : HTTPException)
  /-- `scalar_one_or_none` has found more than one row. -/
  | multipleResultsFound
  /-- A write has met a unique column, a key or `NOT NULL`. -/
  | integrityError
  deriving DecidableEq

/-- `raise HTTPException(status_code=..., detail=...)`. -/
def refuse {α : Type} (statusCode : ℕ) (detail : String) : Except Failure α := .error (.http ⟨statusCode, detail⟩)

/-- `if c: raise HTTPException(status_code=..., detail=...)`. -/
def refuseIf (c : Prop) [Decidable c] (statusCode : ℕ) (detail : String) : Except Failure Unit :=
  if c then refuse statusCode detail else .ok ()

/-- `result.scalar_one_or_none()`. -/
def scalarOneOrNone {α : Type} : List α → Except Failure (Option α)
  | [] => .ok none
  | [row] => .ok (some row)
  | _ => .error .multipleResultsFound

/-- `session.commit()`. -/
def commit (t : Tables) : Except Failure Registry :=
  if h : Constraints t then .ok ⟨t, h⟩ else .error .integrityError

/-- Ids for new rows: never that of a row that is there. -/
structure Source (κ : Type) where
  next : List κ → κ
  fresh : ∀ keys, next keys ∉ keys

/-- One more than the largest. -/
def Source.counter : Source ℕ where
  next keys := keys.foldr max 0 + 1
  fresh keys h := by
    have hle : ∀ (l : List ℕ) (n : ℕ), n ∈ l → n ≤ l.foldr max 0 := by
      intro l n hn
      induction l with
      | nil => cases hn
      | cons m l ih =>
        rcases List.mem_cons.mp hn with rfl | hn
        · exact le_max_left _ _
        · exact (ih hn).trans (le_max_right _ _)
    exact absurd (hle keys _ h) (by omega)

/-- Ids with a given first group. -/
def Source.uuids (firstGroup : String) : Source Uuid where
  next keys := ⟨firstGroup, Source.counter.next (keys.map Uuid.rest)⟩
  fresh keys h := Source.counter.fresh (keys.map Uuid.rest) (List.mem_map_of_mem h)

/-- What a handler reads besides the database. -/
structure Env where
  now : Instant
  uuids : Source Uuid
  backendIds : Source BackendId
  /-- The text of `resolve_models_dir()`. -/
  modelsDir : String

theorem refuseIf_eq_ok_iff {c : Prop} [Decidable c] {statusCode : ℕ} {detail : String} {u : Unit} :
    refuseIf c statusCode detail = .ok u ↔ ¬ c := by
  by_cases hc : c <;> simp [refuseIf, refuse, hc]

theorem commit_eq_ok_iff {t : Tables} {r : Registry} : commit t = .ok r ↔ r.toTables = t := by
  unfold commit
  split_ifs with h
  · constructor
    · intro he
      cases he
      rfl
    · rintro rfl
      rfl
  · constructor
    · intro he
      cases he
    · rintro rfl
      exact absurd r.constraints h

section SelectOne

variable {κ ν : Type} [DecidableEq κ] {t : Table κ ν} {p : κ → ν → Bool}

theorem scalarOneOrNone_none_iff :
    scalarOneOrNone (t.select p) = .ok none ↔ ∀ k v, t.lookup k = some v → p k v = false := by
  rw [← Table.select_eq_nil_iff]
  cases t.select p with
  | nil => simp [scalarOneOrNone]
  | cons e l => cases l <;> simp [scalarOneOrNone]

theorem scalarOneOrNone_some_iff {k : κ} {v : ν} :
    scalarOneOrNone (t.select p) = .ok (some ⟨k, v⟩) ↔
      t.lookup k = some v ∧ p k v = true ∧ ∀ k' v', t.lookup k' = some v' → p k' v' = true → k' = k := by
  rw [← Table.select_eq_singleton_iff]
  cases t.select p with
  | nil => simp [scalarOneOrNone]
  | cons e l => cases l <;> simp [scalarOneOrNone]

/-- More than one row is found if rows of two keys are selected. -/
theorem scalarOneOrNone_error_iff {e : Failure} :
    scalarOneOrNone (t.select p) = .error e ↔ e = .multipleResultsFound ∧
      ∃ k k' v v', k ≠ k' ∧ t.lookup k = some v ∧ t.lookup k' = some v' ∧ p k v = true ∧ p k' v' = true := by
  have hnd : (t.select p).Nodup := (List.NodupKeys.nodup t.nodupKeys).filter _
  have hmem : ∀ k v, ⟨k, v⟩ ∈ t.select p ↔ t.lookup k = some v ∧ p k v = true := fun _ _ => Table.mem_select_iff
  match hs : t.select p with
  | [] =>
    simp only [scalarOneOrNone, reduceCtorEq, false_iff, not_and]
    rintro - ⟨k, k', v, v', -, hk, -, hp, -⟩
    have hin := (hmem k v).mpr ⟨hk, hp⟩
    rw [hs] at hin
    cases hin
  | [⟨j, w⟩] =>
    simp only [scalarOneOrNone, reduceCtorEq, false_iff, not_and]
    rintro - ⟨k, k', v, v', hne, hk, hk', hp, hp'⟩
    have hin := (hmem k v).mpr ⟨hk, hp⟩
    have hin' := (hmem k' v').mpr ⟨hk', hp'⟩
    rw [hs, List.mem_singleton] at hin hin'
    exact hne ((congrArg Sigma.fst hin).trans (congrArg Sigma.fst hin').symm)
  | ⟨k, v⟩ :: ⟨k', v'⟩ :: l =>
    rw [hs] at hmem
    obtain ⟨hk, hp⟩ := (hmem k v).mp (by simp)
    obtain ⟨hk', hp'⟩ := (hmem k' v').mp (by simp)
    have hne : k ≠ k' := by
      rintro rfl
      rw [hk, Option.some.injEq] at hk'
      subst hk'
      rw [hs] at hnd
      simp at hnd
    simp only [scalarOneOrNone, Except.error.injEq]
    constructor
    · rintro rfl
      exact ⟨rfl, k, k', v, v', hne, hk, hk', hp, hp'⟩
    · rintro ⟨rfl, -⟩
      rfl

end SelectOne

end LlmStore.Models
