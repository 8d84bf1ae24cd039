import LlmStore.Models.Startup

/-!
# What the operations write to the backends

`create_backend`, `patch_backend`, the actions and `create_model` with a backend of its own write the backends they are
asked for (`backends_of_attempt`). `ensure_default_backends` seeds the four built-in ones, found by their names
(`ensureDefaultBackends_seeds`), for `list_backends` as for `ensure_default_model`.
-/

namespace LlmStore.Models

open LlmStore.Calendar LlmStore.Lib

/-- The backends by their ids. -/
abbrev Backends := BackendId → Option BackendRow

def backendRows (backends : Table BackendId BackendRow) : Backends := fun id => backends.lookup id

/-- `is_default = False` for all backends but one. -/
def Backends.clear (keep : Option BackendId) (old : Backends) : Backends := fun id =>
  (old id).map fun b => if keep = some id then b else { b with isDefault := false }

@[simp] theorem backendRows_clear (keep : Option BackendId) (backends : Table BackendId BackendRow) :
    backendRows (clearBackendDefaults keep backends) = (backendRows backends).clear keep := by
  funext id
  rw [clearBackendDefaults, backendRows, Table.lookup_mapRows]
  rfl

/-! ## What is asked for -/

/-- A patched backend. -/
def InferenceBackendPatch.row (payload : InferenceBackendPatch) (b : BackendRow) : BackendRow :=
  { b with
    name := payload.name.join.getD b.name
    provider := payload.provider.join.getD b.provider
    backendUrl := payload.backendUrl.join.getD b.backendUrl
    healthcheckPath := payload.healthcheckPath.join.getD b.healthcheckPath
    isActive := payload.isActive.join.getD b.isActive
    isDefault := payload.isDefault.join.getD b.isDefault
    status := payload.status.join.getD b.status
    maxParallelRequests := payload.maxParallelRequests.join.getD b.maxParallelRequests
    metadataJson := payload.metadataJson.getD b.metadataJson }

/-- A backend after an action on it. -/
def BackendAction.row (action : BackendAction) (b : BackendRow) : BackendRow :=
  { b with
    status := match action with
      | .start => "starting"
      | .stop => "stopped"
      | .restart => "restarting"
    isActive := action ≠ .stop }

/-- The id of a backend that the step adds. -/
def Step.newBackend (s : Step) (r : Registry) : BackendId := s.env.backendIds.next r.backends.keys

/-- The backends that a step asks for, seeding apart. -/
def Step.backends (s : Step) (r : Registry) : Backends :=
  let old := backendRows r.backends
  match s.operation with
  | .createModel _ payload =>
    match payload.createBackend with
    | some new => Function.update old (s.newBackend r) (some (new.row s.env.now))
    | none => old
  | .createBackend payload =>
    Function.update (if payload.isDefault then old.clear none else old) (s.newBackend r) (some (payload.row s.env.now))
  | .patchBackend id payload =>
    Function.update (if payload.isDefault = some (some true) then old.clear (some id) else old) id
      ((old id).map payload.row)
  | .runBackendAction id action _ => Function.update old id ((old id).map action.row)
  | _ => old

/-- The step calls `ensure_default_backends`. -/
def Step.SeedsBackends (s : Step) : Prop :=
  match s.operation with
  | .listBackends => True
  | .ensureDefaultModel => True
  | _ => False

instance (s : Step) : Decidable s.SeedsBackends := by
  unfold Step.SeedsBackends
  split <;> infer_instance

/-! ## Handlers -/

section Handlers

variable {settings : Settings} {env : Env} {files : String → FileCheck} {t t' : Tables} {pk : Uuid} {id : BackendId}

theorem backendRows_modify (f : BackendRow → BackendRow) (backends : Table BackendId BackendRow) :
    backendRows (backends.modify id f) = Function.update (backendRows backends) id ((backendRows backends id).map f) :=
  Table.lookup_modify_eq id f backends

theorem backendRows_insert (b : BackendRow) (backends : Table BackendId BackendRow) :
    backendRows (backends.insert id b) = Function.update (backendRows backends) id (some b) :=
  Table.lookup_insert_eq id b backends

theorem getBackend_eq_ok_iff {b : BackendRow} : getBackend t id = .ok b ↔ t.backends.lookup id = some b := by
  unfold getBackend
  cases t.backends.lookup id <;> simp [refuse]

theorem createModelBackend_ok {payload : ModelRegistryCreate} {p : Option BackendId × Table BackendId BackendRow}
    (h : createModelBackend env payload t = .ok p) :
    p.2 = match payload.createBackend with
      | some new => t.backends.insert (env.backendIds.next t.backends.keys) (new.row env.now)
      | none => t.backends := by
  unfold createModelBackend at h
  cases hid : payload.inferenceBackendId <;> cases hnew : payload.createBackend <;> rw [hid, hnew] at h <;>
    dsimp only at h ⊢
  · cases h
    rfl
  · obtain ⟨_, -, h⟩ := bind_eq_ok_iff.mp h
    cases h
    rfl
  · obtain ⟨_, -, h⟩ := bind_eq_ok_iff.mp h
    cases h
    rfl
  · exact absurd h refuse_ne_ok

theorem createModel_backends {payload : ModelRegistryCreate} (h : createModel env files payload t = .ok t') :
    t'.backends = match payload.createBackend with
      | some new => t.backends.insert (env.backendIds.next t.backends.keys) (new.row env.now)
      | none => t.backends := by
  obtain ⟨c, hc, h⟩ := bind_eq_ok_iff.mp h
  obtain ⟨_, -, h⟩ := bind_eq_ok_iff.mp h
  obtain ⟨routes, -, h⟩ := bind_eq_ok_iff.mp h
  obtain ⟨plans, -, h⟩ := bind_eq_ok_iff.mp h
  obtain ⟨p, hp, hc⟩ := bind_eq_ok_iff.mp hc
  obtain ⟨file, -, hc⟩ := bind_eq_ok_iff.mp hc
  cases h
  cases hc
  exact createModelBackend_ok hp

theorem patchModel_backends {payload : ModelRegistryPatch} (h : patchModel env files pk payload t = .ok t') :
    t'.backends = t.backends := by
  obtain ⟨m, -, h⟩ := bind_eq_ok_iff.mp h
  obtain ⟨_, -, h⟩ := bind_eq_ok_iff.mp h
  obtain ⟨_, -, h⟩ := bind_eq_ok_iff.mp h
  obtain ⟨modelFile, -, h⟩ := bind_eq_ok_iff.mp h
  obtain ⟨provider, -, h⟩ := bind_eq_ok_iff.mp h
  obtain ⟨contextLength, -, h⟩ := bind_eq_ok_iff.mp h
  obtain ⟨isDefault, -, h⟩ := bind_eq_ok_iff.mp h
  obtain ⟨isActive, -, h⟩ := bind_eq_ok_iff.mp h
  obtain ⟨status, -, h⟩ := bind_eq_ok_iff.mp h
  obtain ⟨routes, -, h⟩ := bind_eq_ok_iff.mp h
  obtain ⟨plans, -, h⟩ := bind_eq_ok_iff.mp h
  cases h
  rfl

theorem deleteModel_backends {payload : ModelDeleteRequest} {deletedAt : String} {log : List String} {hasJobs : Bool}
    (h : deleteModel pk payload deletedAt log hasJobs t = .ok t') : t'.backends = t.backends := by
  obtain ⟨m, -, h⟩ := bind_eq_ok_iff.mp h
  obtain ⟨_, -, h⟩ := bind_eq_ok_iff.mp h
  obtain ⟨_, -, h⟩ := bind_eq_ok_iff.mp h
  obtain ⟨_, -, h⟩ := bind_eq_ok_iff.mp h
  split_ifs at h <;> cases h <;> rfl

theorem createBackend_ok {payload : InferenceBackendCreate} (h : createBackend env payload t = .ok t') :
    backendRows t'.backends = Function.update
      (if payload.isDefault then (backendRows t.backends).clear none else backendRows t.backends)
      (env.backendIds.next t.backends.keys) (some (payload.row env.now)) := by
  obtain ⟨_, -, h⟩ := bind_eq_ok_iff.mp h
  cases h
  rw [backendRows_insert]
  split_ifs <;> simp

theorem patchBackend_ok {payload : InferenceBackendPatch} (h : patchBackend id payload t = .ok t') :
    (∃ b, t.backends.lookup id = some b) ∧ backendRows t'.backends = Function.update
      (if payload.isDefault = some (some true) then (backendRows t.backends).clear (some id)
        else backendRows t.backends) id ((backendRows t.backends id).map payload.row) := by
  obtain ⟨b, hb, h⟩ := bind_eq_ok_iff.mp h
  obtain ⟨_, -, h⟩ := bind_eq_ok_iff.mp h
  obtain ⟨name, hname, h⟩ := bind_eq_ok_iff.mp h
  obtain ⟨provider, hprovider, h⟩ := bind_eq_ok_iff.mp h
  obtain ⟨backendUrl, hurl, h⟩ := bind_eq_ok_iff.mp h
  obtain ⟨healthcheckPath, hpath, h⟩ := bind_eq_ok_iff.mp h
  obtain ⟨isActive, hactive, h⟩ := bind_eq_ok_iff.mp h
  obtain ⟨isDefault, hdefault, h⟩ := bind_eq_ok_iff.mp h
  obtain ⟨status, hstatus, h⟩ := bind_eq_ok_iff.mp h
  obtain ⟨maxParallelRequests, hmax, h⟩ := bind_eq_ok_iff.mp h
  rw [getBackend_eq_ok_iff] at hb
  obtain rfl := require_eq_ok_iff hname
  obtain rfl := require_eq_ok_iff hprovider
  obtain rfl := require_eq_ok_iff hurl
  obtain rfl := require_eq_ok_iff hpath
  obtain rfl := require_eq_ok_iff hactive
  obtain rfl := require_eq_ok_iff hdefault
  obtain rfl := require_eq_ok_iff hstatus
  obtain rfl := require_eq_ok_iff hmax
  cases h
  have hrow : backendRows t.backends id = some b := hb
  refine ⟨⟨b, hb⟩, ?_⟩
  rw [backendRows_modify]
  split_ifs
  · rw [backendRows_clear, Backends.clear, hrow]
    simp [InferenceBackendPatch.row]
  · rw [hrow]
    rfl

end Handlers

/-- **An operation that is not refused leaves the backends it is asked for.** -/
theorem backends_of_attempt {settings : Settings} {r r' : Registry} {s : Step} (h : attempt settings r s = .ok r')
    (hs : ¬ s.SeedsBackends) : backendRows r'.backends = s.backends r := by
  rw [attempt_eq_ok_iff] at h
  obtain ⟨env, op⟩ := s
  cases op with
  | createModel files payload =>
    have hb := createModel_backends h
    unfold Step.backends
    dsimp only
    rw [hb]
    cases payload.createBackend with
    | none => rfl
    | some new => exact backendRows_insert _ _
  | patchModel files pk payload => rw [patchModel_backends h]; rfl
  | setDefaultModel pk =>
    obtain ⟨m, -, h⟩ := bind_eq_ok_iff.mp h
    rw [← Except.ok.inj h]
    rfl
  | enableModel pk =>
    obtain ⟨m, -, h⟩ := bind_eq_ok_iff.mp h
    obtain ⟨_, -, h⟩ := bind_eq_ok_iff.mp h
    rw [← Except.ok.inj h]
    rfl
  | disableModel pk =>
    obtain ⟨m, -, h⟩ := bind_eq_ok_iff.mp h
    obtain ⟨_, -, h⟩ := bind_eq_ok_iff.mp h
    rw [← Except.ok.inj h]
    rfl
  | deleteModel pk payload deletedAt log hasJobs => rw [deleteModel_backends h]; rfl
  | createModelRoute pk payload =>
    obtain ⟨_, -, h⟩ := bind_eq_ok_iff.mp h
    obtain ⟨_, -, h⟩ := bind_eq_ok_iff.mp h
    obtain ⟨_, -, h⟩ := bind_eq_ok_iff.mp h
    obtain ⟨routes, -, h⟩ := bind_eq_ok_iff.mp h
    rw [← Except.ok.inj h]
    rfl
  | patchModelBackendRoute pk id payload =>
    obtain ⟨route, -, h⟩ := bind_eq_ok_iff.mp h
    obtain ⟨priority, -, h⟩ := bind_eq_ok_iff.mp h
    obtain ⟨weight, -, h⟩ := bind_eq_ok_iff.mp h
    obtain ⟨state, -, h⟩ := bind_eq_ok_iff.mp h
    rw [← Except.ok.inj h]
    rfl
  | deleteModelRoute pk id =>
    obtain ⟨route, -, h⟩ := bind_eq_ok_iff.mp h
    rw [← Except.ok.inj h]
    rfl
  | createBackend payload => exact createBackend_ok h
  | patchBackend id payload => exact (patchBackend_ok h).2
  | runBackendAction id action docker =>
    obtain ⟨backend, -, h⟩ := bind_eq_ok_iff.mp h
    cases docker with
    | error e => cases h
    | ok u =>
      rw [← Except.ok.inj h]
      exact backendRows_modify _ _
  | listBackends => exact absurd trivial hs
  | ensureDefaultModel => exact absurd trivial hs

/-! ## Seeding -/

/-- The payloads of `ensure_default_backends`, in their order. -/
def seedPayloads (settings : Settings) : List InferenceBackendCreate :=
  [gemmaBackend settings, bonsaiBackend settings, ollamaBackend settings, fallbackBackend]

section Seeding

variable {settings : Settings} {backends : Table BackendId BackendRow}

theorem nodup_seedPayloads (settings : Settings) : ((seedPayloads settings).map (·.name)).Nodup := by
  show ["gemma-local", "bonsai-local", "ollama-local", "fallback-local"].Nodup
  decide

/-- **What `ensure_default_backends` does.** -/
theorem ensureDefaultBackends_seeds (env : Env) (settings : Settings)
    (hu : backends.UniqueBy fun b => some b.name) :
    (backendSeeder env.now).Seeds (seedPayloads settings) backends (ensureDefaultBackends env settings backends).2 := by
  have h := Seeder.foldl_seeds (s := backendSeeder env.now) env.backendIds.fresh (nodup_seedPayloads settings) hu
  unfold ensureDefaultBackends
  simp only [ensureBackend_eq_pass]
  exact h

/-- What a step that calls it commits. -/
theorem seeds_of_attempt {r r' : Registry} {s : Step} (h : attempt settings r s = .ok r') (hs : s.SeedsBackends) :
    (backendSeeder s.env.now).Seeds (seedPayloads settings) r.backends r'.backends := by
  rw [attempt_eq_ok_iff] at h
  obtain ⟨env, op⟩ := s
  have hseeds := ensureDefaultBackends_seeds env settings r.constraints.backendNames
  cases op with
  | listBackends =>
    have hr : r'.backends = (ensureDefaultBackends env settings r.backends).2 :=
      congrArg Tables.backends (Except.ok.inj h).symm
    rwa [hr]
  | ensureDefaultModel => rwa [(ensured_of_ok env settings h).backends]
  | _ => exact absurd hs id

/-- `list_backends` is never refused. -/
theorem listBackends_isOk (settings : Settings) (env : Env) (r : Registry) :
    ∃ r', attempt settings r ⟨env, .listBackends⟩ = .ok r' := by
  have hnames := (ensureDefaultBackends_seeds env settings r.constraints.backendNames).unique
  exact ⟨⟨{ r.toTables with backends := (ensureDefaultBackends env settings r.backends).2 }, hnames,
    r.constraints.modelIds, r.constraints.modelAliases⟩, attempt_eq_ok_iff.mpr rfl⟩

end Seeding

end LlmStore.Models
