import LlmStore.Lib.LastWriter
import LlmStore.Models.DefaultBackend

/-!
# Edits of backends

What a call of the admin API gives a backend should be there until another call gives it something else. `list_backends`
commits `ensure_default_backends`, which brings the built-in backends back to the settings, whatever they have been
edited to (`stopped_runs`). `backend_edits_durable` is the exact condition on runs: the backends are listed only while
the built-in ones are as they were seeded.
-/

namespace LlmStore.Models

open LlmStore.Calendar LlmStore.Lib LlmStore.Lib.LastWriter

/-- The configuration of a backend. -/
structure BackendConfig where
  provider : Provider
  backendUrl : String
  healthcheckPath : String
  isActive : Bool
  status : String
  maxParallelRequests : ℤ
  metadataJson : MetadataJson

def BackendRow.config (b : BackendRow) : BackendConfig :=
  { provider := b.provider
    backendUrl := b.backendUrl
    healthcheckPath := b.healthcheckPath
    isActive := b.isActive
    status := b.status
    maxParallelRequests := b.maxParallelRequests
    metadataJson := b.metadataJson }

/-- The configurations of all backends. -/
def Registry.configs (r : Registry) : Record BackendId BackendConfig := fun id =>
  (r.backends.lookup id).map BackendRow.config

/-! ## What the calls give -/

def InferenceBackendCreate.config (payload : InferenceBackendCreate) : BackendConfig :=
  { provider := payload.provider
    backendUrl := payload.backendUrl
    healthcheckPath := payload.healthcheckPath
    isActive := payload.isActive
    status := payload.status
    maxParallelRequests := payload.maxParallelRequests
    metadataJson := payload.metadataJson }

/-- The fields that a patch sets, over those that are there. -/
def InferenceBackendPatch.config (payload : InferenceBackendPatch) (c : BackendConfig) : BackendConfig :=
  { provider := payload.provider.join.getD c.provider
    backendUrl := payload.backendUrl.join.getD c.backendUrl
    healthcheckPath := payload.healthcheckPath.join.getD c.healthcheckPath
    isActive := payload.isActive.join.getD c.isActive
    status := payload.status.join.getD c.status
    maxParallelRequests := payload.maxParallelRequests.join.getD c.maxParallelRequests
    metadataJson := payload.metadataJson.getD c.metadataJson }

def BackendAction.config (action : BackendAction) (c : BackendConfig) : BackendConfig :=
  { c with
    status := match action with
      | .start => "starting"
      | .stop => "stopped"
      | .restart => "restarting"
    isActive := action ≠ .stop }

/-- What a call that commits `r'` gives the backends. A backend that seeding adds has what it is added with; one that is
there gets nothing from being listed. -/
def Step.gives (r : Registry) (s : Step) (r' : Registry) (old : Record BackendId BackendConfig) :
    Record BackendId BackendConfig :=
  match s.operation with
  | .createModel _ payload =>
    match payload.createBackend with
    | some new => Function.update old (s.newBackend r) (some new.config)
    | none => old
  | .createBackend payload => Function.update old (s.newBackend r) (some payload.config)
  | .patchBackend id payload => Function.update old id ((old id).map payload.config)
  | .runBackendAction id action _ => Function.update old id ((old id).map action.config)
  | .listBackends => fun id => (old id).or (r'.configs id)
  | _ => old

/-! ## Calls that write what they are asked for -/

section Rows

variable {bs : Backends} {id : BackendId}

/-- The configurations of backends by their ids. -/
def Backends.configs (bs : Backends) : Record BackendId BackendConfig := fun id => (bs id).map BackendRow.config

theorem Backends.configs_update (v : Option BackendRow) :
    Backends.configs (Function.update bs id v) = Function.update bs.configs id (v.map BackendRow.config) := by
  funext k
  by_cases hk : k = id
  · subst hk
    rw [configs, Function.update_self, Function.update_self]
  · rw [configs, Function.update_of_ne hk, Function.update_of_ne hk, configs]

/-- The default flag is no part of the configuration. -/
theorem Backends.configs_clear (keep : Option BackendId) : (bs.clear keep).configs = bs.configs := by
  funext k
  rw [configs, clear, Option.map_map, configs]
  congr 1
  funext b
  rw [Function.comp_apply]
  split_ifs <;> rfl

theorem Backends.configs_map {f : BackendRow → BackendRow} {g : BackendConfig → BackendConfig}
    (h : ∀ b, (f b).config = g b.config) : ((bs id).map f).map BackendRow.config = (bs.configs id).map g := by
  rw [configs, Option.map_map, Option.map_map]
  congr 1
  funext b
  exact h b

end Rows

/-- A call other than seeding changes the configurations as it is asked to. -/
theorem configs_of_attempt {settings : Settings} {r r' : Registry} {s : Step} (h : attempt settings r s = .ok r')
    (hs : ¬ s.SeedsBackends) : r'.configs = s.gives r r' r.configs := by
  have hrows := backends_of_attempt h hs
  show (backendRows r'.backends).configs = s.gives r r' (backendRows r.backends).configs
  rw [hrows]
  obtain ⟨env, op⟩ := s
  unfold Step.backends Step.gives
  cases op with
  | createModel files payload =>
    dsimp only
    cases payload.createBackend with
    | none => rfl
    | some new => exact Backends.configs_update _
  | createBackend payload =>
    dsimp only
    rw [Backends.configs_update]
    split_ifs
    · rw [Backends.configs_clear]
      rfl
    · rfl
  | patchBackend id payload =>
    dsimp only
    rw [Backends.configs_update, Backends.configs_map (g := payload.config) fun _ => rfl]
    split_ifs
    · rw [Backends.configs_clear]
    · rfl
  | runBackendAction id action docker =>
    dsimp only
    rw [Backends.configs_update, Backends.configs_map (g := action.config) fun _ => rfl]
  | listBackends => exact absurd trivial hs
  | ensureDefaultModel => exact absurd trivial hs
  | _ => rfl

/-! ## Listing -/

/-- The backend has the configuration of the payload; of `ollama-local` seeding leaves two fields alone. -/
structure InferenceBackendCreate.Configures (payload : InferenceBackendCreate) (b : BackendRow) : Prop where
  provider : b.provider = payload.provider
  backendUrl : b.backendUrl = payload.backendUrl
  healthcheckPath : b.healthcheckPath = payload.healthcheckPath
  isActive : payload.name = "ollama-local" ∨ b.isActive = payload.isActive
  status : payload.name = "ollama-local" ∨ b.status = payload.status
  maxParallelRequests : b.maxParallelRequests = payload.maxParallelRequests
  metadataJson : b.metadataJson = payload.metadataJson

/-- Every built-in backend has its seeded configuration. -/
def Registry.BuiltInAsSeeded (settings : Settings) (r : Registry) : Prop :=
  ∀ p ∈ seedPayloads settings, ∀ id b, r.backends.lookup id = some b → b.name = p.name → p.Configures b

section Listing

variable {settings : Settings} {r r' : Registry}

theorem InferenceBackendCreate.update_config_iff {payload : InferenceBackendCreate} {b : BackendRow} :
    (payload.update b).config = b.config ↔ payload.Configures b := by
  unfold InferenceBackendCreate.update
  constructor
  · intro h
    split_ifs at h with hname
    · simp only [BackendRow.config, InferenceBackendCreate.row, BackendConfig.mk.injEq] at h
      obtain ⟨h₁, h₂, h₃, -, -, h₆, h₇⟩ := h
      exact ⟨h₁.symm, h₂.symm, h₃.symm, .inl hname, .inl hname, h₆.symm, h₇.symm⟩
    · simp only [BackendRow.config, InferenceBackendCreate.row, BackendConfig.mk.injEq] at h
      obtain ⟨h₁, h₂, h₃, h₄, h₅, h₆, h₇⟩ := h
      exact ⟨h₁.symm, h₂.symm, h₃.symm, .inr h₄.symm, .inr h₅.symm, h₆.symm, h₇.symm⟩
  · rintro ⟨h₁, h₂, h₃, h₄, h₅, h₆, h₇⟩
    split_ifs with hname
    · simp [BackendRow.config, InferenceBackendCreate.row, h₁, h₂, h₃, h₆, h₇]
    · simp [BackendRow.config, InferenceBackendCreate.row, h₁, h₂, h₃, h₄.resolve_left hname,
        h₅.resolve_left hname, h₆, h₇]

/-- Seeding changes no configuration of a backend that is there just if the built-in ones are as they were seeded. -/
theorem configs_seeds_iff {now : Instant}
    (h : (backendSeeder now).Seeds (seedPayloads settings) r.backends r'.backends) :
    (r'.configs = fun id => (r.configs id).or (r'.configs id)) ↔ r.BuiltInAsSeeded settings := by
  constructor
  · intro he p hp id b hb hname
    have hid := congrFun he id
    simp only [Registry.configs, hb, h.kept id b hb, Option.map_some, Option.some_or, Option.some.injEq] at hid
    rw [Seeder.seeded_of_mem (nodup_seedPayloads settings) hp hname] at hid
    exact InferenceBackendCreate.update_config_iff.mp hid
  · intro hseeded
    funext id
    simp only [Registry.configs]
    cases hb : r.backends.lookup id with
    | none => rfl
    | some b =>
      rw [h.kept id b hb, Option.map_some, Option.map_some, Option.some_or]
      by_cases hname : b.name ∈ (seedPayloads settings).map (·.name)
      · obtain ⟨p, hp, hpname⟩ := List.mem_map.mp hname
        rw [Seeder.seeded_of_mem (nodup_seedPayloads settings) hp hpname.symm]
        exact congrArg some (InferenceBackendCreate.update_config_iff.mpr (hseeded p hp id b hb hpname.symm))
      · rw [Seeder.seeded_of_not_mem hname]

end Listing

/-! ## Runs -/

/-- A call of the admin API that is not a reload. -/
def AdminCall := { s : Step // s.operation ≠ .ensureDefaultModel }

section Runs

variable (settings : Settings)

def callCommits (r : Registry) (c : AdminCall) : List Registry := registryCommits settings r c.val

def AdminCall.gives (r : Registry) (c : AdminCall) (r' : Registry) (old : Record BackendId BackendConfig) :
    Record BackendId BackendConfig := c.val.gives r r' old

/-- The call lists the backends only while the built-in ones are as they were seeded. -/
def AdminCall.KeepsEdits (r : Registry) (c : AdminCall) : Prop :=
  c.val.operation = .listBackends → r.BuiltInAsSeeded settings

variable {settings}

/-- A call changes the configurations just as it is asked to, if it meets the condition, and else does not. -/
theorem AdminCall.keepsEdits_iff (r : Registry) (c : AdminCall) :
    c.KeepsEdits settings r ↔ ∀ r' ∈ callCommits settings r c, r'.configs = c.gives r r' r.configs := by
  obtain ⟨⟨env, op⟩, hreload⟩ := c
  by_cases hlist : op = .listBackends
  · subst hlist
    obtain ⟨r', hr'⟩ := listBackends_isOk settings env r
    have hseeds := seeds_of_attempt hr' trivial
    have hcommits : callCommits settings r ⟨⟨env, .listBackends⟩, hreload⟩ = [r'] := by
      show registryCommits settings r ⟨env, .listBackends⟩ = [r']
      rw [registryCommits, hr']
    rw [hcommits]
    simp only [List.mem_singleton, forall_eq, AdminCall.KeepsEdits, forall_const]
    exact (configs_seeds_iff hseeds).symm
  · have hs : ¬ Step.SeedsBackends ⟨env, op⟩ := by
      cases op with
      | listBackends => exact absurd rfl hlist
      | ensureDefaultModel => exact absurd rfl hreload
      | _ => exact id
    refine iff_of_true (fun h => absurd h hlist) fun r' hr' => ?_
    exact configs_of_attempt (mem_registryCommits.mp hr') hs

/-- **Edits of backends are durable** in just the runs that meet the condition: in every state committed the
configuration of each backend is what the last calls gave it. -/
theorem backend_edits_durable (settings : Settings) (r : Registry) (calls : List AdminCall) :
    Recorded (callCommits settings) AdminCall.gives Registry.configs r calls ↔
      Along (commitStep (callCommits settings)) (fun r c => c.KeepsEdits settings r) r calls :=
  recorded_iff AdminCall.keepsEdits_iff

end Runs

/-- The registry after the first start. -/
def startedRegistry : Registry := after (registryCommits plainSettings) (emptyRegistry []) startStep

/-- **A stopped backend runs again**: the first one is stopped, and then the backends are listed. -/
theorem stopped_runs :
    ¬ Recorded (callCommits plainSettings) AdminCall.gives Registry.configs startedRegistry
      [⟨⟨plainEnv, .runBackendAction 1 .stop (.ok ())⟩, by rintro ⟨⟩⟩, ⟨⟨plainEnv, .listBackends⟩, by rintro ⟨⟩⟩] := by
  intro h
  have hactive : ¬ ∀ x ∈ history (recording (callCommits plainSettings) AdminCall.gives)
      (startedRegistry, startedRegistry.configs)
      [⟨⟨plainEnv, .runBackendAction 1 .stop (.ok ())⟩, by rintro ⟨⟩⟩, ⟨⟨plainEnv, .listBackends⟩, by rintro ⟨⟩⟩],
      (x.1.configs 1).map (·.isActive) = (x.2 1).map (·.isActive) := by
    decide +kernel
  exact hactive fun x hx => by rw [h x hx]

end LlmStore.Models
