import LlmStore.Lib.Seeder
import LlmStore.Lib.Upsert
import LlmStore.Models.PublicNames

/-!
# Starting again

`ensure_default_model` runs at every start. It cannot fail and, run again, changes nothing, if no seeded pair of an id
and an alias is split between models (`Unsplit`). Seeding itself leaves them so, and most operations keep to it;
`create_model`, `patch_model` and `delete_model` need not (`restart_fails`). `restart_settles` is for all runs in which
they do.
-/

namespace LlmStore.Models

open LlmStore.Calendar LlmStore.Lib LlmStore.Lib.Upsert

/-! ## Backends -/

section Backends

variable {env : Env} {payload : InferenceBackendCreate} {backends : Table BackendId BackendRow} {id : BackendId}

/-- The backend has the columns of the payload. -/
def InferenceBackendCreate.IsAt (payload : InferenceBackendCreate) (backends : Table BackendId BackendRow)
    (id : BackendId) : Prop :=
  ∃ b, backends.lookup id = some b ∧ b.name = payload.name ∧ payload.update b = b

theorem InferenceBackendCreate.update_name (payload : InferenceBackendCreate) (b : BackendRow) :
    (payload.update b).name = payload.name := by
  unfold InferenceBackendCreate.update
  split_ifs <;> rfl

theorem InferenceBackendCreate.update_update (payload : InferenceBackendCreate) (b : BackendRow) :
    payload.update (payload.update b) = payload.update b := by
  unfold InferenceBackendCreate.update
  split_ifs <;> rfl

theorem InferenceBackendCreate.update_row (payload : InferenceBackendCreate) (now : Instant) :
    payload.update (payload.row now) = payload.row now := by
  unfold InferenceBackendCreate.update
  split_ifs <;> rfl

/-- A backend by its name. -/
def backendSeeder (now : Instant) : Seeder BackendRow InferenceBackendCreate String where
  column := BackendRow.name
  name := InferenceBackendCreate.name
  row p := p.row now
  update := InferenceBackendCreate.update
  column_row _ := rfl
  column_update := InferenceBackendCreate.update_name

/-- One pass of the loop is seeding with one payload. -/
theorem ensureBackend_eq_pass (env : Env) (payload : InferenceBackendCreate) (backends : Table BackendId BackendRow) :
    ensureBackend env payload backends = (backendSeeder env.now).pass env.backendIds.next payload backends := by
  have hfind : (backendSeeder env.now).find payload.name backends = backendNamed payload.name backends := rfl
  unfold ensureBackend Seeder.pass
  rw [show (backendSeeder env.now).name payload = payload.name from rfl, hfind]
  cases backendNamed payload.name backends <;> rfl

/-- What one pass of the loop does. -/
theorem ensureBackend_spec (env : Env) (payload : InferenceBackendCreate)
    (hu : backends.UniqueBy fun b => some b.name) :
    (ensureBackend env payload backends).2.UniqueBy (fun b => some b.name) ∧
      payload.IsAt (ensureBackend env payload backends).2 (ensureBackend env payload backends).1 ∧
      ∀ other : InferenceBackendCreate, other.name ≠ payload.name → ∀ k, other.IsAt backends k →
        other.IsAt (ensureBackend env payload backends).2 k := by
  rw [ensureBackend_eq_pass]
  have hseeds : (backendSeeder env.now).Seeds [payload] backends
      ((backendSeeder env.now).pass env.backendIds.next payload backends).2 :=
    Seeder.pass_seeds env.backendIds.fresh hu
  refine ⟨hseeds.unique, ?_, ?_⟩
  · obtain ⟨b, hb, hrow⟩ := (backendSeeder env.now).pass_present env.backendIds.next payload backends
    refine ⟨b, hb, ?_⟩
    rcases hrow with rfl | ⟨b₀, rfl⟩
    · exact ⟨rfl, payload.update_row env.now⟩
    · exact ⟨payload.update_name b₀, payload.update_update b₀⟩
  · rintro other hother k ⟨b, hb, hname, hupdate⟩
    have hne : (backendSeeder env.now).column b ∉ [payload].map (backendSeeder env.now).name := by
      rw [List.map_singleton, List.mem_singleton]
      exact fun he => hother (hname.symm.trans he)
    exact ⟨b, by rw [hseeds.kept k b hb, Seeder.seeded_of_not_mem hne], hname, hupdate⟩

/-- A backend with the columns of the payload is left as it is. -/
theorem ensureBackend_eq_self (hu : backends.UniqueBy fun b => some b.name) (h : payload.IsAt backends id) :
    ensureBackend env payload backends = (id, backends) := by
  obtain ⟨b, hb, hname, hupdate⟩ := h
  have hfound : backendNamed b.name backends = some id := Seeder.find_of_lookup (s := backendSeeder env.now) hu hb
  rw [hname] at hfound
  rw [ensureBackend, hfound]
  dsimp only
  rw [Table.modify_eq_self fun b' hb' => by rwa [Option.some.inj (hb'.symm.trans hb)]]

/-- The four backends have the columns of their payloads. -/
structure BackendsSeeded (settings : Settings) (backends : Table BackendId BackendRow) (ids : SeededBackends) : Prop where
  names : backends.UniqueBy fun b => some b.name
  gemma : (gemmaBackend settings).IsAt backends ids.gemma
  bonsai : (bonsaiBackend settings).IsAt backends ids.bonsai
  ollama : ∃ id, (ollamaBackend settings).IsAt backends id
  fallback : fallbackBackend.IsAt backends ids.fallback

/-- `ensure_default_backends` leaves the four backends with their columns. -/
theorem ensureDefaultBackends_seeded (env : Env) (settings : Settings) (hu : backends.UniqueBy fun b => some b.name) :
    BackendsSeeded settings (ensureDefaultBackends env settings backends).2
      (ensureDefaultBackends env settings backends).1 := by
  obtain ⟨hu₁, hgemma, -⟩ := ensureBackend_spec env (gemmaBackend settings) hu
  obtain ⟨hu₂, hbonsai, hkeep₂⟩ := ensureBackend_spec env (bonsaiBackend settings) hu₁
  obtain ⟨hu₃, hollama, hkeep₃⟩ := ensureBackend_spec env (ollamaBackend settings) hu₂
  obtain ⟨hu₄, hfallback, hkeep₄⟩ := ensureBackend_spec env fallbackBackend hu₃
  have hgb : "gemma-local" ≠ "bonsai-local" := by decide
  have hgo : "gemma-local" ≠ "ollama-local" := by decide
  have hgf : "gemma-local" ≠ "fallback-local" := by decide
  have hbo : "bonsai-local" ≠ "ollama-local" := by decide
  have hbf : "bonsai-local" ≠ "fallback-local" := by decide
  have hof : "ollama-local" ≠ "fallback-local" := by decide
  exact ⟨hu₄, hkeep₄ _ hgf _ (hkeep₃ _ hgo _ (hkeep₂ _ hgb _ hgemma)), hkeep₄ _ hbf _ (hkeep₃ _ hbo _ hbonsai),
    ⟨_, hkeep₄ _ hof _ hollama⟩, hfallback⟩

/-- Run again, `ensure_default_backends` changes nothing. -/
theorem BackendsSeeded.again {settings : Settings} {ids : SeededBackends} (h : BackendsSeeded settings backends ids)
    (env : Env) : ensureDefaultBackends env settings backends = (ids, backends) := by
  obtain ⟨id, hollama⟩ := h.ollama
  rw [ensureDefaultBackends, ensureBackend_eq_self h.names h.gemma]
  dsimp only
  rw [ensureBackend_eq_self h.names h.bonsai]
  dsimp only
  rw [ensureBackend_eq_self h.names hollama]
  dsimp only
  rw [ensureBackend_eq_self h.names h.fallback]

/-- The backends of the models have different ids. -/
theorem InferenceBackendCreate.IsAt.ne {other : InferenceBackendCreate} {id' : BackendId}
    (h : payload.IsAt backends id) (h' : other.IsAt backends id') (hname : payload.name ≠ other.name) : id ≠ id' := by
  rintro rfl
  obtain ⟨b, hb, hb', -⟩ := h
  obtain ⟨c, hc, hc', -⟩ := h'
  rw [hb, Option.some.injEq] at hc
  exact hname (hb'.symm.trans (hc ▸ hc'))

end Backends

/-! ## Routes -/

section Routes

variable {priority : ℤ} {active : Bool} {id : BackendId} {routes : Table BackendId RouteRow}

/-- The route to a backend is as `_ensure_default_route` or `_ensure_fallback_route` leaves it. -/
def RouteEnsured (priority : ℤ) (id : BackendId) (active : Bool) (routes : Table BackendId RouteRow) : Prop :=
  ∃ route, routes.lookup id = some route ∧ route.priority = priority ∧ route.weight = 100 ∧
    (route.state = .disabled ↔ active = false)

theorem ensureRoute_ensured (now : Instant) (priority : ℤ) (id : BackendId) (active : Bool)
    (routes : Table BackendId RouteRow) : RouteEnsured priority id active (ensureRoute now priority id active routes) := by
  unfold ensureRoute
  cases h : routes.lookup id with
  | none => exact ⟨_, AList.lookup_insert routes, rfl, rfl, by cases active <;> simp⟩
  | some route =>
    refine ⟨_, by rw [Table.lookup_modify_self, h, Option.map_some], rfl, rfl, ?_⟩
    cases active with
    | false => simp
    | true => by_cases hd : route.state = .disabled <;> simp [hd]

/-- Routes to other backends stay as they are. -/
theorem ensureRoute_other {now : Instant} {k : BackendId} (hk : k ≠ id) :
    (ensureRoute now priority id active routes).lookup k = routes.lookup k := by
  unfold ensureRoute
  cases routes.lookup id with
  | none => exact AList.lookup_insert_ne hk
  | some route => exact Table.lookup_modify_ne hk _ _

theorem RouteEnsured.other {now : Instant} {priority' : ℤ} {id' : BackendId} {active' : Bool}
    (h : RouteEnsured priority id active routes) (hid : id ≠ id') :
    RouteEnsured priority id active (ensureRoute now priority' id' active' routes) := by
  obtain ⟨route, hroute, hcolumns⟩ := h
  exact ⟨route, (ensureRoute_other hid).trans hroute, hcolumns⟩

theorem RouteEnsured.again (h : RouteEnsured priority id active routes) (now : Instant) :
    ensureRoute now priority id active routes = routes := by
  obtain ⟨route, hroute, hpriority, hweight, hstate⟩ := h
  rw [ensureRoute, hroute]
  refine Table.modify_eq_self fun route' hroute' => ?_
  obtain rfl := Option.some.inj (hroute.symm.trans hroute')
  obtain ⟨p, w, state, createdAt⟩ := route
  obtain rfl : p = priority := hpriority
  obtain rfl : w = 100 := hweight
  cases active with
  | false => simp_all
  | true => simp_all

end Routes

/-! ## Models -/

/-- The ids and aliases of the models. -/
def Faces.pairs (fs : Faces) : Rows Uuid String String := fun pk => (fs pk).map fun f => (f.modelId, f.modelAlias)

section Models

variable {env : Env} {settings : Settings} {e : ModelEntry} {models models' : Table Uuid ModelRow} {pk k : Uuid}
  {base : ModelRow}

theorem pairs_eq_some {fs : Faces} {row : String × Option String} (h : fs.pairs k = some row) :
    ∃ f, fs k = some f ∧ (f.modelId, f.modelAlias) = row := Option.map_eq_some_iff.mp h

theorem pairs_of_lookup {m : ModelRow} (h : models.lookup k = some m) :
    (faces models).pairs k = some (m.modelId, m.modelAlias) := by
  rw [Faces.pairs, faces, h]
  rfl

theorem lookup_of_pairs {row : String × Option String} (h : (faces models).pairs k = some row) :
    ∃ m, models.lookup k = some m ∧ (m.modelId, m.modelAlias) = row := by
  obtain ⟨f, hf, hrow⟩ := pairs_eq_some h
  obtain ⟨m, hm, rfl⟩ := faces_eq_some_iff.mp hf
  exact ⟨m, hm, hrow⟩

/-- The search for an entry is that for its pair. -/
theorem matches_iff_pair {m : ModelRow} : e.matches m = true ↔ Matches e.names (m.modelId, m.modelAlias) :=
  ModelEntry.matches_iff

theorem EntryStep.upserts (h : EntryStep env settings e models pk base models') :
    Upserts e.names (faces models).pairs pk base.modelId (faces models').pairs where
  origin := by
    rcases h.origin with hbase | ⟨hnone, rfl⟩
    · exact .inl ⟨_, pairs_of_lookup hbase⟩
    · refine .inr ⟨?_, rfl⟩
      rw [Faces.pairs, faces, hnone]
      rfl
  found := by
    rcases h.origin with hbase | ⟨-, rfl⟩
    · rcases ModelEntry.matches_iff.mp h.found with hid | halias
      · exact .inl hid
      · rw [pairs_of_lookup hbase, halias]
        exact .inr rfl
    · exact .inl rfl
  only := by
    intro j row hj hm
    obtain ⟨m, hm', rfl⟩ := lookup_of_pairs hj
    exact h.only j m hm' (matches_iff_pair.mpr hm)
  eq := by
    funext j
    rw [Faces.pairs, h.faces_eq]
    by_cases hj : j = pk
    · subst hj
      rw [Function.update_self, Function.update_self]
      rfl
    · rw [Function.update_of_ne hj, Function.update_of_ne hj]
      rfl

/-- The search for an entry whose pair comes first fails for no two models. -/
theorem ensureModelEntry_of_unsplit {names : List (String × String)}
    (h : Unsplit (e.names :: names) (faces models).pairs) (env : Env) (settings : Settings) :
    ∃ pk models', ensureModelEntry env settings e models = .ok (pk, models') :=
  ensureModelEntry_isOk fun _ _ _ _ hk hk' hm hm' =>
    h.search (pairs_of_lookup hk) (pairs_of_lookup hk') (matches_iff_pair.mp hm) (matches_iff_pair.mp hm')

end Models

/-! ### Columns and routes -/

/-- The columns that an entry writes, without the route. -/
def ModelEntry.put (settings : Settings) (e : ModelEntry) (m : ModelRow) : ModelRow :=
  { m with
    modelAlias := some e.modelAlias
    inferenceBackendId := some e.backend
    provider := .llamaCpp
    modelFile := e.modelFile
    contextLength := settings.maxContextTokens
    isActive := e.isActive
    isDefault := e.isDefault
    status := if e.isActive then "configured" else "optional-disabled"
    promptTemplate := detectPromptTemplate e.modelId e.modelFile (some e.modelAlias) e.metadata
    metadataJson := e.metadata }

/-- The columns of the model are those of the entry. -/
def ModelEntry.PutAt (settings : Settings) (e : ModelEntry) (models : Table Uuid ModelRow) (pk : Uuid) : Prop :=
  ∀ m, models.lookup pk = some m → e.put settings m = m

/-- The model has the route. -/
def HasRoute (priority : ℤ) (id : BackendId) (active : Bool) (models : Table Uuid ModelRow) (pk : Uuid) : Prop :=
  ∀ m, models.lookup pk = some m → RouteEnsured priority id active m.backendRoutes

section Columns

variable {env : Env} {settings : Settings} {e : ModelEntry} {models models' : Table Uuid ModelRow} {pk k : Uuid}
  {base : ModelRow} {priority : ℤ} {id : BackendId} {active : Bool}

/-- The entry of a model that has its route writes columns only. -/
theorem ModelEntry.write_eq_put {m : ModelRow} (h : RouteEnsured 1 e.backend e.backendActive m.backendRoutes) :
    e.write env settings m = e.put settings m := by
  rw [ModelEntry.write, ensureDefaultRoute, h.again]
  rfl

theorem EntryStep.putAt_self (h : EntryStep env settings e models pk base models') : e.PutAt settings models' pk := by
  intro m hm
  obtain rfl := Option.some.inj (h.self.symm.trans hm)
  rfl

theorem EntryStep.putAt_other {e' : ModelEntry} (h : EntryStep env settings e models pk base models')
    (hput : e'.PutAt settings models k) (hk : k ≠ pk) : e'.PutAt settings models' k :=
  fun m hm => hput m ((h.other k hk).symm.trans hm)

theorem EntryStep.hasRoute_self (h : EntryStep env settings e models pk base models') :
    HasRoute 1 e.backend e.backendActive models' pk := by
  intro m hm
  obtain rfl := Option.some.inj (h.self.symm.trans hm)
  exact ensureRoute_ensured _ _ _ _ _

/-- An entry leaves the routes to other backends. -/
theorem EntryStep.hasRoute_other (h : EntryStep env settings e models pk base models')
    (hroute : HasRoute priority id active models k) (hk : models.lookup k ≠ none) (hid : id ≠ e.backend) :
    HasRoute priority id active models' k := by
  intro m hm
  by_cases hkp : k = pk
  · subst hkp
    obtain rfl := Option.some.inj (h.self.symm.trans hm)
    rcases h.origin with hbase | ⟨hnone, -⟩
    · exact (hroute base hbase).other hid
    · exact absurd hnone hk
  · exact hroute m ((h.other k hkp).symm.trans hm)

/-- An entry with the same route leaves it. -/
theorem EntryStep.hasRoute_same {e' : ModelEntry} (h : EntryStep env settings e models pk base models')
    (hroute : HasRoute 1 e'.backend e'.backendActive models k) (hbackend : e'.backend = e.backend)
    (hactive : e'.backendActive = e.backendActive) : HasRoute 1 e'.backend e'.backendActive models' k := by
  by_cases hkp : k = pk
  · rw [hkp, hbackend, hactive]
    exact h.hasRoute_self
  · exact fun m hm => hroute m ((h.other k hkp).symm.trans hm)

/-- No entry takes a model away. -/
theorem EntryStep.lookup_ne_none (h : EntryStep env settings e models pk base models') (hk : models.lookup k ≠ none) :
    models'.lookup k ≠ none := by
  by_cases hkp : k = pk
  · rw [hkp, h.self]
    exact Option.some_ne_none _
  · rwa [h.other k hkp]

theorem ModelEntry.put_routes {m : ModelRow} (h : e.put settings m = m) (routes : Table BackendId RouteRow) :
    e.put settings { m with backendRoutes := routes } = { m with backendRoutes := routes } :=
  congrArg (fun x : ModelRow => { x with backendRoutes := routes }) h

/-- The fallback route changes no column. -/
theorem putAt_addFallback {t : Tables} (h : e.PutAt settings models k) :
    e.PutAt settings (addFallback env settings t pk models) k := by
  intro m hm
  by_cases hk : k = pk
  · subst hk
    obtain ⟨m', hm', rfl⟩ := Option.map_eq_some_iff.mp ((Table.lookup_modify_self _ _ _).symm.trans hm)
    exact ModelEntry.put_routes (h m' hm') _
  · exact h m ((Table.lookup_modify_ne hk _ _).symm.trans hm)

theorem hasRoute_addFallback_self (env : Env) (settings : Settings) (t : Tables) (pk : Uuid)
    (models : Table Uuid ModelRow) :
    HasRoute 2 (ensureDefaultBackends env settings t.backends).1.fallback
      (isActiveBackend (ensureDefaultBackends env settings t.backends).2
        (ensureDefaultBackends env settings t.backends).1.fallback) (addFallback env settings t pk models) pk := by
  intro m hm
  obtain ⟨m', -, rfl⟩ := Option.map_eq_some_iff.mp ((Table.lookup_modify_self _ _ _).symm.trans hm)
  exact ensureRoute_ensured _ _ _ _ _

theorem hasRoute_addFallback_other {t : Tables} (h : HasRoute priority id active models k)
    (hid : id ≠ (ensureDefaultBackends env settings t.backends).1.fallback) :
    HasRoute priority id active (addFallback env settings t pk models) k := by
  intro m hm
  by_cases hk : k = pk
  · subst hk
    obtain ⟨m', hm', rfl⟩ := Option.map_eq_some_iff.mp ((Table.lookup_modify_self _ _ _).symm.trans hm)
    exact (h m' hm').other hid
  · exact h m ((Table.lookup_modify_ne hk _ _).symm.trans hm)

/-- The last loop changes no route. -/
theorem hasRoute_clearDefaults {keep : Option Uuid} (h : HasRoute priority id active models k) :
    HasRoute priority id active (clearDefaults keep models) k := by
  intro m hm
  obtain ⟨m', hm', rfl⟩ := Option.map_eq_some_iff.mp ((Table.lookup_mapRows _ _ _).symm.trans hm)
  have hroute := h m' hm'
  split_ifs <;> exact hroute

/-- The last loop keeps the columns of an entry that is not to be the default. -/
theorem putAt_clearDefaults (h : e.PutAt settings models k) (hk : k = pk ∨ e.isDefault = false) :
    e.PutAt settings (clearDefaults (some pk) models) k := by
  intro m hm
  obtain ⟨m', hm', rfl⟩ := Option.map_eq_some_iff.mp ((Table.lookup_mapRows _ _ _).symm.trans hm)
  have hput := h m' hm'
  split_ifs with he
  · exact hput
  · have hdefault := hk.resolve_left fun hkp => he (congrArg some hkp.symm)
    rw [← hput, ← hdefault]
    rfl

theorem pairs_clear (fs : Faces) (keep : Option Uuid) : (fs.clear keep).pairs = fs.pairs := by
  funext k
  rw [Faces.pairs, Faces.pairs, Faces.clear, Option.map_map]
  congr 1
  funext f
  rw [Function.comp_apply]
  split_ifs <;> rfl

end Columns

/-- The seeded models are as `ensure_default_model` leaves them: each is found for its pair, and has the columns of the
last entry that was written to it and the routes of all. -/
structure ModelsSeeded (settings : Settings) (backends : Table BackendId BackendRow) (ids : SeededBackends)
    (models : Table Uuid ModelRow) (gemma bonsai bonzai : Uuid) : Prop where
  pairs : Settled
    [((bonzaiEntry settings backends ids.bonsai).names, bonzai), ((bonsaiEntry settings backends ids.bonsai).names, bonsai),
      ((gemmaEntry settings backends ids.gemma).names, gemma)] (faces models).pairs
  gemmaRoute : HasRoute 1 ids.gemma (isActiveBackend backends ids.gemma) models gemma
  fallbackRoute : HasRoute 2 ids.fallback (isActiveBackend backends ids.fallback) models gemma
  bonsaiRoute : HasRoute 1 ids.bonsai (isActiveBackend backends ids.bonsai) models bonsai
  bonzaiRoute : HasRoute 1 ids.bonsai (isActiveBackend backends ids.bonsai) models bonzai
  gemmaColumns : gemma ≠ bonsai → gemma ≠ bonzai → (gemmaEntry settings backends ids.gemma).PutAt settings models gemma
  bonsaiColumns : bonsai ≠ bonzai → (bonsaiEntry settings backends ids.bonsai).PutAt settings models bonsai
  bonzaiColumns : (bonzaiEntry settings backends ids.bonsai).PutAt settings models bonzai
  defaults : ∀ k m, models.lookup k = some m → k ≠ gemma → m.isDefault = false

section Ensured

variable {env : Env} {settings : Settings} {t t' : Tables}

/-- The later entries have other aliases. -/
theorem alias_ne_gemma (settings : Settings) (backends : Table BackendId BackendRow) (ids : SeededBackends) :
    ∀ n ∈ [(bonsaiEntry settings backends ids.bonsai).names, (bonzaiEntry settings backends ids.bonsai).names],
      n.2 ≠ "gemma" := by
  simp [ModelEntry.names, bonsaiEntry, bonzaiEntry]

theorem alias_ne_bonsai (settings : Settings) (backends : Table BackendId BackendRow) (ids : SeededBackends) :
    ∀ n ∈ [(bonzaiEntry settings backends ids.bonsai).names], n.2 ≠ "bonsai" := by
  simp [ModelEntry.names, bonzaiEntry]

/-- Under unsplit pairs, `ensure_default_model` comes to its end. -/
theorem ensureDefaultModel_of_unsplit (env : Env) (h : Unsplit (seedNames settings) (faces t.models).pairs) :
    ∃ t', ensureDefaultModel env settings t = .ok t' := by
  let ids := (ensureDefaultBackends env settings t.backends).1
  let backends := (ensureDefaultBackends env settings t.backends).2
  obtain ⟨gemma, models₁, h₁⟩ := ensureModelEntry_of_unsplit (e := gemmaEntry settings backends ids.gemma) h env settings
  obtain ⟨m₁, hs₁⟩ := entryStep_of_ok h₁
  have hu₁ := hs₁.upserts.unsplit h (alias_ne_gemma settings backends ids)
  rw [← faces_addFallback env settings t gemma] at hu₁
  obtain ⟨bonsai, models₂, h₂⟩ :=
    ensureModelEntry_of_unsplit (e := bonsaiEntry settings backends ids.bonsai) hu₁ env settings
  obtain ⟨m₂, hs₂⟩ := entryStep_of_ok h₂
  obtain ⟨bonzai, models₃, h₃⟩ := ensureModelEntry_of_unsplit (e := bonzaiEntry settings backends ids.bonsai)
    (hs₂.upserts.unsplit hu₁ (alias_ne_bonsai settings backends ids)) env settings
  refine ⟨{ t with backends, models := clearDefaults (some gemma) models₃ }, ?_⟩
  refine bind_eq_ok_iff.mpr ⟨(gemma, models₁), h₁, ?_⟩
  refine bind_eq_ok_iff.mpr ⟨(bonsai, models₂), h₂, ?_⟩
  exact bind_eq_ok_iff.mpr ⟨(bonzai, models₃), h₃, rfl⟩

/-- What `ensure_default_model` leaves. -/
theorem Ensured.modelsSeeded (h : Ensured env settings t t') (hu : Unsplit (seedNames settings) (faces t.models).pairs)
    (hb : BackendsSeeded settings t'.backends (ensureDefaultBackends env settings t.backends).1) :
    ∃ gemma bonsai bonzai, ModelsSeeded settings t'.backends (ensureDefaultBackends env settings t.backends).1 t'.models
      gemma bonsai bonzai := by
  obtain ⟨gemma, bonsai, bonzai, m₁, m₂, m₃, models₁, models₂, models₃, h₁, h₂, h₃, hmodels⟩ := h.steps
  rw [h.backends] at hb ⊢
  rw [hmodels]
  set ids := (ensureDefaultBackends env settings t.backends).1 with hids
  set backends := (ensureDefaultBackends env settings t.backends).2 with hbackends
  replace h₁ : EntryStep env settings (gemmaEntry settings backends ids.gemma) t.models gemma m₁ models₁ := h₁
  replace h₂ : EntryStep env settings (bonsaiEntry settings backends ids.bonsai)
    (addFallback env settings t gemma models₁) bonsai m₂ models₂ := h₂
  replace h₃ : EntryStep env settings (bonzaiEntry settings backends ids.bonsai) models₂ bonzai m₃ models₃ := h₃
  have hgb : ids.gemma ≠ ids.bonsai := hb.gemma.ne hb.bonsai (show "gemma-local" ≠ "bonsai-local" by decide)
  have hgf : ids.gemma ≠ ids.fallback := hb.gemma.ne hb.fallback (show "gemma-local" ≠ "fallback-local" by decide)
  have hbf : ids.fallback ≠ ids.bonsai := hb.fallback.ne hb.bonsai (show "fallback-local" ≠ "bonsai-local" by decide)
  have hgemma : models₁.lookup gemma ≠ none := by
    rw [h₁.self]
    exact Option.some_ne_none _
  have hgemma' : (addFallback env settings t gemma models₁).lookup gemma ≠ none := by
    rw [addFallback, Table.lookup_modify_self, h₁.self]
    exact Option.some_ne_none _
  have hgemma'' := h₂.lookup_ne_none hgemma'
  refine ⟨gemma, bonsai, bonzai, ?_, ?_, ?_, ?_, ?_, ?_, ?_, ?_, ?_⟩
  · rw [faces_clearDefaults, pairs_clear]
    have hp₁ : Progress [((gemmaEntry settings backends ids.gemma).names, gemma)]
        [(bonsaiEntry settings backends ids.bonsai).names, (bonzaiEntry settings backends ids.bonsai).names]
        (faces models₁).pairs :=
      (Progress.start hu).step h₁.upserts (alias_ne_gemma settings backends ids) (by simp)
    rw [← faces_addFallback env settings t gemma] at hp₁
    have hp₂ := hp₁.step h₂.upserts (alias_ne_bonsai settings backends ids)
      (by simp [ModelEntry.names, gemmaEntry, bonsaiEntry])
    exact (hp₂.step h₃.upserts (by simp) (by simp [ModelEntry.names, gemmaEntry, bonsaiEntry, bonzaiEntry])).settled
  · refine hasRoute_clearDefaults (h₃.hasRoute_other (h₂.hasRoute_other ?_ hgemma' hgb) hgemma'' hgb)
    exact hasRoute_addFallback_other h₁.hasRoute_self hgf
  · refine hasRoute_clearDefaults (h₃.hasRoute_other (h₂.hasRoute_other ?_ hgemma' hbf) hgemma'' hbf)
    exact hasRoute_addFallback_self env settings t gemma models₁
  · exact hasRoute_clearDefaults (h₃.hasRoute_same h₂.hasRoute_self rfl rfl)
  · exact hasRoute_clearDefaults h₃.hasRoute_self
  · intro hgb' hgz
    refine putAt_clearDefaults (h₃.putAt_other (h₂.putAt_other ?_ hgb') hgz) (.inl rfl)
    exact putAt_addFallback h₁.putAt_self
  · exact fun hbz => putAt_clearDefaults (h₃.putAt_other h₂.putAt_self hbz) (.inr rfl)
  · exact putAt_clearDefaults h₃.putAt_self (.inr rfl)
  · intro k m hm hk
    obtain ⟨m', -, rfl⟩ := Option.map_eq_some_iff.mp ((Table.lookup_mapRows _ _ _).symm.trans hm)
    rw [if_neg fun he => hk (Option.some.inj he).symm]

end Ensured

/-! ## The second time -/

section Again

variable {env : Env} {settings : Settings} {e : ModelEntry} {models : Table Uuid ModelRow} {pk k : Uuid}
  {t : Tables} {ids : SeededBackends} {gemma bonsai bonzai : Uuid}

/-- An entry that is settled is written to its model again. -/
theorem ensureModelEntry_of_settled {done : List ((String × String) × Uuid)} (h : Settled done (faces models).pairs)
    (hnd : (done.map fun p => p.1.2).Nodup) (hp : (e.names, pk) ∈ done) (env : Env) (settings : Settings) :
    ensureModelEntry env settings e models = .ok (pk, models.modify pk (e.write env settings)) ∧
      Settled done (faces (models.modify pk (e.write env settings))).pairs := by
  obtain ⟨row, hrow, hmatch⟩ := h.found hp
  obtain ⟨m, hm, rfl⟩ := lookup_of_pairs hrow
  have hok : ensureModelEntry env settings e models = .ok (pk, models.modify pk (e.write env settings)) :=
    ensureModelEntry_found hm (matches_iff_pair.mpr hmatch) fun k m' hk hm' =>
      h.only hp (pairs_of_lookup hk) (matches_iff_pair.mp hm')
  refine ⟨hok, ?_⟩
  obtain ⟨base, hstep⟩ := entryStep_of_ok hok
  rw [hstep.upserts.eq]
  rcases hstep.origin with hbase | ⟨hnone, -⟩
  · exact h.update hnd hp (pairs_of_lookup hbase)
  · rw [hm] at hnone
    cases hnone

/-- The writes of a second run leave the row as it is. -/
theorem ModelsSeeded.row (h : ModelsSeeded settings t.backends ids t.models gemma bonsai bonzai) {m : ModelRow}
    (hm : t.models.lookup k = some m) :
    let put₁ := if k = gemma then (gemmaEntry settings t.backends ids.gemma).put settings m else m
    let put₂ := if k = bonsai then (bonsaiEntry settings t.backends ids.bonsai).put settings put₁ else put₁
    let put₃ := if k = bonzai then (bonzaiEntry settings t.backends ids.bonsai).put settings put₂ else put₂
    (if some gemma = some k then put₃ else { put₃ with isDefault := false }) = m := by
  intro put₁ put₂ put₃
  have hput : put₃ = m := by
    by_cases hz : k = bonzai
    · have hlast : put₃ = (bonzaiEntry settings t.backends ids.bonsai).put settings m := by
        simp only [put₃, put₂, put₁, if_pos hz]
        split_ifs <;> rfl
      rw [hlast]
      exact h.bonzaiColumns m (hz ▸ hm)
    · by_cases hb : k = bonsai
      · have hlast : put₃ = (bonsaiEntry settings t.backends ids.bonsai).put settings m := by
          simp only [put₃, put₂, put₁, if_neg hz, if_pos hb]
          split_ifs <;> rfl
        rw [hlast]
        exact h.bonsaiColumns (hb ▸ hz) m (hb ▸ hm)
      · simp only [put₃, put₂, put₁, if_neg hz, if_neg hb]
        split_ifs with hg
        · exact h.gemmaColumns (hg ▸ hb) (hg ▸ hz) m (hg ▸ hm)
        · rfl
  rw [hput]
  split_ifs with hg
  · rfl
  · rw [← h.defaults k m hm fun he => hg (congrArg some he.symm)]

/-- The write of the fallback route. -/
def routeToFallback (env : Env) (backends : Table BackendId BackendRow) (ids : SeededBackends) (m : ModelRow) :
    ModelRow :=
  { m with
    backendRoutes := ensureFallbackRoute env.now ids.fallback (isActiveBackend backends ids.fallback) m.backendRoutes }

/-- All writes of a second run, route and columns, leave the row as it is. -/
theorem ModelsSeeded.writes (h : ModelsSeeded settings t.backends ids t.models gemma bonsai bonzai) (env : Env)
    {m : ModelRow} (hm : t.models.lookup k = some m) :
    let row₁ := if k = gemma then (gemmaEntry settings t.backends ids.gemma).write env settings m else m
    let row₂ := if k = gemma then routeToFallback env t.backends ids row₁ else row₁
    let row₃ := if k = bonsai then (bonsaiEntry settings t.backends ids.bonsai).write env settings row₂ else row₂
    let row₄ := if k = bonzai then (bonzaiEntry settings t.backends ids.bonsai).write env settings row₃ else row₃
    (if some gemma = some k then row₄ else { row₄ with isDefault := false }) = m := by
  intro row₁ row₂ row₃ row₄
  have hrow₁ : row₁ = if k = gemma then (gemmaEntry settings t.backends ids.gemma).put settings m else m :=
    if_ctx_congr Iff.rfl (fun hg => ModelEntry.write_eq_put (h.gemmaRoute m (hg ▸ hm))) fun _ => rfl
  have hroutes₁ : row₁.backendRoutes = m.backendRoutes := by
    rw [hrow₁]
    split_ifs <;> rfl
  have hrow₂ : row₂ = row₁ := by
    simp only [row₂]
    split_ifs with hg
    · rw [routeToFallback, ensureFallbackRoute, hroutes₁, (h.fallbackRoute m (hg ▸ hm)).again, ← hroutes₁]
    · rfl
  have hrow₃ : row₃ = if k = bonsai then (bonsaiEntry settings t.backends ids.bonsai).put settings row₂ else row₂ := by
    refine if_ctx_congr Iff.rfl (fun hb => ModelEntry.write_eq_put ?_) fun _ => rfl
    rw [hrow₂, hroutes₁]
    exact h.bonsaiRoute m (hb ▸ hm)
  have hroutes₃ : row₃.backendRoutes = m.backendRoutes := by
    rw [hrow₃, ← hroutes₁, ← hrow₂]
    split_ifs <;> rfl
  have hrow₄ : row₄ = if k = bonzai then (bonzaiEntry settings t.backends ids.bonsai).put settings row₃ else row₃ := by
    refine if_ctx_congr Iff.rfl (fun hz => ModelEntry.write_eq_put ?_) fun _ => rfl
    rw [hroutes₃]
    exact h.bonzaiRoute m (hz ▸ hm)
  rw [hrow₄, hrow₃, hrow₂, hrow₁]
  exact h.row hm

/-- **Run again, `ensure_default_model` changes nothing**. -/
theorem ModelsSeeded.again (h : ModelsSeeded settings t.backends ids t.models gemma bonsai bonzai)
    (hb : BackendsSeeded settings t.backends ids) (env : Env) : ensureDefaultModel env settings t = .ok t := by
  have hnd : ([((bonzaiEntry settings t.backends ids.bonsai).names, bonzai),
      ((bonsaiEntry settings t.backends ids.bonsai).names, bonsai),
      ((gemmaEntry settings t.backends ids.gemma).names, gemma)].map fun p => p.1.2).Nodup := by
    show ["bonzai", "bonsai", "gemma"].Nodup
    decide
  let write₁ := (gemmaEntry settings t.backends ids.gemma).write env settings
  let write₂ := (bonsaiEntry settings t.backends ids.bonsai).write env settings
  let write₃ := (bonzaiEntry settings t.backends ids.bonsai).write env settings
  obtain ⟨h₁, hs₁⟩ := ensureModelEntry_of_settled h.pairs hnd
    (List.mem_cons_of_mem _ (List.mem_cons_of_mem _ List.mem_cons_self)) env settings
  have hfaces : faces ((t.models.modify gemma write₁).modify gemma (routeToFallback env t.backends ids)) =
      faces (t.models.modify gemma write₁) := faces_modify_same fun _ => rfl
  rw [← hfaces] at hs₁
  obtain ⟨h₂, hs₂⟩ := ensureModelEntry_of_settled hs₁ hnd (List.mem_cons_of_mem _ List.mem_cons_self) env settings
  obtain ⟨h₃, -⟩ := ensureModelEntry_of_settled hs₂ hnd List.mem_cons_self env settings
  have hmodels : clearDefaults (some gemma) ((((t.models.modify gemma write₁).modify gemma
      (routeToFallback env t.backends ids)).modify bonsai write₂).modify bonzai write₃) = t.models := by
    refine Table.ext_of_keys (by simp [clearDefaults]) fun k => ?_
    cases hm : t.models.lookup k with
    | none => simp [clearDefaults, Table.modify, hm]
    | some m =>
      simp only [clearDefaults, Table.modify, Table.lookup_mapRows, hm, Option.map_some]
      exact congrArg some (h.writes env hm)
  rw [ensureDefaultModel, hb.again env]
  refine bind_eq_ok_iff.mpr ⟨_, h₁, bind_eq_ok_iff.mpr ⟨_, h₂, bind_eq_ok_iff.mpr ⟨_, h₃, ?_⟩⟩⟩
  exact congrArg (fun models => Except.ok { t with models }) hmodels

end Again

/-! ## Operations -/

/-- No seeded pair of an id and an alias is split between models. -/
def Faces.PairsWhole (settings : Settings) (fs : Faces) : Prop := Unsplit (seedNames settings) fs.pairs

/-- `ensure_default_model` completes and, run again, changes nothing. -/
def Registry.CanRestart (settings : Settings) (r : Registry) : Prop :=
  ∀ env, ∃ r', attempt settings r ⟨env, .ensureDefaultModel⟩ = .ok r' ∧
    ∀ env', attempt settings r' ⟨env', .ensureDefaultModel⟩ = .ok r'

/-- A creation, patch or deletion that is not refused leaves the seeded pairs whole. -/
def Step.KeepsPairs (settings : Settings) (r : Registry) (s : Step) : Prop :=
  match s.operation with
  | .createModel .. | .patchModel .. | .deleteModel .. =>
    (∃ r', attempt settings r s = .ok r') → (s.asked r).PairsWhole settings
  | _ => True

section Operations

variable {env : Env} {settings : Settings} {t t' : Tables} {r r' : Registry} {s : Step}

theorem uniqueBy_addFallback {β : Type} {column : ModelRow → Option β} {gemma : Uuid} {models : Table Uuid ModelRow}
    (h : models.UniqueBy column) (hcolumn : ∀ m routes, column { m with backendRoutes := routes } = column m) :
    (addFallback env settings t gemma models).UniqueBy column := by
  refine h.mapRows fun k m => ?_
  split_ifs
  · exact hcolumn m _
  · rfl

/-- Seeding keeps the unique columns. -/
theorem Ensured.constraints (h : Ensured env settings t t') (hc : Constraints t) : Constraints t' := by
  obtain ⟨gemma, bonsai, bonzai, m₁, m₂, m₃, models₁, models₂, models₃, h₁, h₂, h₃, hmodels⟩ := h.steps
  obtain ⟨hids₁, haliases₁⟩ := h₁.unique hc.modelIds hc.modelAliases
  obtain ⟨hids₂, haliases₂⟩ := h₂.unique (uniqueBy_addFallback hids₁ fun _ _ => rfl)
    (uniqueBy_addFallback haliases₁ fun _ _ => rfl)
  obtain ⟨hids₃, haliases₃⟩ := h₃.unique hids₂ haliases₂
  refine ⟨?_, ?_, ?_⟩
  · rw [h.backends]
    exact (ensureDefaultBackends_seeded env settings hc.backendNames).names
  · rw [hmodels]
    exact hids₃.mapRows fun k m => by split_ifs <;> rfl
  · rw [hmodels]
    exact haliases₃.mapRows fun k m => by split_ifs <;> rfl

/-- Seeding leaves the pairs whole, and running it again leaves all as it is. -/
theorem settles_of_attempt (hu : (faces r.models).PairsWhole settings)
    (h : attempt settings r ⟨env, .ensureDefaultModel⟩ = .ok r') :
    (faces r'.models).PairsWhole settings ∧ ∀ env', attempt settings r' ⟨env', .ensureDefaultModel⟩ = .ok r' := by
  have hensured := ensured_of_ok env settings (attempt_eq_ok_iff.mp h)
  have hbackends := ensureDefaultBackends_seeded env settings r.constraints.backendNames
  rw [← hensured.backends] at hbackends
  obtain ⟨gemma, bonsai, bonzai, hseeded⟩ := hensured.modelsSeeded hu hbackends
  refine ⟨hseeded.pairs.unsplit fun n hn => ?_, fun env' => attempt_eq_ok_iff.mpr (hseeded.again hbackends env')⟩
  simp only [seedNames, List.mem_cons, List.not_mem_nil, or_false] at hn
  rcases hn with rfl | rfl | rfl
  · exact ⟨gemma, by simp [ModelEntry.names, gemmaEntry]⟩
  · exact ⟨bonsai, by simp [ModelEntry.names, bonsaiEntry]⟩
  · exact ⟨bonzai, by simp [ModelEntry.names, bonzaiEntry, bonsaiEntry]⟩

/-- Under whole pairs, the control plane can start. -/
theorem Registry.canRestart (hu : (faces r.models).PairsWhole settings) : r.CanRestart settings := by
  intro env
  obtain ⟨t', ht'⟩ := ensureDefaultModel_of_unsplit env hu
  have hc := (ensured_of_ok env settings ht').constraints r.constraints
  have hattempt : attempt settings r ⟨env, .ensureDefaultModel⟩ = .ok ⟨t', hc⟩ := attempt_eq_ok_iff.mpr ht'
  exact ⟨⟨t', hc⟩, hattempt, (settles_of_attempt hu hattempt).2⟩

/-- Clearing defaults changes no pair. -/
theorem Faces.PairsWhole.clear {fs : Faces} (h : fs.PairsWhole settings) (keep : Option Uuid) :
    (fs.clear keep).PairsWhole settings := by
  rwa [Faces.PairsWhole, pairs_clear]

/-- A changed face with the old names. -/
theorem Faces.PairsWhole.set {fs : Faces} (h : fs.PairsWhole settings) (pk : Uuid) {g : Face → Face}
    (hg : ∀ f, (g f).modelId = f.modelId ∧ (g f).modelAlias = f.modelAlias) :
    (fs.set pk fun f => some (g f)).PairsWhole settings := by
  have hpairs : (fs.set pk fun f => some (g f)).pairs = fs.pairs := by
    funext k
    by_cases hk : k = pk
    · subst hk
      cases hf : fs k with
      | none => simp [Faces.pairs, Faces.set, hf]
      | some f => simp [Faces.pairs, Faces.set, hf, hg f]
    · simp [Faces.pairs, Faces.set, Function.update_of_ne hk]
  rwa [Faces.PairsWhole, hpairs]

/-- What an operation commits has whole pairs. -/
theorem Step.KeepsPairs.commits (h : s.KeepsPairs settings r) (hu : (faces r.models).PairsWhole settings) :
    ∀ r' ∈ registryCommits settings r s, (faces r'.models).PairsWhole settings := by
  intro r' hr'
  have hattempt := mem_registryCommits.mp hr'
  have hfaces := faces_of_attempt hattempt
  obtain ⟨env, op⟩ := s
  cases op with
  | createModel files payload =>
    rw [hfaces (by simp)]
    exact h ⟨r', hattempt⟩
  | patchModel files pk payload =>
    rw [hfaces (by simp)]
    exact h ⟨r', hattempt⟩
  | deleteModel pk payload deletedAt log hasJobs =>
    rw [hfaces (by simp)]
    exact h ⟨r', hattempt⟩
  | setDefaultModel pk =>
    rw [hfaces (by simp)]
    exact (hu.clear (some pk)).set pk fun f => ⟨rfl, rfl⟩
  | enableModel pk =>
    rw [hfaces (by simp)]
    exact hu.set pk fun f => ⟨rfl, rfl⟩
  | disableModel pk =>
    rw [hfaces (by simp)]
    exact hu.set pk fun f => ⟨rfl, rfl⟩
  | ensureDefaultModel => exact (settles_of_attempt hu hattempt).1
  | _ =>
    rw [hfaces (by simp)]
    exact hu

end Operations

/-- A database without models splits no pair. -/
theorem pairsWhole_empty (settings : Settings) (plans : List BillingPlan) :
    (faces (emptyRegistry plans).models).PairsWhole settings := by
  have hnone : ∀ k row, (faces (emptyRegistry plans).models).pairs k ≠ some row := by
    intro k row h
    cases h
  refine ⟨?_, ?_, ?_⟩
  · intro n _ j k r s hr
    exact absurd hr (hnone j r)
  · exact List.pairwise_of_forall fun n n' _ k row hrow => absurd hrow (hnone k row)
  · rintro n _ n' _ _ ⟨k, row, hrow, -⟩
    exact absurd hrow (hnone k row)

/-- **The control plane can always start again** in runs whose creations, patches and deletions leave the seeded pairs
whole. -/
theorem restart_settles (settings : Settings) (plans : List BillingPlan) (steps : List Step)
    (h : Along (commitStep (registryCommits settings)) (fun r s => s.KeepsPairs settings r) (emptyRegistry plans)
      steps) :
    ∀ r ∈ emptyRegistry plans :: history (registryCommits settings) (emptyRegistry plans) steps,
      r.CanRestart settings := by
  have hwhole := forall_history_of_along (fun r s hu hk => Step.KeepsPairs.commits hk hu)
    (pairsWhole_empty settings plans) h
  exact fun r hr => Registry.canRestart (hwhole r hr)

def startStep : Step := ⟨plainEnv, .ensureDefaultModel⟩

instance (settings : Settings) (models : Table Uuid ModelRow) : Decidable ((faces models).PairsWhole settings) :=
  decidableUnsplit (models.entries.map fun e => (e.1, e.2.modelId, e.2.modelAlias)) (by
    intro k row
    rw [List.mem_map]
    constructor
    · intro h
      obtain ⟨f, hf, rfl⟩ := Option.map_eq_some_iff.mp h
      obtain ⟨m, hm, rfl⟩ := faces_eq_some_iff.mp hf
      exact ⟨⟨k, m⟩, Table.mem_entries_iff.mpr hm, rfl⟩
    · rintro ⟨⟨k, m⟩, he, hrow⟩
      obtain ⟨rfl, rfl⟩ := Prod.mk.inj hrow
      exact Option.map_eq_some_iff.mpr ⟨m.face, faces_eq_some_iff.mpr ⟨m, Table.mem_entries_iff.mp he, rfl⟩, rfl⟩)

/-- A creation, a patch or a deletion. -/
def Operation.editsModel : Operation → Bool
  | .createModel .. | .patchModel .. | .deleteModel .. => true
  | _ => false

/-- What such an operation commits shows whether it leaves the pairs whole. -/
theorem keepsPairs_iff {settings : Settings} {r : Registry} {s : Step} :
    s.KeepsPairs settings r ↔ (s.operation.editsModel = true → ∀ r' ∈ registryCommits settings r s,
      (faces r'.models).PairsWhole settings) := by
  have hcommitted : s.operation ≠ .ensureDefaultModel → (((∃ r', attempt settings r s = .ok r') →
      (s.asked r).PairsWhole settings) ↔
        ∀ r' ∈ registryCommits settings r s, (faces r'.models).PairsWhole settings) := by
    intro hs
    constructor
    · intro h r' hr'
      rw [faces_of_attempt (mem_registryCommits.mp hr') hs]
      exact h ⟨r', mem_registryCommits.mp hr'⟩
    · rintro h ⟨r', hr'⟩
      rw [← faces_of_attempt hr' hs]
      exact h r' (mem_registryCommits.mpr hr')
  obtain ⟨env, op⟩ := s
  cases op with
  | createModel | patchModel | deleteModel =>
    refine (hcommitted nofun).trans ⟨fun h _ => h, fun h => h rfl⟩
  | _ => exact iff_of_true trivial fun hedits => absurd hedits Bool.false_ne_true

instance (settings : Settings) (r : Registry) (s : Step) : Decidable (s.KeepsPairs settings r) :=
  decidable_of_iff _ keepsPairs_iff.symm

theorem restart_settles_edited :
    (history (registryCommits plainSettings) (emptyRegistry []) namesRun).length = 6 ∧
      ∀ r ∈ emptyRegistry [] :: history (registryCommits plainSettings) (emptyRegistry []) namesRun,
        r.CanRestart plainSettings :=
  ⟨by decide +kernel, restart_settles plainSettings [] namesRun (by decide +kernel)⟩

/-- **A registry that cannot start again**: the first model loses its alias, and another one gets it. -/
theorem restart_fails :
    ¬ ∀ r ∈ emptyRegistry [] :: history (registryCommits plainSettings) (emptyRegistry [])
        [startStep, ⟨plainEnv, .patchModel (fun _ => .missing) ⟨"00000000", 1⟩ { modelAlias := some none }⟩,
          createStep (namedModel ⟨"a", by decide⟩ (some ⟨"gemma", by decide⟩))],
      r.CanRestart plainSettings := by
  have hfails : ∃ r ∈ emptyRegistry [] :: history (registryCommits plainSettings) (emptyRegistry [])
        [startStep, ⟨plainEnv, .patchModel (fun _ => .missing) ⟨"00000000", 1⟩ { modelAlias := some none }⟩,
          createStep (namedModel ⟨"a", by decide⟩ (some ⟨"gemma", by decide⟩))],
      (attempt plainSettings r startStep).isOk = false := by
    decide +kernel
  intro h
  obtain ⟨r, hr, hfail⟩ := hfails
  obtain ⟨r', hr', -⟩ := h r hr plainEnv
  rw [startStep, hr'] at hfail
  cases hfail

end LlmStore.Models
