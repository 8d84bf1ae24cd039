import Mathlib.Algebra.Ring.Int.Defs
import Mathlib.Data.Stream.Defs
import LlmStore.Models.Schema

/-!
# Routing a request

`plan_routing_order` draws the candidates of a model in a random order, by priority and weight. It tries all of them
and nothing else (`planRoutingOrder_perm`). The query of a job does not load the primary backend, and if the plan needs
it an exception ends the planning (`planLoaded_of_not_loaded`). `backends_routing` reports which rows may be used.

A disabled route carries no traffic as long as some row of the model is eligible. Without one, a model with an active
primary backend is routed to it by a made-up healthy route, also when its row is disabled (`disabled_idle_iff`).
-/

namespace LlmStore.Models

open LlmStore.Calendar LlmStore.Lib

/-! ## The order of the candidates -/

/-- The sums of the first weights. -/
def cumulative (weights : List ℤ) : List ℤ := (weights.scanl (· + ·) 0).tail

/-- The index that `rng.choices(bucket, weights=weights, k=1)` picks after drawing `x`: that of the first cumulative
weight above `x` times their total. -/
def choiceIndex (weights : List ℤ) (x : ℚ) : ℕ :=
  min ((cumulative weights).findIdx fun c => x * weights.sum < c) (weights.length - 1)

/-- The `while` loop over a bucket of at most `n` routes, with the numbers still to be drawn. -/
def drainBucket : ℕ → List ModelBackendRoute → Stream' ℚ → List ModelBackendRoute × Stream' ℚ
  | 0, _, draws => ([], draws)
  | _ + 1, [], draws => ([], draws)
  | _ + 1, [route], draws => ([route], draws)
  | n + 1, bucket, draws =>
    let i := choiceIndex (bucket.map fun item => max item.weight 1) draws.head
    let rest := drainBucket n (bucket.eraseIdx i) draws.tail
    (bucket[i]?.toList ++ rest.1, rest.2)

/-- The key of a group of routes. -/
def ModelBackendRoute.groupKey (r : ModelBackendRoute) : ℕ × ℤ := (r.state.order, r.priority)

/-- Keys compared as tuples. -/
def keyLe (a b : ℕ × ℤ) : Bool := if a.1 = b.1 then a.2 ≤ b.2 else a.1 < b.1

/-- The keys of `grouped`, sorted. -/
def groupKeys (routes : List ModelBackendRoute) : List (ℕ × ℤ) :=
  (routes.map ModelBackendRoute.groupKey).dedup.mergeSort keyLe

/-- The `for` loop over the sorted groups. -/
def drainGroups (routes : List ModelBackendRoute) : List (ℕ × ℤ) → Stream' ℚ → List ModelBackendRoute
  | [], _ => []
  | key :: keys, draws =>
    let bucket := routes.filter fun r => r.groupKey = key
    let drained := drainBucket bucket.length bucket draws
    drained.1 ++ drainGroups routes keys drained.2

/-- `plan_routing_order`; `draws` are the numbers that `rng` draws. -/
def planRoutingOrder (model : ModelRegistry) (draws : Stream' ℚ) : List ModelBackendRoute :=
  let routes := getRoutingCandidates model
  if routes.length ≤ 1 then routes else drainGroups routes (groupKeys routes) draws

/-! ### Nothing is lost and nothing is added -/

theorem choiceIndex_lt {weights : List ℤ} (h : weights ≠ []) (x : ℚ) : choiceIndex weights x < weights.length := by
  have hpos : 0 < weights.length := List.length_pos_iff.mpr h
  unfold choiceIndex
  omega

theorem drainBucket_perm (n : ℕ) : ∀ (bucket : List ModelBackendRoute) (draws : Stream' ℚ), bucket.length ≤ n →
    (drainBucket n bucket draws).1.Perm bucket := by
  induction n with
  | zero =>
    intro bucket draws hn
    obtain rfl := List.length_eq_zero_iff.mp (Nat.le_zero.mp hn)
    exact List.Perm.refl []
  | succ n ih =>
    intro bucket draws hn
    match bucket with
    | [] => exact List.Perm.refl []
    | [route] => exact List.Perm.refl [route]
    | a :: b :: rest =>
      let bucket := a :: b :: rest
      let i := choiceIndex (bucket.map fun item => max item.weight 1) draws.head
      have hi : i < bucket.length := by
        have hlt : i < (bucket.map fun item => max item.weight 1).length := choiceIndex_lt (by simp [bucket]) draws.head
        rwa [List.length_map] at hlt
      have hrest := ih (bucket.eraseIdx i) draws.tail (by
        rw [List.length_eraseIdx_of_lt hi]
        exact Nat.sub_le_of_le_add hn)
      show (bucket[i]?.toList ++ (drainBucket n (bucket.eraseIdx i) draws.tail).1).Perm bucket
      rw [List.getElem?_eq_getElem hi]
      exact (hrest.cons bucket[i]).trans (List.getElem_cons_eraseIdx_perm hi)

theorem mem_groupKeys {routes : List ModelBackendRoute} {key : ℕ × ℤ} :
    key ∈ groupKeys routes ↔ ∃ r ∈ routes, r.groupKey = key := by
  rw [groupKeys, List.mem_mergeSort, List.mem_dedup, List.mem_map]

theorem nodup_groupKeys (routes : List ModelBackendRoute) : (groupKeys routes).Nodup :=
  (List.mergeSort_perm _ _).nodup_iff.mpr (List.nodup_dedup _)

/-- The routes with a key in `keys`, in groups. -/
theorem drainGroups_perm (routes : List ModelBackendRoute) {keys : List (ℕ × ℤ)} (hnd : keys.Nodup)
    (draws : Stream' ℚ) :
    (drainGroups routes keys draws).Perm (routes.filter fun r => decide (r.groupKey ∈ keys)) := by
  induction keys generalizing draws with
  | nil => simp [drainGroups]
  | cons key keys ih =>
    obtain ⟨hkey, hnd⟩ := List.nodup_cons.mp hnd
    let bucket := routes.filter fun r => decide (r.groupKey = key)
    have hbucket := drainBucket_perm bucket.length bucket draws (le_refl _)
    have hkeys := ih hnd (drainBucket bucket.length bucket draws).2
    have hfirst : bucket = (routes.filter fun r => decide (r.groupKey ∈ key :: keys)).filter
        fun r => decide (r.groupKey = key) := by
      rw [List.filter_filter]
      refine List.filter_congr fun r _ => ?_
      by_cases hr : r.groupKey = key <;> simp [hr]
    have hothers : (routes.filter fun r => decide (r.groupKey ∈ keys)) =
        (routes.filter fun r => decide (r.groupKey ∈ key :: keys)).filter fun r => !decide (r.groupKey = key) := by
      rw [List.filter_filter]
      refine List.filter_congr fun r _ => ?_
      by_cases hr : r.groupKey = key
      · simp [hr, hkey]
      · simp [hr]
    rw [hothers] at hkeys
    show ((drainBucket bucket.length bucket draws).1 ++
      drainGroups routes keys (drainBucket bucket.length bucket draws).2).Perm _
    refine (hbucket.append hkeys).trans ?_
    rw [hfirst]
    exact List.filter_append_perm _ _

/-- **The order is one of all the candidates**, whatever numbers are drawn. -/
theorem planRoutingOrder_perm (model : ModelRegistry) (draws : Stream' ℚ) :
    (planRoutingOrder model draws).Perm (getRoutingCandidates model) := by
  unfold planRoutingOrder
  dsimp only
  split_ifs
  · exact List.Perm.refl _
  · refine (drainGroups_perm _ (nodup_groupKeys _) draws).trans ?_
    rw [List.filter_eq_self.mpr]
    intro r hr
    exact decide_eq_true (mem_groupKeys.mpr ⟨r, hr, rfl⟩)

/-! ## Rows that may be used -/

/-- The filter of `get_routing_candidates`. -/
def ModelBackendRoute.eligible (r : ModelBackendRoute) : Bool :=
  r.inferenceBackend.any (·.isActive) && r.state != .disabled

/-- The route that `get_routing_candidates` makes up. -/
def syntheticRoute (backend : InferenceBackend) : ModelBackendRoute :=
  { inferenceBackend := some backend, priority := 1, weight := 100, state := .healthy, createdAt := 0 }

/-- The candidates are the eligible rows or, if there are none, the made-up route to an active primary backend. -/
theorem mem_getRoutingCandidates {model : ModelRegistry} {r : ModelBackendRoute} :
    r ∈ getRoutingCandidates model ↔ (r ∈ model.backendRoutes ∧ r.eligible = true) ∨
      (∀ row ∈ model.backendRoutes, row.eligible = false) ∧
        ∃ backend, model.inferenceBackend = some backend ∧ backend.isActive = true ∧ r = syntheticRoute backend := by
  have hfilter : (model.backendRoutes.filter fun item =>
      item.inferenceBackend.any (·.isActive) && item.state != .disabled) =
        model.backendRoutes.filter ModelBackendRoute.eligible := rfl
  unfold getRoutingCandidates
  dsimp only
  rw [hfilter]
  cases hroutes : model.backendRoutes.filter ModelBackendRoute.eligible with
  | nil =>
    have hnone : ∀ row ∈ model.backendRoutes, row.eligible = false := by simpa using hroutes
    have hrow : ¬ (r ∈ model.backendRoutes ∧ r.eligible = true) := fun ⟨hr, he⟩ => by simp [hnone r hr] at he
    cases hprimary : model.inferenceBackend with
    | none => simp [hrow]
    | some backend =>
      by_cases hactive : backend.isActive = true
      · simp only [if_pos hactive, List.mem_singleton]
        constructor
        · intro hr
          exact .inr ⟨hnone, backend, rfl, hactive, hr⟩
        · rintro (h | ⟨-, _, hb, -, rfl⟩)
          · exact absurd h hrow
          · rw [← Option.some.inj hb]
            rfl
      · simp [hrow, hactive]
  | cons route routes =>
    have hmem : r ∈ route :: routes ↔ r ∈ model.backendRoutes ∧ r.eligible = true := by
      rw [← hroutes, List.mem_filter]
    have hroute : route ∈ model.backendRoutes ∧ route.eligible = true := by
      rw [← List.mem_filter, hroutes]
      exact List.mem_cons_self
    have hsome : ¬ ∀ row ∈ model.backendRoutes, row.eligible = false := fun h => by
      simp [h route hroute.1] at hroute
    rw [List.mem_mergeSort, hmem]
    simp [hsome]

/-- The routes of a model in any order that `plan_routing_order` may give are eligible. -/
theorem eligible_of_mem_planRoutingOrder {model : ModelRegistry} {draws : Stream' ℚ} {route : ModelBackendRoute}
    (h : route ∈ planRoutingOrder model draws) : route.eligible = true := by
  rcases mem_getRoutingCandidates.mp ((planRoutingOrder_perm model draws).mem_iff.mp h) with
    ⟨-, heligible⟩ | ⟨-, backend, -, hactive, rfl⟩
  · exact heligible
  · simp [ModelBackendRoute.eligible, syntheticRoute, hactive]

/-! ## A primary backend that is not loaded -/

/-- What ends the use of a relationship that is not loaded. -/
inductive LoadError where
  /-- `ensure_model_routing_loaded` has noticed it. -/
  | runtimeError
  /-- The attribute is read, and the asynchronous session cannot load it there. -/
  | missingGreenlet
  deriving DecidableEq, Repr

section Loading

variable (primaryLoaded : Bool)

/-- `ensure_model_routing_loaded(model, require_primary_backend=False)` for a model whose routes are loaded with their
backends. The query need not ask for `ModelRegistry.inference_backend`: `primaryLoaded` tells whether it is loaded
nevertheless, which is declared in `app.models`, outside the repository. The column `inference_backend_id` is null if
there is no primary backend. -/
def ensureModelRoutingLoaded (model : ModelRegistry) : Except LoadError Unit :=
  if model.backendRoutes.isEmpty && model.inferenceBackend.isSome && !primaryLoaded then .error .runtimeError
  else .ok ()

/-- A route of the model is to the backend, which is in the session then. -/
def ModelRegistry.hasRouteTo (model : ModelRegistry) (backend : InferenceBackend) : Bool :=
  model.backendRoutes.any fun row => row.inferenceBackend.any fun b => b.id = backend.id

/-- The attribute `model.inference_backend`: no query is made for a null column, nor for a row that the session has. -/
def readPrimary (model : ModelRegistry) : Except LoadError (Option InferenceBackend) :=
  match model.inferenceBackend with
  | none => .ok none
  | some backend => if primaryLoaded || model.hasRouteTo backend then .ok (some backend) else .error .missingGreenlet

/-- `plan_routing_order`, which reads the primary backend if no row is eligible. -/
def planLoaded (model : ModelRegistry) (draws : Stream' ℚ) : Except LoadError (List ModelBackendRoute) := do
  ensureModelRoutingLoaded primaryLoaded model
  if model.backendRoutes.any ModelBackendRoute.eligible then pure (planRoutingOrder model draws)
  else do
    let _ ← readPrimary primaryLoaded model
    pure (planRoutingOrder model draws)

/-- Nothing is missing: the primary backend is loaded, or there is none, or a row is eligible, or one is to it. -/
def RoutingLoaded (model : ModelRegistry) : Prop :=
  primaryLoaded = true ∨ ∀ backend ∈ model.inferenceBackend,
    model.backendRoutes.any ModelBackendRoute.eligible = true ∨ model.hasRouteTo backend = true

instance (model : ModelRegistry) : Decidable (RoutingLoaded primaryLoaded model) := by
  unfold RoutingLoaded
  infer_instance

variable {primaryLoaded} {model : ModelRegistry}

theorem any_of_isEmpty {p : ModelBackendRoute → Bool} (h : model.backendRoutes.isEmpty = true) :
    model.backendRoutes.any p = false := by
  rw [List.isEmpty_iff.mp h]
  rfl

/-- The order is planned if nothing is missing. -/
theorem planLoaded_of_loaded (h : RoutingLoaded primaryLoaded model) (draws : Stream' ℚ) :
    planLoaded primaryLoaded model draws = .ok (planRoutingOrder model draws) := by
  have hrows : ∀ backend, model.inferenceBackend = some backend → primaryLoaded = false →
      model.backendRoutes.any ModelBackendRoute.eligible = true ∨ model.hasRouteTo backend = true := by
    rintro backend hb hp
    rcases h with h | h
    · rw [hp] at h
      cases h
    · exact h backend hb
  have hensure : ensureModelRoutingLoaded primaryLoaded model = .ok () := by
    refine if_neg fun hmissing => ?_
    simp only [Bool.and_eq_true, Bool.not_eq_true', Option.isSome_iff_exists] at hmissing
    obtain ⟨⟨hempty, backend, hb⟩, hp⟩ := hmissing
    rcases hrows backend hb hp with h | h
    · rw [any_of_isEmpty hempty] at h
      cases h
    · rw [ModelRegistry.hasRouteTo, any_of_isEmpty hempty] at h
      cases h
  unfold planLoaded
  rw [hensure]
  show (if _ then _ else _) = _
  split_ifs with heligible
  · rfl
  · have hread : readPrimary primaryLoaded model = .ok model.inferenceBackend := by
      unfold readPrimary
      cases hb : model.inferenceBackend with
      | none => rfl
      | some backend =>
        refine if_pos ?_
        cases hp : primaryLoaded with
        | true => rfl
        | false => exact (hrows backend hb hp).resolve_left heligible
    rw [hread]
    rfl

/-- Otherwise an exception ends the planning. -/
theorem planLoaded_of_not_loaded (h : ¬ RoutingLoaded primaryLoaded model) (draws : Stream' ℚ) :
    ∃ e, planLoaded primaryLoaded model draws = .error e := by
  simp only [RoutingLoaded, not_or, not_forall, Option.mem_def] at h
  obtain ⟨hp, backend, hb, heligible, hroute⟩ := h
  unfold planLoaded ensureModelRoutingLoaded
  split_ifs with hmissing
  · exact ⟨.runtimeError, rfl⟩
  · refine ⟨.missingGreenlet, ?_⟩
    show (do let _ ← readPrimary primaryLoaded model; pure (planRoutingOrder model draws)) = _
    have hread : readPrimary primaryLoaded model = .error .missingGreenlet := by
      unfold readPrimary
      rw [hb]
      exact if_neg (by simp [hp, hroute])
    rw [hread]
    rfl

end Loading

/-! ## The report -/

/-- An entry of `routes` in the answer of `backends_routing`. -/
structure RoutingReport where
  backendId : BackendId
  backendName : String
  provider : String
  priority : ℤ
  weight : ℤ
  state : RouteState
  backendIsActive : Bool
  eligibleForRouting : Bool

/-- What `backends_routing` says of a row; a row without a backend is left out. -/
def reportRoute (route : ModelBackendRoute) : Option RoutingReport :=
  route.inferenceBackend.map fun backend =>
    { backendId := backend.id
      backendName := backend.name
      provider := backend.provider
      priority := route.priority
      weight := route.weight
      state := route.state
      backendIsActive := backend.isActive
      eligibleForRouting := backend.isActive && route.state != .disabled }

/-- The `routes` of a model in the answer of `backends_routing`. -/
def backendsRouting (model : ModelRegistry) : List RoutingReport :=
  (model.backendRoutes.mergeSort fun a b =>
    if a.priority ≠ b.priority then a.priority < b.priority
    else if a.weight ≠ b.weight then b.weight < a.weight
    else a.createdAt ≤ b.createdAt).filterMap reportRoute

theorem mem_backendsRouting {model : ModelRegistry} {report : RoutingReport} :
    report ∈ backendsRouting model ↔ ∃ row ∈ model.backendRoutes, reportRoute row = some report := by
  simp [backendsRouting, List.mem_filterMap]

/-! ## Disabled routes -/

section Disabled

variable (model : ModelRegistry) (draws : Stream' ℚ)

/-- Every row of a backend in the order is in another state than `disabled`. -/
def DisabledIdle : Prop :=
  ∀ r ∈ planRoutingOrder model draws, ∀ b ∈ r.inferenceBackend, ∀ row ∈ model.backendRoutes,
    ∀ b' ∈ row.inferenceBackend, b'.id = b.id → row.state ≠ .disabled

/-- Every row of a backend in the order is reported as eligible. -/
def ReportedEligible : Prop :=
  ∀ r ∈ planRoutingOrder model draws, ∀ b ∈ r.inferenceBackend, ∀ report ∈ backendsRouting model,
    report.backendId = b.id → report.eligibleForRouting = true

instance : Decidable (DisabledIdle model draws) := by unfold DisabledIdle; infer_instance

end Disabled

/-- The primary backend is active, its row is disabled, and no row of the model is eligible. -/
def DisabledPrimary (backends : Table BackendId BackendRow) (m : ModelRow) : Prop :=
  ∃ id b row, m.inferenceBackendId = some id ∧ backends.lookup id = some b ∧ b.isActive = true ∧
    m.backendRoutes.lookup id = some row ∧ row.state = .disabled ∧
    ∀ r ∈ (m.load backends).backendRoutes, r.eligible = false

section Load

variable {backends : Table BackendId BackendRow} {m : ModelRow}

/-- The rows of a backend of a candidate: the candidate itself, or the disabled one of the primary backend. -/
theorem row_of_candidate {r : ModelBackendRoute} (hr : r ∈ getRoutingCandidates (m.load backends))
    {b : InferenceBackend} (hb : r.inferenceBackend = some b) {row : ModelBackendRoute}
    (hrow : row ∈ (m.load backends).backendRoutes) {b' : InferenceBackend} (hb' : row.inferenceBackend = some b')
    (hid : b'.id = b.id) : row.eligible = true ∨ DisabledPrimary backends m ∧ row.state = .disabled := by
  obtain ⟨id', routeRow, hlookup', rfl⟩ := mem_load_backendRoutes.mp hrow
  obtain rfl := loadBackend_id hb'
  rcases mem_getRoutingCandidates.mp hr with ⟨hmem, he⟩ | ⟨hnone, primary, hprimary, hactive, rfl⟩
  · obtain ⟨id, routeRow', hlookup, rfl⟩ := mem_load_backendRoutes.mp hmem
    obtain rfl := loadBackend_id hb
    rw [hid, hlookup, Option.some.injEq] at hlookup'
    rw [hid, ← hlookup']
    exact .inl he
  · obtain rfl := Option.some.inj hb
    obtain ⟨id, hprimaryId, hload⟩ := Option.bind_eq_some_iff.mp hprimary
    obtain rfl := loadBackend_id hload
    obtain ⟨backendRow, hbackend, hrowLoad⟩ := Option.map_eq_some_iff.mp hload
    rw [hid] at hlookup' hb' hrow ⊢
    obtain rfl := Option.some.inj (hb'.symm.trans hload)
    have hstate : routeRow.state = .disabled := by
      have hne := hnone _ hrow
      simpa [ModelBackendRoute.eligible, RouteRow.load, hload, hactive] using hne
    refine .inr ⟨⟨_, backendRow, routeRow, hprimaryId, hbackend, ?_, hlookup', hstate, hnone⟩, hstate⟩
    rw [← hrowLoad] at hactive
    exact hactive

/-- A model whose primary backend has a disabled row and that has no eligible row is routed to it nevertheless. -/
theorem DisabledPrimary.candidate (h : DisabledPrimary backends m) :
    ∃ b row, syntheticRoute b ∈ getRoutingCandidates (m.load backends) ∧ row ∈ (m.load backends).backendRoutes ∧
      row.inferenceBackend = some b ∧ row.state = .disabled := by
  obtain ⟨id, b, row, hprimary, hb, hactive, hrow, hstate, hnone⟩ := h
  have hload : loadBackend backends id = some (b.load id) := by rw [loadBackend, hb, Option.map_some]
  refine ⟨b.load id, row.load backends id, ?_, mem_load_backendRoutes.mpr ⟨id, row, hrow, rfl⟩, hload, hstate⟩
  refine mem_getRoutingCandidates.mpr (.inr ⟨hnone, b.load id, ?_, hactive, rfl⟩)
  rw [ModelRow.load, hprimary]
  exact hload

/-- **A disabled route carries no traffic, and only rows that are reported as eligible are used, in precisely the
models** whose primary backend is not active with a disabled row while no row is eligible. -/
theorem disabled_idle_iff (backends : Table BackendId BackendRow) (m : ModelRow) (draws : Stream' ℚ) :
    (DisabledIdle (m.load backends) draws ↔ ¬ DisabledPrimary backends m) ∧
      (ReportedEligible (m.load backends) draws ↔ ¬ DisabledPrimary backends m) := by
  have hplan : ∀ r, r ∈ planRoutingOrder (m.load backends) draws ↔ r ∈ getRoutingCandidates (m.load backends) :=
    fun r => (planRoutingOrder_perm _ draws).mem_iff
  constructor
  · constructor
    · intro h hp
      obtain ⟨b, row, hr, hrow, hb, hstate⟩ := hp.candidate
      exact h _ ((hplan _).mpr hr) b rfl row hrow b hb rfl hstate
    · intro hp r hr b hb row hrow b' hb' hid hstate
      rcases row_of_candidate ((hplan r).mp hr) hb hrow hb' hid with he | ⟨hp', -⟩
      · simp [ModelBackendRoute.eligible, hstate] at he
      · exact hp hp'
  · constructor
    · intro h hp
      obtain ⟨b, row, hr, hrow, hb, hstate⟩ := hp.candidate
      obtain ⟨report, hreport, hid, hnot⟩ : ∃ report, reportRoute row = some report ∧ report.backendId = b.id ∧
          report.eligibleForRouting = false := by
        rw [reportRoute, hb, Option.map_some]
        exact ⟨_, rfl, rfl, by simp [hstate]⟩
      have he := h _ ((hplan _).mpr hr) b rfl report (mem_backendsRouting.mpr ⟨row, hrow, hreport⟩) hid
      rw [hnot] at he
      cases he
    · intro hp r hr b hb report hreport hid
      obtain ⟨row, hrow, hreport⟩ := mem_backendsRouting.mp hreport
      obtain ⟨b', hb', rfl⟩ := Option.map_eq_some_iff.mp hreport
      rcases row_of_candidate ((hplan r).mp hr) hb hrow hb' hid with he | ⟨hp', -⟩
      · simpa [ModelBackendRoute.eligible, hb'] using he
      · exact absurd hp' hp

end Load

/-! ### A disabled route that is used -/

/-- A model with one route, to its primary backend, that an administrator has disabled. -/
def disabledModel : ModelRow where
  modelId := "local/model"
  modelAlias := none
  inferenceBackendId := some 0
  provider := .vllm
  modelFile := "model"
  contextLength := 4096
  isActive := true
  isDefault := false
  status := "configured"
  promptTemplate := some "auto"
  metadataJson := .absent
  createdAt := 0
  backendRoutes := AList.singleton 0 { priority := 1, weight := 100, state := .disabled, createdAt := 0 }

/-- The one backend, active. -/
def localBackends : Table BackendId BackendRow :=
  AList.singleton 0
    { name := "local"
      provider := .vllm
      backendUrl := "http://local"
      healthcheckPath := "/health"
      isActive := true
      isDefault := false
      status := "configured"
      maxParallelRequests := 1
      metadataJson := .absent
      createdAt := 0 }

/-- **A disabled route carries traffic**: the request goes to the primary backend over the made-up route. -/
theorem disabled_used : ¬ DisabledIdle (disabledModel.load localBackends) (Stream'.const 0) := by
  decide

end LlmStore.Models
