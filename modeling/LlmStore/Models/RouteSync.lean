import LlmStore.Lib.RowLoops
import LlmStore.Models.Administration

/-!
# Route synchronisation

`_sync_model_backend_routes` on the rows of `model_backend_routes`, those of all models: a pass over the payload
changes the model's rows and adds new ones, against a map of the rows that were there at its start, then the rows whose
backends are not named are deleted, and the flush meets `uq_model_backend_route`. The map does not know the rows that
the pass adds, so a backend without a route that is named twice gets two of them. `sync_installs_routes` says that this
is all that goes wrong, and `sync_refines` that what is left of a model is what `syncModelBackendRoutes` computes.
-/

namespace LlmStore.Models.RouteRows

open LlmStore.Calendar LlmStore.Lib LlmStore.Lib.Table

/-! ## Rows -/

abbrev RouteId := ℕ

/-- A row of `model_backend_routes`. -/
structure Route where
  modelRegistryId : Uuid
  inferenceBackendId : BackendId
  priority : ℤ
  weight : ℤ
  state : RouteState
  createdAt : Instant
  updatedAt : Instant

/-- The columns of `uq_model_backend_route`. -/
def Route.key (route : Route) : Uuid × BackendId := (route.modelRegistryId, route.inferenceBackendId)

/-- What is committed. -/
structure Routes where
  rows : Table RouteId Route
  unique : rows.UniqueBy fun route => some route.key

/-! ## The code -/

/-- The `dict` of the rows of a model. -/
def existingRoutes (model : Uuid) (rows : Table RouteId Route) : Table BackendId RouteId :=
  (rows.select fun _ route => route.modelRegistryId = model).foldl
    (fun existing item => existing.insert item.2.inferenceBackendId item.1) ∅

/-- The session in the loop over the payload: the rows as their objects are, and what `session.add` was given. -/
structure Session where
  rows : Table RouteId Route
  added : List Route
  keepBackendIds : List BackendId

/-- `ModelBackendRoute(model_registry_id=model.id, **route_data)`. -/
def newRoute (now : Instant) (model : Uuid) (r : BackendRouteInput) : Route where
  modelRegistryId := model
  inferenceBackendId := r.inferenceBackendId
  priority := r.priority
  weight := r.weight
  state := r.state
  createdAt := now
  updatedAt := now

/-- The assignments to a row that is there. -/
def updateRoute (now : Instant) (r : BackendRouteInput) (route : Route) : Route :=
  { route with priority := r.priority, weight := r.weight, state := r.state, updatedAt := now }

section Code

variable (now : Instant) (backends : Table BackendId BackendRow) (ids : Source RouteId) (model : Uuid)

/-- The body of the loop. -/
def syncRouteData (existing : Table BackendId RouteId) (s : Session) (r : BackendRouteInput) :
    Except Failure Session :=
  if (backends.lookup r.inferenceBackendId).isNone then refuse 404 "backend not found"
  else
    let s := { s with keepBackendIds := r.inferenceBackendId :: s.keepBackendIds }
    match existing.lookup r.inferenceBackendId with
    | none => .ok { s with added := s.added ++ [newRoute now model r] }
    | some id => .ok { s with rows := s.rows.modify id (updateRoute now r) }

/-- The routes that are deleted. -/
def deletedRoutes (existing : Table BackendId RouteId) (keepBackendIds : List BackendId) : List RouteId :=
  (existing.entries.filter fun item => item.1 ∉ keepBackendIds).map (·.2)

/-- `_sync_model_backend_routes`, and the flush of the session: rows are inserted before others are deleted. -/
def syncModelBackendRoutes (routesPayload : List BackendRouteInput) (t : Routes) : Except Failure Routes := do
  let existing := existingRoutes model t.rows
  let s ← routesPayload.foldlM (syncRouteData now backends model existing) ⟨t.rows, [], []⟩
  let inserted := insertAll ids.next s.added s.rows
  if h : inserted.UniqueBy fun route => some route.key then
    return ⟨(deletedRoutes existing s.keepBackendIds).foldl (fun rows id => rows.erase id) inserted, h.foldl_erase _⟩
  else .error .integrityError

end Code

/-! ## The map of the existing rows -/

section Existing

variable {model : Uuid} {t : Routes} {b : BackendId} {id : RouteId}

theorem Routes.key_inj (t : Routes) {id id' : RouteId} {route route' : Route} (h : t.rows.lookup id = some route)
    (h' : t.rows.lookup id' = some route') (hk : route.key = route'.key) : id = id' :=
  uniqueBy_iff.mp t.unique id id' route route' route.key h h' rfl (congrArg some hk.symm)

/-- The row of a model and a backend. -/
def Routes.At (t : Routes) (model : Uuid) (b : BackendId) (id : RouteId) (route : Route) : Prop :=
  t.rows.lookup id = some route ∧ route.modelRegistryId = model ∧ route.inferenceBackendId = b

/-- A model has one row for a backend. -/
theorem Routes.At.unique {id' : RouteId} {route route' : Route} (h : t.At model b id route)
    (h' : t.At model b id' route') : id = id' ∧ route = route' := by
  obtain ⟨hlookup, hmodel, hb⟩ := h
  obtain ⟨hlookup', hmodel', hb'⟩ := h'
  obtain rfl := t.key_inj hlookup hlookup' (Prod.ext (hmodel.trans hmodel'.symm) (hb.trans hb'.symm))
  exact ⟨rfl, Option.some.inj (hlookup.symm.trans hlookup')⟩

theorem lookup_existingRoutes_iff :
    (existingRoutes model t.rows).lookup b = some id ↔ ∃ route, t.At model b id route := by
  have hnodup : ((t.rows.select fun _ route => route.modelRegistryId = model).map
      fun item => item.2.inferenceBackendId).Nodup := by
    rw [List.Nodup, List.pairwise_map]
    refine (List.NodupKeys.pairwise_ne t.rows.nodupKeys).filter _ |>.imp_of_mem fun {e e'} he he' hne heq => hne ?_
    obtain ⟨hlookup, hmodel⟩ := mem_select_iff.mp he
    obtain ⟨hlookup', hmodel'⟩ := mem_select_iff.mp he'
    refine t.key_inj hlookup hlookup' (Prod.ext ?_ heq)
    exact (of_decide_eq_true hmodel).trans (of_decide_eq_true hmodel').symm
  rw [existingRoutes, lookup_foldl_insert, AList.lookup_empty, Option.or_none, Option.map_eq_some_iff]
  constructor
  · rintro ⟨⟨id, route⟩, hlast, rfl⟩
    obtain ⟨hmem, hb⟩ := (lastWith_eq_some_iff hnodup).mp hlast
    obtain ⟨hlookup, hmodel⟩ := mem_select_iff.mp hmem
    exact ⟨route, hlookup, of_decide_eq_true hmodel, hb⟩
  · rintro ⟨route, hlookup, hmodel, hb⟩
    exact ⟨⟨id, route⟩, (lastWith_eq_some_iff hnodup).mpr ⟨mem_select_iff.mpr ⟨hlookup, decide_eq_true hmodel⟩, hb⟩,
      rfl⟩

theorem lookup_existingRoutes_none :
    (existingRoutes model t.rows).lookup b = none ↔ ∀ id route, ¬ t.At model b id route := by
  constructor
  · intro h id route hat
    rw [lookup_existingRoutes_iff.mpr ⟨route, hat⟩] at h
    cases h
  · intro h
    by_contra hne
    obtain ⟨id, hid⟩ := Option.ne_none_iff_exists'.mp hne
    obtain ⟨route, hat⟩ := lookup_existingRoutes_iff.mp hid
    exact h id route hat

end Existing

/-! ## The loop -/

section Loop

variable {now : Instant} {backends : Table BackendId BackendRow} {ids : Source RouteId} {model : Uuid} {t t' : Routes}
  {routesPayload : List BackendRouteInput} {b : BackendId} {id : RouteId} {route : Route} {r : BackendRouteInput}

/-- The last mention of a backend. -/
def lastMention (b : BackendId) (routesPayload : List BackendRouteInput) : Option BackendRouteInput :=
  lastWith BackendRouteInput.inferenceBackendId b routesPayload

/-- The payload without the backends that have a route. -/
def unrouted (existing : Table BackendId RouteId) (routesPayload : List BackendRouteInput) : List BackendRouteInput :=
  routesPayload.filter fun r => (existing.lookup r.inferenceBackendId).isNone

/-- The rows that are there, after the loop. -/
def updatedRows (now : Instant) (existing : Table BackendId RouteId) (routesPayload : List BackendRouteInput)
    (rows : Table RouteId Route) : Table RouteId Route :=
  routesPayload.foldl
    (fun rows r => (existing.lookup r.inferenceBackendId).elim rows fun id => rows.modify id (updateRoute now r)) rows

/-- The session after the loop, if all backends exist. -/
theorem foldlM_syncRouteData {existing : Table BackendId RouteId}
    (hb : ∀ r ∈ routesPayload, (backends.lookup r.inferenceBackendId).isSome) (s : Session) :
    routesPayload.foldlM (syncRouteData now backends model existing) s =
      .ok ⟨updatedRows now existing routesPayload s.rows,
        s.added ++ (unrouted existing routesPayload).map (newRoute now model),
        (routesPayload.map (·.inferenceBackendId)).reverse ++ s.keepBackendIds⟩ := by
  induction routesPayload generalizing s with
  | nil => simp [updatedRows, unrouted, pure, Except.pure]
  | cons r rest ih =>
    have hsome : ¬ (backends.lookup r.inferenceBackendId).isNone = true := by
      simpa [Option.isSome_iff_ne_none] using hb r List.mem_cons_self
    have hrest := ih fun r' hr' => hb r' (List.mem_cons_of_mem _ hr')
    rw [List.foldlM_cons, syncRouteData, if_neg hsome]
    cases hexisting : existing.lookup r.inferenceBackendId with
    | none =>
      refine (hrest _).trans ?_
      simp [updatedRows, unrouted, hexisting]
    | some id =>
      refine (hrest _).trans ?_
      simp [updatedRows, unrouted, hexisting]

/-- A row of another model is left as it is; one of the model has the values of the last mention of its backend. -/
theorem lookup_updatedRows (ht : t.rows.lookup id = some route) :
    (updatedRows now (existingRoutes model t.rows) routesPayload t.rows).lookup id =
      some (if route.modelRegistryId = model then
        ((lastMention route.inferenceBackendId routesPayload).map fun r => updateRoute now r route).getD route
        else route) := by
  have hkey : ∀ r : BackendRouteInput,
      (existingRoutes model t.rows).lookup r.inferenceBackendId = some id ↔
        route.modelRegistryId = model ∧ r.inferenceBackendId = route.inferenceBackendId := by
    intro r
    rw [lookup_existingRoutes_iff]
    constructor
    · rintro ⟨route', hlookup, hmodel, hb⟩
      obtain rfl := Option.some.inj (hlookup.symm.trans ht)
      exact ⟨hmodel, hb.symm⟩
    · rintro ⟨hmodel, hb⟩
      exact ⟨route, ht, hmodel, hb.symm⟩
  rw [updatedRows, lookup_foldl_modify (f := updateRoute now) _ fun _ _ _ => rfl, ht, Option.map_some]
  congr 1
  split_ifs with hmodel
  · rw [lastMention, lastWith, lastWith]
    simp only [hkey, hmodel, true_and]
  · rw [lastWith]
    simp only [hkey, hmodel, false_and, decide_false, List.filter_false, List.getLast?_nil, Option.map_none,
      Option.getD_none]

theorem lookup_updatedRows_none (ht : t.rows.lookup id = none) :
    (updatedRows now (existingRoutes model t.rows) routesPayload t.rows).lookup id = none := by
  rw [updatedRows, lookup_foldl_modify (f := updateRoute now) _ fun _ _ _ => rfl, ht]
  rfl

/-- The loop keeps the columns of the key. -/
theorem key_updatedRows {w : Route}
    (h : (updatedRows now (existingRoutes model t.rows) routesPayload t.rows).lookup id = some w) :
    ∃ route, t.rows.lookup id = some route ∧ w.key = route.key := by
  cases ht : t.rows.lookup id with
  | none =>
    rw [lookup_updatedRows_none ht] at h
    cases h
  | some route =>
    rw [lookup_updatedRows ht, Option.some.injEq] at h
    refine ⟨route, rfl, ?_⟩
    subst h
    split_ifs
    · cases lastMention route.inferenceBackendId routesPayload <;> rfl
    · rfl

/-- Two new rows for one backend meet the unique key, and nothing else does. -/
theorem unique_inserted_iff (now : Instant) (ids : Source RouteId) :
    (insertAll ids.next ((unrouted (existingRoutes model t.rows) routesPayload).map (newRoute now model))
        (updatedRows now (existingRoutes model t.rows) routesPayload t.rows)).UniqueBy (fun route => some route.key) ↔
      ((unrouted (existingRoutes model t.rows) routesPayload).map (·.inferenceBackendId)).Nodup := by
  have hkeys : ((unrouted (existingRoutes model t.rows) routesPayload).map (newRoute now model)).map Route.key =
      ((unrouted (existingRoutes model t.rows) routesPayload).map (·.inferenceBackendId)).map (Prod.mk model) := by
    rw [List.map_map, List.map_map]
    rfl
  rw [uniqueBy_insertAll_iff ids.fresh, hkeys, List.nodup_map_iff (Prod.mk_right_injective model)]
  refine ⟨fun h => h.2.1, fun h => ⟨?_, h, ?_⟩⟩
  · rw [uniqueBy_iff]
    intro k k' v v' b hv hv' hb hb'
    obtain ⟨route, ht, hkey⟩ := key_updatedRows hv
    obtain ⟨route', ht', hkey'⟩ := key_updatedRows hv'
    refine t.key_inj ht ht' ?_
    rw [← hkey, ← hkey']
    exact (Option.some.inj hb).trans (Option.some.inj hb').symm
  · intro v hv k w hw he
    obtain ⟨r, hr, rfl⟩ := List.mem_map.mp hv
    obtain ⟨route, ht, hkey⟩ := key_updatedRows hw
    have hnone := (List.mem_filter.mp hr).2
    rw [Option.isNone_iff_eq_none, lookup_existingRoutes_none] at hnone
    have hpair : route.key = (model, r.inferenceBackendId) := hkey.symm.trans he
    exact hnone k route ⟨ht, congrArg Prod.fst hpair, congrArg Prod.snd hpair⟩

theorem mem_deletedRoutes_iff {existing : Table BackendId RouteId} {keep : List BackendId} :
    id ∈ deletedRoutes existing keep ↔ ∃ b, existing.lookup b = some id ∧ b ∉ keep := by
  rw [deletedRoutes, List.mem_map]
  constructor
  · rintro ⟨⟨b, id⟩, he, rfl⟩
    obtain ⟨hmem, hnot⟩ := List.mem_filter.mp he
    exact ⟨b, mem_entries_iff.mp hmem, of_decide_eq_true hnot⟩
  · rintro ⟨b, hlookup, hnot⟩
    exact ⟨⟨b, id⟩, List.mem_filter.mpr ⟨mem_entries_iff.mpr hlookup, decide_eq_true hnot⟩, rfl⟩

/-- The rows that a synchronisation commits. -/
def syncedRows (now : Instant) (ids : Source RouteId) (model : Uuid) (t : Routes)
    (routesPayload : List BackendRouteInput) : Table RouteId Route :=
  let existing := existingRoutes model t.rows
  (deletedRoutes existing ((routesPayload.map (·.inferenceBackendId)).reverse ++ [])).foldl
    (fun rows id => rows.erase id)
    (insertAll ids.next ((unrouted existing routesPayload).map (newRoute now model))
      (updatedRows now existing routesPayload t.rows))

/-- **What a synchronisation commits**, if all backends exist. -/
theorem syncModelBackendRoutes_eq_ok_iff
    (hb : ∀ r ∈ routesPayload, (backends.lookup r.inferenceBackendId).isSome) :
    syncModelBackendRoutes now backends ids model routesPayload t = .ok t' ↔
      ((unrouted (existingRoutes model t.rows) routesPayload).map (·.inferenceBackendId)).Nodup ∧
        t'.rows = syncedRows now ids model t routesPayload := by
  rw [syncModelBackendRoutes, foldlM_syncRouteData hb, ← unique_inserted_iff now ids]
  show (dite _ _ _ = _) ↔ _
  rw [List.nil_append]
  split_ifs with h
  · constructor
    · intro he
      cases he
      exact ⟨h, rfl⟩
    · rintro ⟨-, hrows⟩
      obtain ⟨rows, unique⟩ := t'
      obtain rfl : rows = _ := hrows
      rfl
  · constructor
    · intro he
      cases he
    · rintro ⟨h', -⟩
      exact absurd h' h

/-- A synchronisation without two new rows for one backend commits. -/
theorem exists_synced (now : Instant) (ids : Source RouteId)
    (hb : ∀ r ∈ routesPayload, (backends.lookup r.inferenceBackendId).isSome)
    (h : ((unrouted (existingRoutes model t.rows) routesPayload).map (·.inferenceBackendId)).Nodup) :
    ∃ t', syncModelBackendRoutes now backends ids model routesPayload t = .ok t' ∧
      t'.rows = syncedRows now ids model t routesPayload := by
  have hunique := (unique_inserted_iff now ids).mpr h
  exact ⟨⟨_, hunique.foldl_erase _⟩, (syncModelBackendRoutes_eq_ok_iff hb).mpr ⟨h, rfl⟩, rfl⟩

/-- Two new rows for one backend end in a violation of the unique key. -/
theorem syncModelBackendRoutes_integrityError
    (hb : ∀ r ∈ routesPayload, (backends.lookup r.inferenceBackendId).isSome)
    (h : ¬ ((unrouted (existingRoutes model t.rows) routesPayload).map (·.inferenceBackendId)).Nodup) :
    syncModelBackendRoutes now backends ids model routesPayload t = .error .integrityError := by
  rw [← unique_inserted_iff now ids] at h
  rw [syncModelBackendRoutes, foldlM_syncRouteData hb]
  exact dif_neg h

/-- The row is one of the model, for a backend that is not named. -/
def Unnamed (t : Routes) (model : Uuid) (routesPayload : List BackendRouteInput) (id : RouteId) : Prop :=
  ∃ b route, t.At model b id route ∧ b ∉ routesPayload.map (·.inferenceBackendId)

/-- The rows are those of the loop, without the unnamed ones. -/
theorem lookup_syncedRows_iff :
    (syncedRows now ids model t routesPayload).lookup id = some route ↔ ¬ Unnamed t model routesPayload id ∧
      (insertAll ids.next ((unrouted (existingRoutes model t.rows) routesPayload).map (newRoute now model))
        (updatedRows now (existingRoutes model t.rows) routesPayload t.rows)).lookup id = some route := by
  have hdeleted : id ∈ deletedRoutes (existingRoutes model t.rows)
      ((routesPayload.map (·.inferenceBackendId)).reverse ++ []) ↔ Unnamed t model routesPayload id := by
    rw [mem_deletedRoutes_iff, List.append_nil]
    constructor
    · rintro ⟨b, hlookup, hnot⟩
      obtain ⟨route, hat⟩ := lookup_existingRoutes_iff.mp hlookup
      exact ⟨b, route, hat, fun hmem => hnot (List.mem_reverse.mpr hmem)⟩
    · rintro ⟨b, route, hat, hnot⟩
      exact ⟨b, lookup_existingRoutes_iff.mpr ⟨route, hat⟩, fun hmem => hnot (List.mem_reverse.mp hmem)⟩
  rw [syncedRows, lookup_foldl_erase, ← hdeleted]
  split_ifs with hmem
  · simp only [hmem, not_true_eq_false, false_and]
  · simp only [hmem, not_false_eq_true, true_and]

/-- Rows of other models stay as they are. -/
theorem lookup_syncedRows_of_ne (hmodel : route.modelRegistryId ≠ model) :
    (syncedRows now ids model t routesPayload).lookup id = some route ↔ t.rows.lookup id = some route := by
  rw [lookup_syncedRows_iff]
  constructor
  · rintro ⟨-, h⟩
    rcases lookup_insertAll_cases ids.fresh h with hold | ⟨-, hnew⟩
    · obtain ⟨route', ht, hkey⟩ := key_updatedRows hold
      have hmodel' : route'.modelRegistryId ≠ model := fun he => hmodel ((congrArg Prod.fst hkey).trans he)
      rw [lookup_updatedRows ht, if_neg hmodel'] at hold
      rwa [← hold]
    · obtain ⟨r, -, rfl⟩ := List.mem_map.mp hnew
      exact absurd rfl hmodel
  · intro ht
    refine ⟨?_, lookup_insertAll_of_lookup ids.fresh ?_⟩
    · rintro ⟨b, route', ⟨hlookup, hmodel', -⟩, -⟩
      obtain rfl := Option.some.inj (hlookup.symm.trans ht)
      exact hmodel hmodel'
    · rw [lookup_updatedRows ht, if_neg hmodel]

/-- A row whose backend is named gets the values of the last mention. -/
theorem lookup_syncedRows_of_at (hat : t.At model b id route) (hr : lastMention b routesPayload = some r) :
    (syncedRows now ids model t routesPayload).lookup id = some (updateRoute now r route) := by
  obtain ⟨ht, hmodel, rfl⟩ := hat
  rw [lookup_syncedRows_iff]
  refine ⟨?_, lookup_insertAll_of_lookup ids.fresh ?_⟩
  · rintro ⟨b, route', ⟨hlookup, -, rfl⟩, hnot⟩
    obtain rfl := Option.some.inj (hlookup.symm.trans ht)
    exact hnot (List.mem_map.mpr ⟨r, (key_of_lastWith hr).2, (key_of_lastWith hr).1⟩)
  · rw [lookup_updatedRows ht, if_pos hmodel, hr]
    rfl

/-- A backend without a row that is named gets one. -/
theorem exists_lookup_syncedRows (now : Instant) (ids : Source RouteId)
    (hfree : ∀ id route, ¬ t.At model b id route) (hr : lastMention b routesPayload = some r) :
    ∃ id, (syncedRows now ids model t routesPayload).lookup id = some (newRoute now model r) := by
  obtain ⟨rfl, hmem⟩ := key_of_lastWith hr
  have hadded : newRoute now model r ∈
      (unrouted (existingRoutes model t.rows) routesPayload).map (newRoute now model) := by
    refine List.mem_map_of_mem (List.mem_filter.mpr ⟨hmem, ?_⟩)
    rw [Option.isNone_iff_eq_none]
    exact lookup_existingRoutes_none.mpr hfree
  obtain ⟨id, hnone, hlookup⟩ := exists_lookup_insertAll ids.fresh
    (updatedRows now (existingRoutes model t.rows) routesPayload t.rows) hadded
  refine ⟨id, lookup_syncedRows_iff.mpr ⟨?_, hlookup⟩⟩
  rintro ⟨b, route, ⟨ht, -, -⟩, -⟩
  rw [lookup_updatedRows ht] at hnone
  cases hnone

/-- **The row of a backend that is named** is the old one with the values of the last mention, or a new one. -/
theorem exists_at_of_mention (h : t'.rows = syncedRows now ids model t routesPayload)
    (hr : lastMention b routesPayload = some r) : ∃ id route', t'.At model b id route' ∧
      ((∃ route, t.At model b id route ∧ route' = updateRoute now r route) ∨
        (∀ id route, ¬ t.At model b id route) ∧ route' = newRoute now model r) := by
  by_cases hex : ∃ id route, t.At model b id route
  · obtain ⟨id, route, hat⟩ := hex
    refine ⟨id, updateRoute now r route, ⟨?_, hat.2⟩, .inl ⟨route, hat, rfl⟩⟩
    rw [h]
    exact lookup_syncedRows_of_at hat hr
  · have hfree : ∀ id route, ¬ t.At model b id route := fun id route hat => hex ⟨id, route, hat⟩
    obtain ⟨id, hlookup⟩ := exists_lookup_syncedRows now ids hfree hr
    refine ⟨id, newRoute now model r, ⟨?_, rfl, (key_of_lastWith hr).1⟩, .inr ⟨hfree, rfl⟩⟩
    rw [h]
    exact hlookup

/-- The backends of the model's rows are named. -/
theorem named_of_lookup_syncedRows (h : (syncedRows now ids model t routesPayload).lookup id = some route)
    (hmodel : route.modelRegistryId = model) :
    route.inferenceBackendId ∈ routesPayload.map (·.inferenceBackendId) := by
  obtain ⟨hkept, h⟩ := lookup_syncedRows_iff.mp h
  rcases lookup_insertAll_cases ids.fresh h with hold | ⟨-, hnew⟩
  · obtain ⟨route', ht, hkey⟩ := key_updatedRows hold
    by_contra hnot
    exact hkept ⟨_, route', ⟨ht, (congrArg Prod.fst hkey).symm.trans hmodel, (congrArg Prod.snd hkey).symm⟩, hnot⟩
  · obtain ⟨r, hr, rfl⟩ := List.mem_map.mp hnew
    exact List.mem_map_of_mem (List.mem_filter.mp hr).1

end Loop

/-! ## Requested routes -/

section Installed

/-- The routes of the model are those of the payload, one for each backend with the values of its last mention, and
those of other models are as they were. -/
structure Installed (model : Uuid) (routesPayload : List BackendRouteInput) (t t' : Routes) : Prop where
  named : ∀ b r, lastMention b routesPayload = some r → ∃ id route, t'.At model b id route ∧
    route.priority = r.priority ∧ route.weight = r.weight ∧ route.state = r.state ∧
    ∀ id' route', t'.At model b id' route' → id' = id
  gone : ∀ b id route, t'.At model b id route → b ∈ routesPayload.map (·.inferenceBackendId)
  others : ∀ id route, route.modelRegistryId ≠ model →
    (t'.rows.lookup id = some route ↔ t.rows.lookup id = some route)

variable {now : Instant} {backends : Table BackendId BackendRow} {ids : Source RouteId} {model : Uuid} {t t' : Routes}
  {routesPayload : List BackendRouteInput} {b : BackendId}

theorem installed_of_rows (h : t'.rows = syncedRows now ids model t routesPayload) :
    Installed model routesPayload t t' where
  named b r hr := by
    obtain ⟨id, route', hat', hcase⟩ := exists_at_of_mention h hr
    refine ⟨id, route', hat', ?_, ?_, ?_, fun id' route hat => (hat.unique hat').1⟩
    all_goals obtain ⟨route, -, rfl⟩ | ⟨-, rfl⟩ := hcase <;> rfl
  gone b id route hat := by
    obtain ⟨hlookup, hmodel, rfl⟩ := hat
    rw [h] at hlookup
    exact named_of_lookup_syncedRows hlookup hmodel
  others id route hmodel := by
    rw [h]
    exact lookup_syncedRows_of_ne hmodel

/-- A backend is left in the payload as often as it is there, or not at all. -/
theorem count_unrouted (existing : Table BackendId RouteId) (routesPayload : List BackendRouteInput) (b : BackendId) :
    ((unrouted existing routesPayload).map (·.inferenceBackendId)).count b =
      if existing.lookup b = none then (routesPayload.map (·.inferenceBackendId)).count b else 0 := by
  induction routesPayload with
  | nil => simp [unrouted]
  | cons r rest ih =>
    rw [unrouted, List.filter_cons]
    by_cases hr : r.inferenceBackendId = b
    · subst hr
      by_cases hnone : existing.lookup r.inferenceBackendId = none
      · rw [if_pos hnone] at ih ⊢
        rw [if_pos (by simp [hnone]), List.map_cons, List.map_cons, List.count_cons_self, List.count_cons_self]
        exact congrArg Nat.succ ih
      · rw [if_neg hnone] at ih ⊢
        rw [if_neg (by simpa using hnone)]
        exact ih
    · rw [List.map_cons, List.count_cons_of_ne hr]
      split_ifs at ih ⊢
      · rw [List.map_cons, List.count_cons_of_ne hr]
        exact ih
      · rw [List.map_cons, List.count_cons_of_ne hr]
        exact ih
      · exact ih
      · exact ih

/-- New rows are for distinct backends exactly if every backend that is named twice has a row. -/
theorem nodup_unrouted_iff :
    ((unrouted (existingRoutes model t.rows) routesPayload).map (·.inferenceBackendId)).Nodup ↔
      ∀ b, 1 < (routesPayload.map (·.inferenceBackendId)).count b → ∃ id route, t.At model b id route := by
  rw [List.nodup_iff_count_le_one]
  refine forall_congr' fun b => ?_
  rw [count_unrouted]
  have hex : (existingRoutes model t.rows).lookup b = none ↔ ¬ ∃ id route, t.At model b id route := by
    rw [lookup_existingRoutes_none]
    push Not
    rfl
  by_cases hnone : (existingRoutes model t.rows).lookup b = none
  · rw [if_pos hnone]
    have hno := hex.mp hnone
    constructor
    · intro hle hlt
      omega
    · intro hall
      by_contra hlt
      exact hno (hall (by omega))
  · rw [if_neg hnone]
    have hyes := not_not.mp (mt hex.mpr hnone)
    exact ⟨fun _ _ => hyes, fun _ => Nat.zero_le 1⟩

end Installed

/-- **Synchronisation installs the requested routes exactly if every backend that is named twice has a route**: else it
ends in a violation of the unique key. -/
theorem sync_installs_routes (now : Instant) (backends : Table BackendId BackendRow) (ids : Source RouteId)
    (model : Uuid) (routesPayload : List BackendRouteInput) (t : Routes)
    (hb : ∀ r ∈ routesPayload, (backends.lookup r.inferenceBackendId).isSome) :
    (∃ t', syncModelBackendRoutes now backends ids model routesPayload t = .ok t' ∧
        Installed model routesPayload t t') ↔
      ∀ b, 1 < (routesPayload.map (·.inferenceBackendId)).count b → ∃ id route, t.At model b id route := by
  rw [← nodup_unrouted_iff]
  constructor
  · rintro ⟨t', hok, -⟩
    exact ((syncModelBackendRoutes_eq_ok_iff hb).mp hok).1
  · intro h
    obtain ⟨t', hok, hrows⟩ := exists_synced now ids hb h
    exact ⟨t', hok, installed_of_rows hrows⟩

/-! ### A backend that is named twice -/

/-- A route of the model. -/
def plainRoute (model : Uuid) (b : BackendId) : Route where
  modelRegistryId := model
  inferenceBackendId := b
  priority := 1
  weight := 100
  state := .healthy
  createdAt := 0
  updatedAt := 0

/-- A table with one route. -/
def loneRoute (model : Uuid) (b : BackendId) : Routes :=
  ⟨AList.singleton 0 (plainRoute model b), List.pairwise_singleton _ _⟩

def noRoutes : Routes := ⟨∅, List.Pairwise.nil⟩

def aModel : Uuid := ⟨"0a1b2c3d", 0⟩

/-- Backends 0 and 1. -/
def twoBackends : Table BackendId BackendRow :=
  let row (name : String) : BackendRow :=
    { name, provider := .vllm, backendUrl := "http://vllm:8000", healthcheckPath := "/health", isActive := true,
      isDefault := false, status := "configured", maxParallelRequests := 1, metadataJson := .absent, createdAt := 0 }
  (AList.singleton 1 (row "b")).insert 0 (row "a")

/-- Backend 0 is named twice. -/
def namedTwice : List BackendRouteInput :=
  [⟨0, 1, 100, .healthy⟩, ⟨1, 2, 100, .healthy⟩, ⟨0, 3, 50, .degraded⟩]

theorem sync_installs_namedTwice :
    ∃ t', syncModelBackendRoutes 7 twoBackends Source.counter aModel namedTwice (loneRoute aModel 0) = .ok t' ∧
      Installed aModel namedTwice (loneRoute aModel 0) t' :=
  (sync_installs_routes 7 twoBackends Source.counter aModel namedTwice (loneRoute aModel 0) (by decide)).mpr
    fun b hb => by
      have hzero : b = 0 := by
        by_contra hne
        have hle : (namedTwice.map (·.inferenceBackendId)).count b ≤ 1 := by
          simp only [namedTwice, List.map_cons, List.map_nil]
          rw [List.count_cons_of_ne (Ne.symm hne), List.count_cons, List.count_cons_of_ne (Ne.symm hne),
            List.count_nil]
          split_ifs <;> omega
        omega
      exact ⟨0, plainRoute aModel 0, rfl, rfl, hzero.symm⟩

/-- **A backend without a route that is named twice** gets two routes, and the flush fails. -/
theorem namedTwice_fails :
    (∀ r ∈ namedTwice, (twoBackends.lookup r.inferenceBackendId).isSome) ∧
      ¬ ∃ t', syncModelBackendRoutes 7 twoBackends Source.counter aModel namedTwice noRoutes = .ok t' ∧
        Installed aModel namedTwice noRoutes t' := by
  have hb : ∀ r ∈ namedTwice, (twoBackends.lookup r.inferenceBackendId).isSome := by decide
  refine ⟨hb, ?_⟩
  rintro ⟨t', hok, -⟩
  have hnodup := ((syncModelBackendRoutes_eq_ok_iff hb).mp hok).1
  exact absurd hnodup (by decide)

/-! ## The routes of one model -/

section Refinement

variable {now : Instant} {backends : Table BackendId BackendRow} {ids : Source RouteId} {model : Uuid} {t t' : Routes}
  {existing : Table BackendId RouteRow} {routesPayload : List BackendRouteInput}

/-- The columns that `backend_routes` shows. -/
def Route.row (route : Route) : RouteRow :=
  { priority := route.priority, weight := route.weight, state := route.state, createdAt := route.createdAt }

/-- The table of a model's routes, by their backends. -/
def Routes.Shows (t : Routes) (model : Uuid) (existing : Table BackendId RouteRow) : Prop :=
  ∀ b row, existing.lookup b = some row ↔ ∃ id route, t.At model b id route ∧ route.row = row

theorem Routes.Shows.none_iff (h : t.Shows model existing) (b : BackendId) :
    existing.lookup b = none ↔ (existingRoutes model t.rows).lookup b = none := by
  rw [lookup_existingRoutes_none]
  constructor
  · intro hnone id route hat
    have hsome := (h b route.row).mpr ⟨id, route, hat, rfl⟩
    rw [hnone] at hsome
    cases hsome
  · intro hfree
    by_contra hne
    obtain ⟨row, hrow⟩ := Option.ne_none_iff_exists'.mp hne
    obtain ⟨id, route, hat, -⟩ := (h b row).mp hrow
    exact hfree id route hat

/-- A backend that does not exist is refused, by the first mention of one. -/
theorem foldlM_syncRouteData_missing {existing : Table BackendId RouteId}
    (hb : ∃ r ∈ routesPayload, (backends.lookup r.inferenceBackendId).isNone) (s : Session) :
    routesPayload.foldlM (syncRouteData now backends model existing) s = refuse 404 "backend not found" := by
  induction routesPayload generalizing s with
  | nil =>
    obtain ⟨r, hr, -⟩ := hb
    cases hr
  | cons r rest ih =>
    rw [List.foldlM_cons]
    by_cases hr : (backends.lookup r.inferenceBackendId).isNone = true
    · rw [syncRouteData, if_pos hr]
      rfl
    · have hrest : ∃ r ∈ rest, (backends.lookup r.inferenceBackendId).isNone := by
        obtain ⟨r', hr', hnone⟩ := hb
        rcases List.mem_cons.mp hr' with rfl | hr'
        · exact absurd hnone hr
        · exact ⟨r', hr', hnone⟩
      rw [syncRouteData, if_neg hr]
      cases existing.lookup r.inferenceBackendId with
      | none => exact ih hrest _
      | some id => exact ih hrest _

/-- What the last mentions leave of a model's routes. -/
theorem lookup_foldl_syncRoute (b : BackendId) :
    (routesPayload.foldl (syncRoute now existing) ∅).lookup b = (lastMention b routesPayload).map fun r =>
      { priority := r.priority, weight := r.weight, state := r.state
        createdAt := ((existing.lookup r.inferenceBackendId).map (·.createdAt)).getD now } := by
  have h := lookup_foldl_insert BackendRouteInput.inferenceBackendId
    (fun r : BackendRouteInput =>
      ({ priority := r.priority, weight := r.weight, state := r.state
         createdAt := ((existing.lookup r.inferenceBackendId).map (·.createdAt)).getD now } : RouteRow))
    routesPayload ∅ b
  rw [AList.lookup_empty, Option.or_none] at h
  exact h

/-- The rows of the model for the backends of the payload show the last mentions. -/
theorem Routes.Shows.row_of_mention (hshows : t.Shows model existing)
    (hrows : t'.rows = syncedRows now ids model t routesPayload) {b : BackendId} {r : BackendRouteInput}
    (hr : lastMention b routesPayload = some r) : ∃ id route, t'.At model b id route ∧ route.row =
      { priority := r.priority, weight := r.weight, state := r.state
        createdAt := ((existing.lookup r.inferenceBackendId).map (·.createdAt)).getD now } := by
  obtain ⟨id, route', hat', hcase⟩ := exists_at_of_mention hrows hr
  refine ⟨id, route', hat', ?_⟩
  rw [(key_of_lastWith hr).1]
  rcases hcase with ⟨route, hat, rfl⟩ | ⟨hfree, rfl⟩
  · rw [(hshows b route.row).mpr ⟨id, route, hat, rfl⟩]
    rfl
  · rw [(hshows.none_iff b).mpr (lookup_existingRoutes_none.mpr hfree)]
    rfl

/-- What is committed shows what the loop over the routes of one model computes. -/
theorem Routes.Shows.synced (hshows : t.Shows model existing)
    (hrows : t'.rows = syncedRows now ids model t routesPayload) :
    t'.Shows model (routesPayload.foldl (syncRoute now existing) ∅) := by
  intro b row
  rw [lookup_foldl_syncRoute]
  constructor
  · intro h
    obtain ⟨r, hr, rfl⟩ := Option.map_eq_some_iff.mp h
    exact hshows.row_of_mention hrows hr
  · rintro ⟨id, route, hat, rfl⟩
    have hnamed := (installed_of_rows hrows).gone b id route hat
    have hmention : lastMention b routesPayload ≠ none := fun hnone => lastWith_eq_none_iff.mp hnone hnamed
    obtain ⟨r, hr⟩ := Option.ne_none_iff_exists'.mp hmention
    obtain ⟨id', route', hat', hrow'⟩ := hshows.row_of_mention hrows hr
    obtain ⟨-, rfl⟩ := hat.unique hat'
    rw [hr, hrow']
    rfl

/-- The backends that get a new row are the same. -/
theorem Routes.Shows.added_eq (hshows : t.Shows model existing) (routesPayload : List BackendRouteInput) :
    (routesPayload.map (·.inferenceBackendId)).filter (fun id => (existing.lookup id).isNone) =
      (unrouted (existingRoutes model t.rows) routesPayload).map (·.inferenceBackendId) := by
  rw [List.filter_map, unrouted]
  congr 2
  funext r
  rw [Function.comp_apply, Bool.eq_iff_iff, Option.isNone_iff_eq_none, Option.isNone_iff_eq_none]
  exact hshows.none_iff r.inferenceBackendId

/-- **The rows of a model are the routes that the synchronisation of one model computes**, and it fails as that does. -/
theorem sync_refines (hshows : t.Shows model existing) :
    (∀ t', syncModelBackendRoutes now backends ids model routesPayload t = .ok t' →
      ∃ routes, Models.syncModelBackendRoutes now backends existing routesPayload = .ok routes ∧
        t'.Shows model routes) ∧
    ∀ e, syncModelBackendRoutes now backends ids model routesPayload t = .error e →
      Models.syncModelBackendRoutes now backends existing routesPayload = .error e := by
  rw [Models.syncModelBackendRoutes]
  simp only [hshows.added_eq]
  by_cases hmissing : ∃ r ∈ routesPayload, (backends.lookup r.inferenceBackendId).isNone
  · have hrefused : syncModelBackendRoutes now backends ids model routesPayload t = refuse 404 "backend not found" := by
      rw [syncModelBackendRoutes, foldlM_syncRouteData_missing hmissing]
      rfl
    rw [if_pos hmissing, hrefused]
    refine ⟨fun t' h => ?_, fun e h => ?_⟩
    · cases h
    · cases h
      rfl
  · have hb : ∀ r ∈ routesPayload, (backends.lookup r.inferenceBackendId).isSome := by
      intro r hr
      by_contra hnone
      exact hmissing ⟨r, hr, by simpa using hnone⟩
    rw [if_neg hmissing]
    by_cases hnodup : ((unrouted (existingRoutes model t.rows) routesPayload).map (·.inferenceBackendId)).Nodup
    · rw [if_neg (not_not.mpr hnodup)]
      constructor
      · intro t' hok
        exact ⟨_, rfl, hshows.synced ((syncModelBackendRoutes_eq_ok_iff hb).mp hok).2⟩
      · intro e herror
        obtain ⟨t', hok, -⟩ := exists_synced now ids hb hnodup
        rw [herror] at hok
        cases hok
    · rw [if_pos hnodup, syncModelBackendRoutes_integrityError hb hnodup]
      refine ⟨fun t' h => ?_, fun e h => ?_⟩
      · cases h
      · cases h
        rfl

end Refinement

end LlmStore.Models.RouteRows
