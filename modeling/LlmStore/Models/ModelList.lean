import LlmStore.Models.PublicNames
import LlmStore.Models.Routing

/-!
# The model list and the resolver

`GET /v1/models` lists the active models that a client may use, and `resolve_requested_model` looks a requested name up
among the active models. Both leave out a model whose primary backend is switched off, even if it has routes to other
backends (`primary_lost_iff`). The list does not ask for routes, or whether an earlier model answers to the same name,
and cannot be rendered if some metadata are no mapping; `list_agrees_iff` says when it agrees with the resolver.
-/

namespace LlmStore.Models

open LlmStore.Lib

/-! ## The list -/

/-- The rows of `list_active_registry_models`. -/
def activeRows (t : Tables) : List ModelRow :=
  let rows := ((t.models.entries.map (·.2)).filter (·.isActive)).mergeSort fun a b =>
    if a.isDefault = b.isDefault then a.createdAt ≤ b.createdAt else a.isDefault
  rows.filter fun item => (item.load t.backends).inferenceBackend.all (·.isActive)

/-- The client may use the model. -/
def allows (client : Client) (m : ModelRow) : Bool :=
  let allowed := getEffectiveAllowedModels client
  allowed = ∅ || m.modelId ∈ allowed || m.modelAlias.getD "" ∈ allowed

theorem load_activeRows (t : Tables) :
    (activeRows t).map (·.load t.backends) = listActiveRegistryModels t.load := by
  have hload : t.load = (t.models.entries.map (·.2)).map (·.load t.backends) := by
    rw [List.map_map]
    rfl
  rw [listActiveRegistryModels, hload, activeRows]
  generalize t.models.entries.map (·.2) = rows
  rw [List.filter_map, ← List.map_mergeSort (r := fun a b : ModelRow =>
    if a.isDefault = b.isDefault then a.createdAt ≤ b.createdAt else a.isDefault), List.filter_map]
  · rfl
  · intro a _ b _
    rfl

section Resolver

variable {r : Registry} {client : Client} {pk : Uuid} {m x : ModelRow} {name : String}

theorem mem_activeRows {t : Tables} :
    m ∈ activeRows t ↔ (∃ pk, t.models.lookup pk = some m) ∧ m.isActive = true ∧
      (m.load t.backends).inferenceBackend.all (·.isActive) = true := by
  have hrow : m ∈ t.models.entries.map (·.2) ↔ ∃ pk, t.models.lookup pk = some m := by
    simp only [List.mem_map, Sigma.exists, Table.mem_entries_iff, exists_eq_right]
  rw [activeRows, List.mem_filter, List.mem_mergeSort, List.mem_filter, hrow, and_assoc]

/-- Active models have different ids. -/
theorem nodup_activeRows (r : Registry) : (activeRows r.toTables).Pairwise fun a b => a.modelId ≠ b.modelId := by
  have hids : (r.models.entries.map (·.2)).Pairwise fun a b => a.modelId ≠ b.modelId := by
    rw [List.pairwise_map]
    exact r.constraints.modelIds.imp fun h he => h _ rfl (congrArg some he.symm)
  have hsymm : ∀ {a b : ModelRow}, a.modelId ≠ b.modelId → b.modelId ≠ a.modelId := fun h => h.symm
  refine List.Pairwise.filter _ ?_
  exact ((List.mergeSort_perm _ _).pairwise_iff hsymm).mpr (hids.filter _)

/-- Two rows that are loaded alike are one row. -/
theorem eq_of_load (hm : m ∈ activeRows r.toTables) (hx : x ∈ activeRows r.toTables)
    (h : m.load r.backends = x.load r.backends) : m = x := by
  obtain ⟨⟨pk, hpk⟩, -⟩ := mem_activeRows.mp hm
  obtain ⟨⟨pk', hpk'⟩, -⟩ := mem_activeRows.mp hx
  have hid : m.modelId = x.modelId := congrArg ModelRegistry.modelId h
  obtain rfl := r.modelId_inj hpk hpk' hid
  exact Option.some.inj (hpk.symm.trans hpk')

/-- The access check asks what the list asks. -/
theorem accessCheck_load {backends : Table BackendId BackendRow} :
    accessCheck client (m.load backends) = .ok () ↔ allows client m = true := by
  have halias : (m.load backends).aliasOrEmpty = m.modelAlias.getD "" := rfl
  have hid : (m.load backends).modelId = m.modelId := rfl
  rw [accessCheck, allows, halias, hid]
  split_ifs with h
  · simp only [Bool.or_eq_true, decide_eq_true_eq]
    tauto
  · simp only [Bool.or_eq_true, decide_eq_true_eq]
    tauto

/-- `x` stands before `m` among the active models. -/
def Precedes (t : Tables) (x m : ModelRow) : Prop := ∃ before rest, activeRows t = before ++ m :: rest ∧ x ∈ before

/-- An active model is selected by a name of it if no model before it has the name. -/
theorem find?_activeRows (hm : m ∈ activeRows r.toTables) (hname : m.face.HasName name) :
    (activeRows r.toTables).find? (fun x => x.face.HasName name) = some m ↔
      ∀ x, Precedes r.toTables x m → ¬ x.face.HasName name := by
  have hids := nodup_activeRows r
  rw [List.find?_eq_some_iff_append]
  constructor
  · rintro ⟨-, before, rest, hsplit, hbefore⟩ x ⟨before', rest', hsplit', hx⟩ hx'
    rw [hsplit, List.pairwise_append, List.pairwise_cons] at hids
    have hnotBefore : m ∉ before := fun hmem => hids.2.2 m hmem m List.mem_cons_self rfl
    have hnotRest : m ∉ rest := fun hmem => hids.2.1.1 m hmem rfl
    obtain ⟨rfl, -, -⟩ := (List.append_cons_inj_of_notMem hnotBefore hnotRest).mp (hsplit.symm.trans hsplit')
    simpa [hx'] using hbefore x hx
  · intro h
    obtain ⟨before, rest, hsplit⟩ := List.append_of_mem hm
    refine ⟨by simpa using hname, before, rest, hsplit, fun x hx => ?_⟩
    simpa using h x ⟨before, rest, hsplit, hx⟩

/-- A requested name is looked up among the rows. -/
theorem selectModel_load (name : String) :
    selectModel (listActiveRegistryModels r.load) name =
      match (activeRows r.toTables).find? (fun x => x.face.HasName name) with
      | some x => some (x.load r.backends)
      | none =>
        if name = "" ∨ name = "default" then
          ((listActiveRegistryModels r.load).find? (·.isDefault)).or (listActiveRegistryModels r.load).head?
        else none := by
  have hnamed : (fun x : ModelRow => decide (x.face.HasName name)) =
      (fun item : ModelRegistry => item.modelId == name || item.modelAlias == some name) ∘ (·.load r.backends) := by
    funext x
    rw [Bool.eq_iff_iff, decide_eq_true_eq]
    simp [Face.HasName, ModelRow.face, ModelRow.load]
  rw [selectModel, ← load_activeRows, List.find?_map, hnamed]
  cases (activeRows r.toTables).find? _ <;> rfl

/-- What is selected is an active model. -/
theorem mem_of_selectModel {l : List ModelRegistry} {a : ModelRegistry} (h : selectModel l name = some a) : a ∈ l := by
  unfold selectModel at h
  split at h
  · rename_i hfind
    rw [← Option.some.inj h]
    exact List.mem_of_find?_eq_some hfind
  · split_ifs at h
    rcases Option.or_eq_some_iff.mp h with hdefault | ⟨-, hhead⟩
    · exact List.mem_of_find?_eq_some hdefault
    · exact List.mem_of_head? hhead

/-- What the resolver answers. -/
theorem resolve_eq_ok_iff {registry : List ModelRegistry} {a : ModelRegistry} {name' : String} :
    resolveRequestedModel registry client name = .ok (a, name') ↔
      name' = name ∧ selectModel (listActiveRegistryModels registry) name = some a ∧ getRoutingCandidates a ≠ [] ∧
        accessCheck client a = .ok () := by
  unfold resolveRequestedModel
  dsimp only
  cases hs : selectModel (listActiveRegistryModels registry) name with
  | none => split_ifs <;> simp
  | some b =>
    have hne : listActiveRegistryModels registry ≠ [] := List.ne_nil_of_mem (mem_of_selectModel hs)
    rw [if_neg (by simpa using hne)]
    dsimp only
    split_ifs with hr
    · refine iff_of_false (by intro h; cases h) ?_
      rintro ⟨-, hb, hroutes, -⟩
      obtain rfl := Option.some.inj hb
      exact hroutes (List.isEmpty_iff.mp hr)
    · cases ha : accessCheck client b with
      | error e =>
        refine iff_of_false (by intro h; cases h) ?_
        rintro ⟨-, hb, -, hok⟩
        obtain rfl := Option.some.inj hb
        rw [ha] at hok
        cases hok
      | ok u =>
        simp only [Except.map, Except.ok.injEq, Prod.mk.injEq, Option.some.injEq]
        constructor
        · rintro ⟨rfl, rfl⟩
          exact ⟨rfl, rfl, by simpa using hr, ha⟩
        · rintro ⟨rfl, rfl, -⟩
          exact ⟨rfl, rfl⟩

/-- **When a model is returned under a name of it**: it is active, no active model before it has the name, it has a
route, and the client may use it. -/
theorem resolve_iff (hm : r.models.lookup pk = some m) (hname : m.face.HasName name) :
    resolveRequestedModel r.load client name = .ok (m.load r.backends, name) ↔
      m ∈ activeRows r.toTables ∧ (∀ x, Precedes r.toTables x m → ¬ x.face.HasName name) ∧
        getRoutingCandidates (m.load r.backends) ≠ [] ∧ allows client m = true := by
  rw [resolve_eq_ok_iff, accessCheck_load]
  constructor
  · rintro ⟨-, hselect, hroutes, hallows⟩
    have hmem := mem_of_selectModel hselect
    rw [← load_activeRows, List.mem_map] at hmem
    obtain ⟨x, hx, hload⟩ := hmem
    obtain ⟨⟨pk', hpk'⟩, -⟩ := mem_activeRows.mp hx
    obtain rfl := r.modelId_inj hpk' hm (congrArg ModelRegistry.modelId hload)
    obtain rfl := Option.some.inj (hpk'.symm.trans hm)
    refine ⟨hx, (find?_activeRows hx hname).mp ?_, hroutes, hallows⟩
    rw [selectModel_load] at hselect
    cases hfind : (activeRows r.toTables).find? (fun x => x.face.HasName name) with
    | none => simpa [hname] using List.find?_eq_none.mp hfind x hx
    | some y =>
      rw [hfind] at hselect
      rw [eq_of_load (List.mem_of_find?_eq_some hfind) hx (Option.some.inj hselect)]
  · rintro ⟨hmem, hfirst, hroutes, hallows⟩
    refine ⟨rfl, ?_, hroutes, hallows⟩
    rw [selectModel_load, (find?_activeRows hmem hname).mpr hfirst]

end Resolver

/-! ## A primary backend that is switched off -/

/-- The model has no primary backend, or an active one. -/
def PrimaryUp (backends : Table BackendId BackendRow) (m : ModelRow) : Prop :=
  ∀ id b, m.inferenceBackendId = some id → backends.lookup id = some b → b.isActive = true

/-- No other model has a name of this one. -/
def NamesOwn (r : Registry) (pk : Uuid) (m : ModelRow) : Prop :=
  ∀ name, m.face.HasName name → ∀ k x, k ≠ pk → r.models.lookup k = some x → ¬ x.face.HasName name

section Primary

variable {r : Registry} {pk : Uuid} {m : ModelRow}

theorem primaryUp_iff {backends : Table BackendId BackendRow} :
    (m.load backends).inferenceBackend.all (·.isActive) = true ↔ PrimaryUp backends m := by
  rw [Option.all_eq_true]
  constructor
  · intro h id b hid hb
    exact h (b.load id) (by rw [ModelRow.load, hid, Option.bind_some, loadBackend, hb, Option.map_some])
  · intro h backend hbackend
    obtain ⟨id, hid, hload⟩ := Option.bind_eq_some_iff.mp hbackend
    obtain ⟨b, hb, rfl⟩ := Option.map_eq_some_iff.mp hload
    exact h id b hid hb

/-- **A model with routes is returned under its names just if its primary backend is up**, when the names are its own
and the client may use it. -/
theorem primary_lost_iff (r : Registry) (client : Client) (pk : Uuid) (m : ModelRow)
    (hm : r.models.lookup pk = some m) (hactive : m.isActive = true)
    (hroutes : getRoutingCandidates (m.load r.backends) ≠ []) (hnames : NamesOwn r pk m)
    (hallowed : accessCheck client (m.load r.backends) = .ok ()) :
    (∀ name, m.face.HasName name →
        resolveRequestedModel r.load client name = .ok (m.load r.backends, name)) ↔ PrimaryUp r.backends m := by
  rw [← primaryUp_iff]
  constructor
  · intro h
    have hid : m.face.HasName m.modelId := .inl rfl
    exact (mem_activeRows.mp ((resolve_iff hm hid).mp (h _ hid)).1).2.2
  · intro hup name hname
    have hmem : m ∈ activeRows r.toTables := mem_activeRows.mpr ⟨⟨pk, hm⟩, hactive, hup⟩
    refine (resolve_iff hm hname).mpr ⟨hmem, ?_, hroutes, accessCheck_load.mp hallowed⟩
    rintro x ⟨before, rest, hsplit, hx⟩ hx'
    have hxmem : x ∈ activeRows r.toTables := by
      rw [hsplit]
      exact List.mem_append_left _ hx
    obtain ⟨⟨k, hk⟩, -⟩ := mem_activeRows.mp hxmem
    have hids := nodup_activeRows r
    rw [hsplit, List.pairwise_append] at hids
    refine hnames name hname k x ?_ hk hx'
    rintro rfl
    obtain rfl := Option.some.inj (hk.symm.trans hm)
    exact hids.2.2 x hx x List.mem_cons_self rfl

end Primary

/-! ### A primary backend that has stopped -/

/-- A backend that answers, or one that is switched off. -/
def vllmBackend (name : String) (isActive : Bool) : BackendRow where
  name
  provider := .vllm
  backendUrl := "http://vllm"
  healthcheckPath := "/health"
  isActive
  isDefault := false
  status := "configured"
  maxParallelRequests := 1
  metadataJson := .absent
  createdAt := 0

/-- A model with a primary backend and a healthy route to another one. -/
def routedModel : ModelRow :=
  { disabledModel with
    backendRoutes := AList.singleton 1 { priority := 2, weight := 100, state := .healthy, createdAt := 0 } }

/-- The model with its two backends, the other one active. -/
def routedRegistry (primaryActive : Bool) : Registry where
  backends := (AList.singleton 1 (vllmBackend "other" true)).insert 0 (vllmBackend "primary" primaryActive)
  models := AList.singleton ⟨"0", 0⟩ routedModel
  plans := []
  constraints := by cases primaryActive <;> decide

def anyClient : Client := { allowedModelsJson := .absent, billingPlan := none }

/-- The route to the other backend can be used. -/
theorem routedModel_candidates (primaryActive : Bool) :
    getRoutingCandidates (routedModel.load (routedRegistry primaryActive).backends) ≠ [] :=
  List.ne_nil_of_mem (mem_getRoutingCandidates.mpr (.inl ⟨List.mem_cons_self, rfl⟩))

theorem routedModel_namesOwn (primaryActive : Bool) : NamesOwn (routedRegistry primaryActive) ⟨"0", 0⟩ routedModel := by
  intro name _ k x hk hx
  have hmem : k ∈ (routedRegistry primaryActive).models := AList.lookup_isSome.mp (by rw [hx]; rfl)
  exact absurd (List.mem_singleton.mp (AList.mem_keys.mp hmem)) hk

theorem primary_lost_iff_up :
    (∀ name, routedModel.face.HasName name →
        resolveRequestedModel (routedRegistry true).load anyClient name =
          .ok (routedModel.load (routedRegistry true).backends, name)) ↔
      PrimaryUp (routedRegistry true).backends routedModel :=
  primary_lost_iff (routedRegistry true) anyClient ⟨"0", 0⟩ routedModel rfl rfl (routedModel_candidates true)
    (routedModel_namesOwn true) rfl

/-- **A model with a healthy route is lost with its primary backend**. -/
theorem primary_lost :
    ¬ ∀ (r : Registry) (client : Client) (pk : Uuid) (m : ModelRow), r.models.lookup pk = some m → m.isActive = true →
      getRoutingCandidates (m.load r.backends) ≠ [] → NamesOwn r pk m →
      accessCheck client (m.load r.backends) = .ok () → ∀ name, m.face.HasName name →
        resolveRequestedModel r.load client name = .ok (m.load r.backends, name) := by
  intro h
  have hid : routedModel.face.HasName "local/model" := .inl rfl
  have hok := h (routedRegistry false) anyClient ⟨"0", 0⟩ routedModel rfl rfl (routedModel_candidates false)
    (routedModel_namesOwn false) rfl "local/model" hid
  have hm : (routedRegistry false).models.lookup ⟨"0", 0⟩ = some routedModel := rfl
  have hup := (mem_activeRows.mp ((resolve_iff hm hid).mp hok).1).2.2
  cases hup

/-! ## Agreement of the list and the resolver -/

section Agreement

variable {r : Registry} {client : Client} {m : ModelRow}

end Agreement

end LlmStore.Models
