import LlmStore.Models.Administration

/-!
# What operations do to the columns that callers see

The names, the two flags and the status of a model are its `Face`. `Step.asked` says, from the request alone, which
faces an operation leaves if it is not refused; that it does so is `faces_of_attempt`, proved once for all operations
but `ensure_default_model`, for which it is said entry by entry (`EntryStep.faces_eq`).
-/

namespace LlmStore.Models

open LlmStore.Lib

/-! ## Faces -/

structure Face where
  modelId : String
  modelAlias : Option String
  isActive : Bool
  isDefault : Bool
  status : String
  deriving DecidableEq

def ModelRow.face (m : ModelRow) : Face :=
  { modelId := m.modelId
    modelAlias := m.modelAlias
    isActive := m.isActive
    isDefault := m.isDefault
    status := m.status }

/-- The faces of the models, by id. -/
abbrev Faces := Uuid → Option Face

def faces (models : Table Uuid ModelRow) : Faces := fun pk => (models.lookup pk).map ModelRow.face

/-- No default but `keep`. -/
def Faces.clear (keep : Option Uuid) (old : Faces) : Faces := fun pk =>
  (old pk).map fun f => if keep = some pk then f else { f with isDefault := false }

/-- The face of one model changed by `g`. -/
def Faces.set (pk : Uuid) (g : Face → Option Face) (old : Faces) : Faces :=
  Function.update old pk ((old pk).bind g)

section Faces

variable {models : Table Uuid ModelRow} {pk : Uuid}

theorem faces_eq_some_iff {f : Face} : faces models pk = some f ↔ ∃ m, models.lookup pk = some m ∧ m.face = f := by
  simp [faces, Option.map_eq_some_iff]

@[simp] theorem faces_insert (m : ModelRow) :
    faces (models.insert pk m) = Function.update (faces models) pk (some m.face) := by
  funext k
  by_cases hk : k = pk
  · subst hk
    simp [faces]
  · simp [faces, AList.lookup_insert_ne hk, Function.update_of_ne hk]

/-- A changed row whose face is a function of the old one. -/
theorem faces_modify {f : ModelRow → ModelRow} {g : Face → Face}
    (hg : ∀ m, models.lookup pk = some m → (f m).face = g m.face) :
    faces (models.modify pk f) = (faces models).set pk fun x => some (g x) := by
  funext k
  by_cases hk : k = pk
  · subst hk
    cases hm : models.lookup k with
    | none => simp [faces, Faces.set, hm]
    | some m => simp [faces, Faces.set, hm, hg m hm]
  · simp [faces, Faces.set, Table.lookup_modify_ne hk, Function.update_of_ne hk]

@[simp] theorem faces_erase : faces (models.erase pk) = (faces models).set pk fun _ => none := by
  funext k
  by_cases hk : k = pk
  · subst hk
    simp [faces, Faces.set, Option.bind_fun_none]
  · simp [faces, Faces.set, AList.lookup_erase_ne hk, Function.update_of_ne hk]

@[simp] theorem faces_clearDefaults (keep : Option Uuid) : faces (clearDefaults keep models) = (faces models).clear keep := by
  funext k
  simp only [faces, clearDefaults, Table.lookup_mapRows, Faces.clear, Option.map_map]
  congr 1
  funext m
  simp only [Function.comp_apply]
  split_ifs <;> rfl

/-- A row changed without its face. -/
theorem faces_modify_same {f : ModelRow → ModelRow} (hf : ∀ m, (f m).face = m.face) :
    faces (models.modify pk f) = faces models := by
  rw [faces_modify (g := id) fun m _ => hf m]
  funext k
  by_cases hk : k = pk
  · subst hk
    simp [Faces.set]
  · simp [Faces.set, Function.update_of_ne hk]

end Faces

/-! ## What is asked for -/

/-- The face that `create_model` gives its row. -/
def ModelRegistryCreate.face (payload : ModelRegistryCreate) : Face :=
  { modelId := payload.modelId.val
    modelAlias := payload.modelAlias.map (·.val)
    isActive := payload.isActive
    isDefault := payload.isDefault
    status := payload.status }

/-- The face that `patch_model` gives its row. -/
def ModelRegistryPatch.face (payload : ModelRegistryPatch) (f : Face) : Face :=
  { modelId := f.modelId
    modelAlias := (payload.modelAlias.map fun name => name.map (·.val)).getD f.modelAlias
    isActive := payload.isActive.join.getD f.isActive
    isDefault := payload.isDefault.join.getD f.isDefault
    status := payload.status.join.getD f.status }

/-- The face that `archive_model_identity` leaves. -/
def Face.archived (pk : Uuid) (f : Face) : Face :=
  { modelId := truncate 255 (f.modelId ++ "::deleted::" ++ pk.firstGroup)
    modelAlias :=
      f.modelAlias.map fun name => if name = "" then name else truncate 128 (name ++ "-deleted-" ++ pk.firstGroup)
    isActive := false
    isDefault := false
    status := "soft-deleted" }

/-- `delete_model` keeps the row, as an archive. -/
def ModelDeleteRequest.Archives (payload : ModelDeleteRequest) (log : List String) (f : Face) : Prop :=
  payload.mode = .soft ∨ payload.mode = .auto ∧ (log.countP fun name => name = f.modelId || name = f.modelAlias.getD "") ≠ 0

instance (payload : ModelDeleteRequest) (log : List String) (f : Face) : Decidable (payload.Archives log f) := by
  unfold ModelDeleteRequest.Archives
  infer_instance

/-- The faces that an operation leaves, unless it is refused. -/
def Step.asked (s : Step) (r : Registry) : Faces :=
  let old := faces r.models
  match s.operation with
  | .createModel _ payload =>
    Function.update (if payload.isDefault then old.clear none else old) (s.env.uuids.next r.models.keys)
      (some payload.face)
  | .patchModel _ pk payload =>
    Faces.set pk (fun f => some (payload.face f))
      (if payload.isDefault = some (some true) then old.clear (some pk) else old)
  | .setDefaultModel pk =>
    Faces.set pk (fun f => some { f with isDefault := true, isActive := true }) (old.clear (some pk))
  | .enableModel pk => old.set pk fun f => some { f with isActive := true, status := "configured" }
  | .disableModel pk => old.set pk fun f => some { f with isActive := false, status := "disabled" }
  | .deleteModel pk payload _ log _ => old.set pk fun f => if payload.Archives log f then some (f.archived pk) else none
  | _ => old

theorem asked_create (env : Env) (files : String → FileCheck) (payload : ModelRegistryCreate) (r : Registry) :
    Step.asked ⟨env, .createModel files payload⟩ r =
      Function.update (if payload.isDefault then (faces r.models).clear none else faces r.models)
        (env.uuids.next r.models.keys) (some payload.face) := rfl

theorem asked_patch (env : Env) (files : String → FileCheck) (pk : Uuid) (payload : ModelRegistryPatch)
    (r : Registry) :
    Step.asked ⟨env, .patchModel files pk payload⟩ r =
      Function.update
        (if payload.isDefault = some (some true) then (faces r.models).clear (some pk) else faces r.models) pk
        (((if payload.isDefault = some (some true) then (faces r.models).clear (some pk) else faces r.models) pk).map
          payload.face) := by
  show Faces.set pk (fun f => some (payload.face f)) _ = _
  rw [Faces.set]
  congr 1
  exact (Option.map_eq_bind).symm

/-! ## Handlers that are not refused -/

section Handlers

variable {env : Env} {files : String → FileCheck} {t t' : Tables} {pk : Uuid}

theorem refuse_ne_ok {α : Type} {statusCode : ℕ} {detail : String} {a : α} : refuse statusCode detail ≠ .ok a := by
  intro h
  cases h

theorem getModel_eq_ok_iff {m : ModelRow} : getModel t pk = .ok m ↔ t.models.lookup pk = some m := by
  unfold getModel
  cases t.models.lookup pk <;> simp [refuse]

theorem createModelChecks_models {payload : ModelRegistryCreate} {c : CreateContext}
    (h : createModelChecks env files payload t = .ok c) : c.tables.models = t.models := by
  obtain ⟨⟨backendId, backends⟩, -, h⟩ := bind_eq_ok_iff.mp h
  obtain ⟨file, -, h⟩ := bind_eq_ok_iff.mp h
  cases h
  rfl

theorem createModelSearch_eq_ok_iff {payload : ModelRegistryCreate} {u : Unit} :
    createModelSearch payload t = .ok u ↔ ∀ k m, t.models.lookup k = some m → payload.duplicates m = false := by
  rw [← scalarOneOrNone_none_iff (p := fun _ m => payload.duplicates m), createModelSearch, bind_eq_ok_iff]
  constructor
  · rintro ⟨found, hfound, h⟩
    cases found with
    | none => exact hfound
    | some e => exact absurd h refuse_ne_ok
  · exact fun hnone => ⟨none, hnone, rfl⟩

/-- A created model has the face it was asked for, and none of the duplicates that are searched for. -/
theorem createModel_ok {payload : ModelRegistryCreate} (h : createModel env files payload t = .ok t') :
    (∀ k m, t.models.lookup k = some m → payload.duplicates m = false) ∧
      faces t'.models = Function.update (if payload.isDefault then (faces t.models).clear none else faces t.models)
        (env.uuids.next t.models.keys) (some payload.face) := by
  obtain ⟨c, hc, h⟩ := bind_eq_ok_iff.mp h
  obtain ⟨_, hsearch, h⟩ := bind_eq_ok_iff.mp h
  obtain ⟨routes, -, h⟩ := bind_eq_ok_iff.mp h
  obtain ⟨plans, -, h⟩ := bind_eq_ok_iff.mp h
  have hmodels := createModelChecks_models hc
  rw [createModelSearch_eq_ok_iff, hmodels] at hsearch
  refine ⟨hsearch, ?_⟩
  cases h
  dsimp only
  rw [faces_insert, hmodels]
  congr 1
  split_ifs
  · exact faces_clearDefaults none
  · rfl

theorem require_eq_ok_iff {α : Type} {patch : Patch α} {old a : α} (h : patch.require old = .ok a) :
    a = patch.join.getD old := by
  match patch with
  | none => cases h; rfl
  | some none => cases h
  | some (some b) => cases h; rfl

theorem patchModelChecks_ok {payload : ModelRegistryPatch} {m : ModelRow}
    (h : patchModelChecks pk payload t = .ok m) : t.models.lookup pk = some m := by
  obtain ⟨m', hm', h⟩ := bind_eq_ok_iff.mp h
  rw [getModel_eq_ok_iff] at hm'
  cases hid : payload.inferenceBackendId with
  | none => rw [hid] at h; cases h; exact hm'
  | some id =>
    cases id with
    | none => rw [hid] at h; cases h; exact hm'
    | some id =>
      rw [hid] at h
      obtain ⟨_, -, h⟩ := bind_eq_ok_iff.mp h
      cases h
      exact hm'

theorem patchModelSearch_eq_ok_iff {payload : ModelRegistryPatch} {u : Unit} :
    patchModelSearch pk payload t = .ok u ↔ ∀ name, payload.modelAlias = some (some name) →
      ∀ k m, t.models.lookup k = some m → m.modelAlias = some name.val → k = pk := by
  unfold patchModelSearch
  split
  · rename_i name hname
    have hnone := scalarOneOrNone_none_iff (t := t.models) (p := fun k m => m.modelAlias = some name.val && k != pk)
    rw [bind_eq_ok_iff]
    constructor
    · rintro ⟨found, hfound, h⟩ name' hname' k m hk hm
      obtain rfl := Option.some.inj (Option.some.inj (hname.symm.trans hname'))
      cases found with
      | none => simpa [hm] using hnone.mp hfound k m hk
      | some e => exact absurd h refuse_ne_ok
    · intro h
      refine ⟨none, hnone.mpr fun k m hk => ?_, rfl⟩
      by_cases hm : m.modelAlias = some name.val
      · simp [h name hname k m hk hm]
      · simp [hm]
  · rename_i hnot
    exact iff_of_true rfl fun name hname => absurd hname (hnot name)

/-- A patched model has the face it was asked for; the default model is not disabled by its own patch. -/
theorem patchModel_ok {payload : ModelRegistryPatch} (h : patchModel env files pk payload t = .ok t') :
    ∃ m, t.models.lookup pk = some m ∧ ¬ (payload.isActive = some (some false) ∧ m.isDefault = true) ∧
      faces t'.models = Faces.set pk (fun f => some (payload.face f))
        (if payload.isDefault = some (some true) then (faces t.models).clear (some pk) else faces t.models) := by
  obtain ⟨m, hm, h⟩ := bind_eq_ok_iff.mp h
  obtain ⟨_, -, h⟩ := bind_eq_ok_iff.mp h
  obtain ⟨_, hactive, h⟩ := bind_eq_ok_iff.mp h
  obtain ⟨modelFile, -, h⟩ := bind_eq_ok_iff.mp h
  obtain ⟨provider, -, h⟩ := bind_eq_ok_iff.mp h
  obtain ⟨contextLength, -, h⟩ := bind_eq_ok_iff.mp h
  obtain ⟨isDefault, hdefault, h⟩ := bind_eq_ok_iff.mp h
  obtain ⟨isActive, hisActive, h⟩ := bind_eq_ok_iff.mp h
  obtain ⟨status, hstatus, h⟩ := bind_eq_ok_iff.mp h
  obtain ⟨routes, -, h⟩ := bind_eq_ok_iff.mp h
  obtain ⟨plans, -, h⟩ := bind_eq_ok_iff.mp h
  have hpk := patchModelChecks_ok hm
  refine ⟨m, hpk, refuseIf_eq_ok_iff.mp hactive, ?_⟩
  obtain rfl := require_eq_ok_iff hdefault
  obtain rfl := require_eq_ok_iff hisActive
  obtain rfl := require_eq_ok_iff hstatus
  rw [← Except.ok.inj h]
  dsimp only
  by_cases hd : payload.isDefault = some (some true)
  · rw [if_pos hd, if_pos hd, ← faces_clearDefaults]
    refine faces_modify fun m' hm' => ?_
    have hkeep : (clearDefaults (some pk) t.models).lookup pk = some m := by
      rw [clearDefaults, Table.lookup_mapRows, hpk]
      simp
    rw [hkeep, Option.some.injEq] at hm'
    subst hm'
    rfl
  · rw [if_neg hd, if_neg hd]
    refine faces_modify fun m' hm' => ?_
    rw [hpk, Option.some.injEq] at hm'
    subst hm'
    rfl

theorem setDefaultModel_ok (h : setDefaultModel pk t = .ok t') :
    (∃ m, t.models.lookup pk = some m) ∧ faces t'.models =
      Faces.set pk (fun f => some { f with isDefault := true, isActive := true }) ((faces t.models).clear (some pk)) := by
  obtain ⟨m, hm, h⟩ := bind_eq_ok_iff.mp h
  cases h
  refine ⟨⟨m, getModel_eq_ok_iff.mp hm⟩, ?_⟩
  rw [← faces_clearDefaults]
  exact faces_modify fun _ _ => rfl

theorem enableModel_ok {settings : Settings} (h : enableModel settings pk t = .ok t') :
    faces t'.models = (faces t.models).set pk fun f => some { f with isActive := true, status := "configured" } := by
  obtain ⟨m, -, h⟩ := bind_eq_ok_iff.mp h
  obtain ⟨_, -, h⟩ := bind_eq_ok_iff.mp h
  cases h
  exact faces_modify fun _ _ => rfl

/-- The default model is not disabled. -/
theorem disableModel_ok (h : disableModel pk t = .ok t') :
    (∃ m, t.models.lookup pk = some m ∧ ¬ m.isDefault = true) ∧
      faces t'.models = (faces t.models).set pk fun f => some { f with isActive := false, status := "disabled" } := by
  obtain ⟨m, hm, h⟩ := bind_eq_ok_iff.mp h
  obtain ⟨_, hdefault, h⟩ := bind_eq_ok_iff.mp h
  cases h
  exact ⟨⟨m, getModel_eq_ok_iff.mp hm, refuseIf_eq_ok_iff.mp hdefault⟩, faces_modify fun _ _ => rfl⟩

/-- The default model is not deleted. -/
theorem deleteModel_ok {payload : ModelDeleteRequest} {deletedAt : String} {log : List String} {hasJobs : Bool}
    (h : deleteModel pk payload deletedAt log hasJobs t = .ok t') :
    (∃ m, t.models.lookup pk = some m ∧ ¬ m.isDefault = true) ∧
      faces t'.models =
        (faces t.models).set pk fun f => if payload.Archives log f then some (f.archived pk) else none := by
  obtain ⟨m, hm, h⟩ := bind_eq_ok_iff.mp h
  obtain ⟨_, hdefault, h⟩ := bind_eq_ok_iff.mp h
  obtain ⟨_, -, h⟩ := bind_eq_ok_iff.mp h
  obtain ⟨_, -, h⟩ := bind_eq_ok_iff.mp h
  rw [getModel_eq_ok_iff] at hm
  refine ⟨⟨m, hm, refuseIf_eq_ok_iff.mp hdefault⟩, ?_⟩
  have hface : faces t.models pk = some m.face := faces_eq_some_iff.mpr ⟨m, hm, rfl⟩
  split_ifs at h with harchives hjobs
  · cases h
    have ha : payload.Archives log m.face := harchives
    rw [Tables.setModel, faces_modify (g := Face.archived pk) fun _ _ => rfl, Faces.set, Faces.set, hface]
    simp [ha]
  · cases h
    have ha : ¬ payload.Archives log m.face := harchives
    rw [faces_erase, Faces.set, Faces.set, hface]
    simp [ha]

end Handlers

/-! ## All operations -/

section Attempt

variable {settings : Settings} {r r' : Registry} {s : Step}

theorem attempt_eq_ok_iff :
    attempt settings r s = .ok r' ↔ s.operation.write settings s.env r.toTables = .ok r'.toTables := by
  rw [attempt, bind_eq_ok_iff]
  constructor
  · rintro ⟨t, ht, h⟩
    rw [commit_eq_ok_iff.mp h]
    exact ht
  · exact fun h => ⟨_, h, commit_eq_ok_iff.mpr rfl⟩

theorem mem_registryCommits : r' ∈ registryCommits settings r s ↔ attempt settings r s = .ok r' := by
  unfold registryCommits
  cases attempt settings r s <;> simp [eq_comm]

/-- An operation on backends or routes. -/
def Operation.LeavesModels : Operation → Prop
  | .createModelRoute .. | .patchModelBackendRoute .. | .deleteModelRoute .. => True
  | .createBackend .. | .patchBackend .. | .runBackendAction .. | .listBackends => True
  | _ => False

/-- Such an operation changes the backend and the routes of one model at most. -/
theorem models_of_leavesModels (h : attempt settings r s = .ok r') (hs : s.operation.LeavesModels) :
    ∃ (pk : Uuid) (f : ModelRow → ModelRow), r'.models = r.models.modify pk f ∧ ∀ m,
      f m = { m with inferenceBackendId := (f m).inferenceBackendId, backendRoutes := (f m).backendRoutes } := by
  rw [attempt_eq_ok_iff] at h
  obtain ⟨env, op⟩ := s
  have hsame : r'.models = r.models → ∃ (pk : Uuid) (f : ModelRow → ModelRow), r'.models = r.models.modify pk f ∧
      ∀ m, f m = { m with inferenceBackendId := (f m).inferenceBackendId, backendRoutes := (f m).backendRoutes } :=
    fun he => ⟨⟨"", 0⟩, id, he.trans (Table.modify_eq_self fun _ _ => rfl).symm, fun _ => rfl⟩
  have hset : ∀ (pk : Uuid) (f : ModelRow → ModelRow), r'.toTables = r.toTables.setModel pk f →
      (∀ m, f m = { m with inferenceBackendId := (f m).inferenceBackendId, backendRoutes := (f m).backendRoutes }) →
        ∃ (pk : Uuid) (f : ModelRow → ModelRow), r'.models = r.models.modify pk f ∧
          ∀ m, f m = { m with inferenceBackendId := (f m).inferenceBackendId, backendRoutes := (f m).backendRoutes } :=
    fun pk f hr hf => ⟨pk, f, by simp only [hr, Tables.setModel], hf⟩
  cases op with
  | createModelRoute pk payload =>
    obtain ⟨_, -, h⟩ := bind_eq_ok_iff.mp h
    obtain ⟨_, -, h⟩ := bind_eq_ok_iff.mp h
    obtain ⟨_, -, h⟩ := bind_eq_ok_iff.mp h
    obtain ⟨routes, -, h⟩ := bind_eq_ok_iff.mp h
    exact hset pk _ (Except.ok.inj h).symm fun _ => rfl
  | patchModelBackendRoute pk id payload =>
    obtain ⟨route, -, h⟩ := bind_eq_ok_iff.mp h
    obtain ⟨priority, -, h⟩ := bind_eq_ok_iff.mp h
    obtain ⟨weight, -, h⟩ := bind_eq_ok_iff.mp h
    obtain ⟨state, -, h⟩ := bind_eq_ok_iff.mp h
    exact hset pk _ (Except.ok.inj h).symm fun _ => rfl
  | deleteModelRoute pk id =>
    obtain ⟨route, -, h⟩ := bind_eq_ok_iff.mp h
    exact hset pk _ (Except.ok.inj h).symm fun _ => rfl
  | createBackend payload =>
    obtain ⟨_, -, h⟩ := bind_eq_ok_iff.mp h
    rw [← Except.ok.inj h] at hsame ⊢
    exact hsame rfl
  | patchBackend id payload =>
    obtain ⟨backend, -, h⟩ := bind_eq_ok_iff.mp h
    obtain ⟨_, -, h⟩ := bind_eq_ok_iff.mp h
    obtain ⟨name, -, h⟩ := bind_eq_ok_iff.mp h
    obtain ⟨provider, -, h⟩ := bind_eq_ok_iff.mp h
    obtain ⟨backendUrl, -, h⟩ := bind_eq_ok_iff.mp h
    obtain ⟨healthcheckPath, -, h⟩ := bind_eq_ok_iff.mp h
    obtain ⟨isActive, -, h⟩ := bind_eq_ok_iff.mp h
    obtain ⟨isDefault, -, h⟩ := bind_eq_ok_iff.mp h
    obtain ⟨status, -, h⟩ := bind_eq_ok_iff.mp h
    obtain ⟨maxParallelRequests, -, h⟩ := bind_eq_ok_iff.mp h
    rw [← Except.ok.inj h] at hsame ⊢
    exact hsame rfl
  | runBackendAction id action docker =>
    obtain ⟨backend, -, h⟩ := bind_eq_ok_iff.mp h
    cases docker with
    | error e => cases h
    | ok u =>
      rw [← Except.ok.inj h] at hsame ⊢
      exact hsame rfl
  | listBackends =>
    rw [← Except.ok.inj h] at hsame ⊢
    exact hsame rfl
  | _ => exact absurd hs id

/-- **An operation that is not refused leaves the faces it is asked for**. -/
theorem faces_of_attempt (h : attempt settings r s = .ok r') (hs : s.operation ≠ .ensureDefaultModel) :
    faces r'.models = s.asked r := by
  have hwrite := attempt_eq_ok_iff.mp h
  have hleaves : s.operation.LeavesModels → faces r'.models = faces r.models := fun hl => by
    obtain ⟨pk, f, hmodels, hf⟩ := models_of_leavesModels h hl
    rw [hmodels]
    exact faces_modify_same fun m => (congrArg ModelRow.face (hf m)).trans rfl
  obtain ⟨env, op⟩ := s
  cases op with
  | createModel files payload => exact (createModel_ok hwrite).2
  | patchModel files pk payload =>
    obtain ⟨m, -, -, hfaces⟩ := patchModel_ok hwrite
    exact hfaces
  | setDefaultModel pk => exact (setDefaultModel_ok hwrite).2
  | enableModel pk => exact enableModel_ok hwrite
  | disableModel pk => exact (disableModel_ok hwrite).2
  | deleteModel pk payload deletedAt log hasJobs => exact (deleteModel_ok hwrite).2
  | ensureDefaultModel => exact absurd rfl hs
  | _ => exact hleaves trivial

end Attempt

/-! ## Entries -/

/-- The face that an entry gives a model. -/
def ModelEntry.face (e : ModelEntry) (modelId : String) : Face :=
  { modelId
    modelAlias := some e.modelAlias
    isActive := e.isActive
    isDefault := e.isDefault
    status := if e.isActive then "configured" else "optional-disabled" }

/-- An entry changes one face, or adds one. -/
theorem EntryStep.faces_eq {env : Env} {settings : Settings} {e : ModelEntry} {models models' : Table Uuid ModelRow}
    {pk : Uuid} {base : ModelRow} (h : EntryStep env settings e models pk base models') :
    faces models' = Function.update (faces models) pk (some (e.face base.modelId)) := by
  funext k
  by_cases hk : k = pk
  · subst hk
    rw [Function.update_self, faces, h.self]
    rfl
  · rw [Function.update_of_ne hk, faces, h.other k hk, faces]

theorem faces_addFallback (env : Env) (settings : Settings) (t : Tables) (gemma : Uuid)
    (models : Table Uuid ModelRow) : faces (addFallback env settings t gemma models) = faces models :=
  faces_modify_same fun _ => rfl

end LlmStore.Models
