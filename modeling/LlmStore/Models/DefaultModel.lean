import LlmStore.Models.Startup

/-!
# The default model

Exactly one model is the default, and it serves: it is active and not archived. `set_default_model` and the seeding
write both flags; `create_model` and `patch_model` write the default flag beside whatever else the request has, and
`patch_model` checks its guard against the model before the patch, so the default can be lost or can be a model that is
switched off (`default_off`). `one_default` is for all runs whose operations meet `Step.KeepsDefault`.
-/

namespace LlmStore.Models

open LlmStore.Lib

/-- The default model, able to serve. -/
def Face.Serves (f : Face) : Prop := f.isDefault = true ∧ f.isActive = true ∧ f.status ≠ "soft-deleted"

instance (f : Face) : Decidable f.Serves := by unfold Face.Serves; infer_instance

/-- Exactly one model is the default, and it serves. -/
def Faces.OneDefault (fs : Faces) : Prop :=
  ∃ pk f, fs pk = some f ∧ f.Serves ∧ ∀ k f', fs k = some f' → f'.isDefault = true → k = pk

def Registry.OneDefault (r : Registry) : Prop := (faces r.models).OneDefault

instance (r : Registry) : Decidable r.OneDefault :=
  decidable_of_iff
    (∃ e ∈ r.models.entries, e.2.face.Serves ∧ ∀ e' ∈ r.models.entries, e'.2.face.isDefault = true → e'.1 = e.1)
    (by
      constructor
      · rintro ⟨e, he, hserves, honly⟩
        refine ⟨e.1, _, faces_eq_some_iff.mpr ⟨_, Table.mem_entries_iff.mp he, rfl⟩, hserves, ?_⟩
        intro k f' hf' hdefault
        obtain ⟨m', hm', rfl⟩ := faces_eq_some_iff.mp hf'
        exact honly ⟨k, m'⟩ (Table.mem_entries_iff.mpr hm') hdefault
      · rintro ⟨pk, f, hf, hserves, honly⟩
        obtain ⟨m, hm, rfl⟩ := faces_eq_some_iff.mp hf
        refine ⟨⟨pk, m⟩, Table.mem_entries_iff.mpr hm, hserves, ?_⟩
        intro e' he' hdefault
        exact honly e'.1 _ (faces_eq_some_iff.mpr ⟨_, Table.mem_entries_iff.mp he', rfl⟩) hdefault)

section Faces

variable {fs : Faces} {pk : Uuid}

/-- The default is another one, which serves. -/
theorem oneDefault_of_clear {f : Face} (hserves : f.Serves) :
    Faces.OneDefault (Function.update (fs.clear none) pk (some f)) := by
  refine ⟨pk, f, Function.update_self _ _ _, hserves, fun k f' hf' hdefault => ?_⟩
  by_contra hk
  rw [Function.update_of_ne hk] at hf'
  obtain ⟨f₀, -, rfl⟩ := Option.map_eq_some_iff.mp hf'
  rw [if_neg (Option.some_ne_none k).symm] at hdefault
  cases hdefault

/-- The same with a model that is there. -/
theorem oneDefault_of_clear_set {f : Face} {g : Face → Face} (hf : fs pk = some f) (hserves : (g f).Serves) :
    (Faces.set pk (fun f => some (g f)) (fs.clear (some pk))).OneDefault := by
  refine ⟨pk, g f, ?_, hserves, fun k f' hf' hdefault => ?_⟩
  · rw [Faces.set, Function.update_self, Faces.clear, hf, Option.map_some, if_pos rfl, Option.bind_some]
  · by_contra hk
    rw [Faces.set, Function.update_of_ne hk] at hf'
    obtain ⟨f₀, -, rfl⟩ := Option.map_eq_some_iff.mp hf'
    rw [if_neg fun he => hk (Option.some.inj he).symm] at hdefault
    cases hdefault

/-- A model is added that is not the default. -/
theorem Faces.OneDefault.add (h : fs.OneDefault) (hpk : fs pk = none) {f : Face} (hf : f.isDefault = false) :
    Faces.OneDefault (Function.update fs pk (some f)) := by
  obtain ⟨k, d, hd, hserves, honly⟩ := h
  have hk : k ≠ pk := by
    rintro rfl
    rw [hpk] at hd
    cases hd
  refine ⟨k, d, by rwa [Function.update_of_ne hk], hserves, fun j f' hf' hdefault => ?_⟩
  by_cases hj : j = pk
  · rw [hj, Function.update_self, Option.some.injEq] at hf'
    rw [← hf', hf] at hdefault
    cases hdefault
  · rw [Function.update_of_ne hj] at hf'
    exact honly j f' hf' hdefault

/-- A model is changed; if it is the default it still serves, and if not it does not become the default. -/
theorem Faces.OneDefault.set (h : fs.OneDefault) {g : Face → Option Face}
    (hold : ∀ f, fs pk = some f → f.isDefault = true → ∃ f', g f = some f' ∧ f'.Serves)
    (hnew : ∀ f f', fs pk = some f → f.isDefault = false → g f = some f' → f'.isDefault = false) :
    (fs.set pk g).OneDefault := by
  obtain ⟨k, d, hd, hserves, honly⟩ := h
  have hothers : ∀ j, j ≠ pk → ∀ f', fs.set pk g j = some f' → f'.isDefault = true → j = k := by
    intro j hj f' hf' hdefault
    rw [Faces.set, Function.update_of_ne hj] at hf'
    exact honly j f' hf' hdefault
  by_cases hk : k = pk
  · subst hk
    obtain ⟨f', hf', hserves'⟩ := hold d hd hserves.1
    refine ⟨k, f', by rw [Faces.set, Function.update_self, hd, Option.bind_some, hf'], hserves', ?_⟩
    intro j f'' hf'' hdefault
    by_contra hj
    exact hj (hothers j hj f'' hf'' hdefault)
  · refine ⟨k, d, by rwa [Faces.set, Function.update_of_ne hk], hserves, fun j f' hf' hdefault => ?_⟩
    by_cases hj : j = pk
    · subst hj
      rw [Faces.set, Function.update_self] at hf'
      obtain ⟨f, hf, hgf⟩ := Option.bind_eq_some_iff.mp hf'
      cases hdef : f.isDefault with
      | true => exact honly j f hf hdef
      | false =>
        rw [hnew f f' hf hdef hgf] at hdefault
        cases hdefault
    · exact hothers j hj f' hf' hdefault

end Faces

/-! ## Seeding -/

/-- The ids of the second and the third seeded model. -/
def bonsaiIds (settings : Settings) : List String := [settings.bonsaiModelId, settings.bonsaiModelId ++ "/alias-bonzai"]

/-- The first seeded model does not have the id of another one. -/
def Faces.SeedsDefault (settings : Settings) (fs : Faces) : Prop :=
  ∀ id ∈ bonsaiIds settings, (∀ pk f, fs pk = some f → f.Seeded (settings.modelId, "gemma") → f.modelId ≠ id) ∧
    (settings.modelId = id → ∃ pk f, fs pk = some f ∧ f.Seeded (settings.modelId, "gemma"))

section Seeding

variable {env : Env} {settings : Settings} {t t' : Tables}

/-- The first entry is written to a model that the other two are not written to. -/
theorem EntryStep.base_modelId {e : ModelEntry} {models models' : Table Uuid ModelRow} {pk : Uuid} {base : ModelRow}
    (h : EntryStep env settings e models pk base models') (he : e.names = (settings.modelId, "gemma"))
    (hs : (faces models).SeedsDefault settings) : base.modelId ∉ bonsaiIds settings := by
  intro hid
  obtain ⟨hfound, hnew⟩ := hs _ hid
  rcases h.origin with hbase | ⟨hnone, rfl⟩
  · refine hfound pk base.face (faces_eq_some_iff.mpr ⟨base, hbase, rfl⟩) ?_ rfl
    exact he ▸ matches_iff_seeded.mp h.found
  · have hmodelId : e.modelId = settings.modelId := congrArg Prod.fst he
    obtain ⟨k, f, hf, hseeded⟩ := hnew hmodelId.symm
    obtain ⟨m, hm, rfl⟩ := faces_eq_some_iff.mp hf
    have hk := h.only k m hm (matches_iff_seeded.mpr (he ▸ hseeded))
    rw [hk, hnone] at hm
    cases hm

/-- An entry with another id and another alias is not written to the model. -/
theorem EntryStep.ne_of_face {e : ModelEntry} {models models' : Table Uuid ModelRow} {pk k : Uuid} {base : ModelRow}
    (h : EntryStep env settings e models pk base models') {f : Face} (hf : faces models k = some f)
    (hid : f.modelId ≠ e.modelId) (halias : f.modelAlias ≠ some e.modelAlias) : k ≠ pk := by
  rintro rfl
  rcases h.origin with hbase | ⟨hnone, -⟩
  · obtain rfl := Option.some.inj ((faces_eq_some_iff.mpr ⟨base, hbase, rfl⟩).symm.trans hf)
    rcases ModelEntry.matches_iff.mp h.found with hid' | halias'
    · exact hid hid'
    · exact halias halias'
  · rw [faces, hnone] at hf
    cases hf

/-- **Seeding leaves one default**, the first seeded model. -/
theorem Ensured.oneDefault (h : Ensured env settings t t') (hs : (faces t.models).SeedsDefault settings) :
    (faces t'.models).OneDefault := by
  obtain ⟨gemma, bonsai, bonzai, m₁, m₂, m₃, models₁, models₂, models₃, h₁, h₂, h₃, hmodels⟩ := h.steps
  have hid := h₁.base_modelId rfl hs
  simp only [bonsaiIds, List.mem_cons, List.not_mem_nil, or_false, not_or] at hid
  have hface₁ : faces (addFallback env settings t gemma models₁) gemma =
      some ((seedEntries env settings t).1.face m₁.modelId) := by
    rw [faces_addFallback, h₁.faces_eq, Function.update_self]
  have hbonsai := h₂.ne_of_face hface₁ hid.1 (show some "gemma" ≠ some "bonsai" by decide)
  have hface₂ : faces models₂ gemma = some ((seedEntries env settings t).1.face m₁.modelId) := by
    rw [h₂.faces_eq, Function.update_of_ne hbonsai, hface₁]
  have hbonzai := h₃.ne_of_face hface₂ hid.2 (show some "gemma" ≠ some "bonzai" by decide)
  have hface₃ : faces models₃ gemma = some ((seedEntries env settings t).1.face m₁.modelId) := by
    rw [h₃.faces_eq, Function.update_of_ne hbonzai, hface₂]
  rw [hmodels, faces_clearDefaults]
  refine ⟨gemma, (seedEntries env settings t).1.face m₁.modelId, ?_, ⟨rfl, rfl, ?_⟩, ?_⟩
  · rw [Faces.clear, hface₃, Option.map_some, if_pos rfl]
  · show "configured" ≠ "soft-deleted"
    decide
  · intro k f' hf' hdefault
    by_contra hk
    obtain ⟨f, -, rfl⟩ := Option.map_eq_some_iff.mp hf'
    rw [if_neg fun he => hk (Option.some.inj he).symm] at hdefault
    cases hdefault

end Seeding

/-! ## Operations -/

/-- An operation that is not refused leaves a default that serves: a creation or patch that makes its model the
default, or patches the default, leaves it so, active and not archived; the model that `set_default_model` is given is
not archived; and the first seeded model does not have the id of another one. -/
def Step.KeepsDefault (settings : Settings) (r : Registry) (s : Step) : Prop :=
  match s.operation with
  | .createModel _ payload =>
    (∃ r', attempt settings r s = .ok r') → payload.isDefault = true → payload.face.Serves
  | .patchModel _ pk payload =>
    (∃ r', attempt settings r s = .ok r') → ∀ f, faces r.models pk = some f →
      (f.isDefault = true ∨ payload.isDefault = some (some true)) → (payload.face f).Serves
  | .setDefaultModel pk => ∀ f, faces r.models pk = some f → f.status ≠ "soft-deleted"
  | .ensureDefaultModel => (faces r.models).SeedsDefault settings
  | _ => True

section Operations

variable {settings : Settings} {r : Registry} {s : Step}

/-- A patch that asks for nothing about the default keeps it as it is. -/
theorem ModelRegistryPatch.face_isDefault {payload : ModelRegistryPatch} (h : payload.isDefault ≠ some (some true))
    {f : Face} (hf : f.isDefault = false) : (payload.face f).isDefault = false := by
  unfold ModelRegistryPatch.face
  match hp : payload.isDefault with
  | none => simpa using hf
  | some none => simpa using hf
  | some (some false) => simp
  | some (some true) => exact absurd hp h

/-- The face of a model that is not the default. -/
theorem not_default_of_lookup {pk : Uuid} (h : ∃ m, r.models.lookup pk = some m ∧ ¬ m.isDefault = true) {f : Face}
    (hf : faces r.models pk = some f) : ¬ f.isDefault = true := by
  obtain ⟨m, hm, hnot⟩ := h
  obtain rfl := Option.some.inj ((faces_eq_some_iff.mpr ⟨m, hm, rfl⟩).symm.trans hf)
  exact hnot

/-- What an operation commits has one default. -/
theorem Step.KeepsDefault.commits (h : s.KeepsDefault settings r) (hd : r.OneDefault) :
    ∀ r' ∈ registryCommits settings r s, r'.OneDefault := by
  intro r' hr'
  have hattempt := mem_registryCommits.mp hr'
  have hwrite := attempt_eq_ok_iff.mp hattempt
  have hfaces := faces_of_attempt hattempt
  obtain ⟨env, op⟩ := s
  unfold Registry.OneDefault at hd ⊢
  cases op with
  | createModel files payload =>
    rw [hfaces (by simp), asked_create]
    cases hdef : payload.isDefault with
    | true => exact oneDefault_of_clear (h ⟨r', hattempt⟩ hdef)
    | false =>
      refine hd.add ?_ hdef
      rw [faces, AList.lookup_eq_none.mpr (mt AList.mem_keys.mp (env.uuids.fresh r.models.keys))]
      rfl
  | patchModel files pk payload =>
    obtain ⟨m, hm, -, -⟩ := patchModel_ok hwrite
    have hf : faces r.models pk = some m.face := faces_eq_some_iff.mpr ⟨m, hm, rfl⟩
    rw [hfaces (by simp)]
    show (Faces.set pk _ _).OneDefault
    by_cases hdef : payload.isDefault = some (some true)
    · rw [if_pos hdef]
      exact oneDefault_of_clear_set hf (h ⟨r', hattempt⟩ _ hf (.inr hdef))
    · rw [if_neg hdef]
      refine hd.set (fun f hf hold => ⟨_, rfl, h ⟨r', hattempt⟩ f hf (.inl hold)⟩) fun f f' _ hold hf' => ?_
      obtain rfl := Option.some.inj hf'
      exact payload.face_isDefault hdef hold
  | setDefaultModel pk =>
    obtain ⟨⟨m, hm⟩, -⟩ := setDefaultModel_ok hwrite
    have hf : faces r.models pk = some m.face := faces_eq_some_iff.mpr ⟨m, hm, rfl⟩
    rw [hfaces (by simp)]
    exact oneDefault_of_clear_set hf ⟨rfl, rfl, h m.face hf⟩
  | enableModel pk =>
    rw [hfaces (by simp)]
    refine hd.set (fun f _ hold => ⟨_, rfl, hold, rfl, ?_⟩) fun f f' _ hold hf' => ?_
    · show "configured" ≠ "soft-deleted"
      decide
    · obtain rfl := Option.some.inj hf'
      exact hold
  | disableModel pk =>
    obtain ⟨hmodel, -⟩ := disableModel_ok hwrite
    rw [hfaces (by simp)]
    refine hd.set (fun f hf hold => absurd hold (not_default_of_lookup hmodel hf)) fun f f' _ hold hf' => ?_
    obtain rfl := Option.some.inj hf'
    exact hold
  | deleteModel pk payload deletedAt log hasJobs =>
    obtain ⟨hmodel, -⟩ := deleteModel_ok hwrite
    rw [hfaces (by simp)]
    refine hd.set (fun f hf hold => absurd hold (not_default_of_lookup hmodel hf)) fun f f' _ _ hf' => ?_
    split_ifs at hf'
    obtain rfl := Option.some.inj hf'
    rfl
  | ensureDefaultModel => exact (ensured_of_ok env settings hwrite).oneDefault h
  | _ =>
    rw [hfaces (by simp)]
    exact hd

end Operations

/-- **There is one default model and it can serve**, from the seeding on, in runs that meet the condition. -/
theorem one_default (settings : Settings) (plans : List BillingPlan) (env : Env) (steps : List Step)
    (h : Along (commitStep (registryCommits settings)) (fun r s => s.KeepsDefault settings r) (emptyRegistry plans)
      (⟨env, .ensureDefaultModel⟩ :: steps)) :
    ∀ r ∈ history (registryCommits settings) (emptyRegistry plans) (⟨env, .ensureDefaultModel⟩ :: steps),
      r.OneDefault := by
  obtain ⟨seeded, hseeded, -⟩ := Registry.canRestart (pairsWhole_empty settings plans) env
  have hdefault := (ensured_of_ok env settings (attempt_eq_ok_iff.mp hseeded)).oneDefault h.1
  have hcommits : registryCommits settings (emptyRegistry plans) ⟨env, .ensureDefaultModel⟩ = [seeded] := by
    rw [registryCommits, hseeded]
  have hafter : after (registryCommits settings) (emptyRegistry plans) ⟨env, .ensureDefaultModel⟩ = seeded := by
    rw [after, hcommits]
    rfl
  have hrest := h.2 _ rfl
  rw [hafter] at hrest
  rw [history, hcommits, hafter]
  exact forall_history_of_along (fun r s hd hk => Step.KeepsDefault.commits hk hd) hdefault hrest

/-- Seeding, and a creation of a model that is not the default, meet the condition. -/
theorem keepsDefault_first :
    Along (commitStep (registryCommits plainSettings)) (fun r s => s.KeepsDefault plainSettings r) (emptyRegistry [])
      [⟨plainEnv, .ensureDefaultModel⟩, createStep (namedModel ⟨"a", by decide⟩ none)] := by
  refine ⟨fun id hid => ⟨fun pk f hf => ?_, fun he => ?_⟩, fun _ _ => ⟨fun _ hdefault => ?_, fun _ _ => trivial⟩⟩
  · cases hf
  · rw [← he] at hid
    exact absurd hid (by decide)
  · cases hdefault

theorem one_default_first :
    (history (registryCommits plainSettings) (emptyRegistry [])
        [⟨plainEnv, .ensureDefaultModel⟩, createStep (namedModel ⟨"a", by decide⟩ none)]).length = 2 ∧
      ∀ r ∈ history (registryCommits plainSettings) (emptyRegistry [])
        [⟨plainEnv, .ensureDefaultModel⟩, createStep (namedModel ⟨"a", by decide⟩ none)], r.OneDefault :=
  ⟨by decide +kernel, one_default plainSettings [] plainEnv _ keepsDefault_first⟩

/-- **The default switched off**: a model is created as the default, but not active. -/
theorem default_off :
    ¬ ∀ r ∈ history (registryCommits plainSettings) (emptyRegistry [])
        [⟨plainEnv, .ensureDefaultModel⟩,
          createStep { namedModel ⟨"a", by decide⟩ none with isDefault := true, isActive := false }],
      r.OneDefault := by
  decide +kernel

end LlmStore.Models
