import LlmStore.Lib.Commits
import LlmStore.Models.Faces

/-!
# Public names

A request names a model by its id or its alias, and the two share one namespace: the names are unambiguous if no string
is a name of two models. `create_model` compares ids with ids and aliases with aliases only, `patch_model` aliases with
aliases, and the seeding looks at neither across, so an id may become the alias of another model
(`names_ambiguous`). The names stay unambiguous in all runs whose operations meet `Step.KeepsNames`, and there every
creation and patch that would break it is refused with 409 (`names_unambiguous`).
-/

namespace LlmStore.Models

open LlmStore.Lib

/-! ## Names -/

/-- The model is found under the name. -/
def Face.HasName (name : String) (f : Face) : Prop := f.modelId = name ∨ f.modelAlias = some name

instance (name : String) (f : Face) : Decidable (f.HasName name) := by unfold Face.HasName; infer_instance

/-- No string is a name of two models. -/
def Faces.Unambiguous (fs : Faces) : Prop :=
  ∀ name pk pk' f f', fs pk = some f → fs pk' = some f' → f.HasName name → f'.HasName name → pk = pk'

def Registry.Unambiguous (r : Registry) : Prop := (faces r.models).Unambiguous

/-- The names of a model. -/
def Face.names (f : Face) : List String := f.modelId :: f.modelAlias.toList

theorem Face.mem_names {f : Face} {name : String} : name ∈ f.names ↔ f.HasName name := by
  simp [Face.names, Face.HasName, eq_comm]

instance (r : Registry) : Decidable r.Unambiguous :=
  decidable_of_iff
    (∀ e ∈ r.models.entries, ∀ e' ∈ r.models.entries, ∀ name ∈ e.2.face.names, name ∈ e'.2.face.names → e.1 = e'.1)
    (by
      constructor
      · intro h name pk pk' f f' hf hf' hn hn'
        obtain ⟨m, hm, rfl⟩ := faces_eq_some_iff.mp hf
        obtain ⟨m', hm', rfl⟩ := faces_eq_some_iff.mp hf'
        exact h ⟨pk, m⟩ (Table.mem_entries_iff.mpr hm) ⟨pk', m'⟩ (Table.mem_entries_iff.mpr hm') name
          (Face.mem_names.mpr hn) (Face.mem_names.mpr hn')
      · intro h e he e' he' name hn hn'
        exact h name e.1 e'.1 _ _ (faces_eq_some_iff.mpr ⟨_, Table.mem_entries_iff.mp he, rfl⟩)
          (faces_eq_some_iff.mpr ⟨_, Table.mem_entries_iff.mp he', rfl⟩) (Face.mem_names.mp hn) (Face.mem_names.mp hn'))

/-- Faces with names that were there before, under the same ids, are unambiguous if those were. -/
theorem Faces.Unambiguous.of_names {fs fs' : Faces} (h : fs.Unambiguous)
    (hnames : ∀ pk f', fs' pk = some f' → ∃ f, fs pk = some f ∧ f.modelId = f'.modelId ∧
      f.modelAlias = f'.modelAlias) : fs'.Unambiguous := by
  intro name pk pk' f f' hf hf' hn hn'
  obtain ⟨g, hg, hid, halias⟩ := hnames pk f hf
  obtain ⟨g', hg', hid', halias'⟩ := hnames pk' f' hf'
  have hgn : g.HasName name := by
    unfold Face.HasName at hn ⊢
    rwa [hid, halias]
  have hgn' : g'.HasName name := by
    unfold Face.HasName at hn' ⊢
    rwa [hid', halias']
  exact h name pk pk' g g' hg hg' hgn hgn'

/-- Clearing defaults keeps names. -/
theorem Faces.Unambiguous.clear {fs : Faces} (h : fs.Unambiguous) (keep : Option Uuid) : (fs.clear keep).Unambiguous := by
  refine h.of_names fun pk f' hf' => ?_
  obtain ⟨f, hf, rfl⟩ := Option.map_eq_some_iff.mp hf'
  refine ⟨f, hf, ?_, ?_⟩ <;> split_ifs <;> rfl

/-- A changed face with the old names. -/
theorem Faces.Unambiguous.set {fs : Faces} (h : fs.Unambiguous) (pk : Uuid) {g : Face → Face}
    (hg : ∀ f, (g f).modelId = f.modelId ∧ (g f).modelAlias = f.modelAlias) :
    (fs.set pk fun f => some (g f)).Unambiguous := by
  refine h.of_names fun k f' hf' => ?_
  by_cases hk : k = pk
  · subst hk
    rw [Faces.set, Function.update_self] at hf'
    obtain ⟨f, hf, hgf⟩ := Option.bind_eq_some_iff.mp hf'
    obtain rfl := Option.some.inj hgf
    exact ⟨f, hf, (hg f).1.symm, (hg f).2.symm⟩
  · rw [Faces.set, Function.update_of_ne hk] at hf'
    exact ⟨f', hf', rfl, rfl⟩

/-! ## Seeding -/

/-- The ids and aliases that are seeded. -/
def seedNames (settings : Settings) : List (String × String) :=
  [(settings.modelId, "gemma"), (settings.bonsaiModelId, "bonsai"),
    (settings.bonsaiModelId ++ "/alias-bonzai", "bonzai")]

/-- The names of an entry. -/
def ModelEntry.names (e : ModelEntry) : String × String := (e.modelId, e.modelAlias)

/-- The face has the id or the alias of a seeded model as its own. -/
def Face.Seeded (n : String × String) (f : Face) : Prop := f.modelId = n.1 ∨ f.modelAlias = some n.2

instance (n : String × String) (f : Face) : Decidable (f.Seeded n) := by unfold Face.Seeded; infer_instance

/-- No model but the seeded one has a seeded id as its alias or a seeded alias as its id. -/
structure SeedNamesFree (names : List (String × String)) (fs : Faces) : Prop where
  distinct : ∀ n ∈ names, ∀ n' ∈ names, n.1 = n'.2 → n = n'
  ids : ∀ n ∈ names, ∀ pk f, fs pk = some f → f.modelId = n.2 → f.Seeded n
  aliases : ∀ n ∈ names, ∀ pk f, fs pk = some f → f.modelAlias = some n.1 → f.Seeded n

section Seeding

variable {env : Env} {settings : Settings} {e : ModelEntry} {models models' : Table Uuid ModelRow} {pk : Uuid}
  {base : ModelRow}

theorem matches_iff_seeded {m : ModelRow} : e.matches m = true ↔ m.face.Seeded e.names := ModelEntry.matches_iff

/-- Another face is not that of the entry. -/
theorem EntryStep.not_seeded (h : EntryStep env settings e models pk base models') {k : Uuid} (hk : k ≠ pk) {f : Face}
    (hf : faces models k = some f) : ¬ f.Seeded e.names := by
  intro hs
  obtain ⟨m, hm, rfl⟩ := faces_eq_some_iff.mp hf
  exact hk (h.only k m hm (matches_iff_seeded.mpr hs))

/-- No other model has a name of the model that an entry is written to. -/
theorem EntryStep.fresh {rest : List (String × String)} (h : EntryStep env settings e models pk base models')
    (hu : (faces models).Unambiguous) (hs : SeedNamesFree (e.names :: rest) (faces models)) {k : Uuid} (hk : k ≠ pk)
    {f : Face} (hf : faces models k = some f) {name : String} (hn : f.HasName name) :
    ¬ (e.face base.modelId).HasName name := by
  have hnot := h.not_seeded hk hf
  have hown : name ≠ e.modelAlias := by
    rintro rfl
    rcases hn with hid | halias
    · exact hnot (hs.ids e.names List.mem_cons_self k f hf hid)
    · exact hnot (.inr halias)
  rintro (hid | halias)
  · have hid' : base.modelId = name := hid
    rcases h.origin with hbase | ⟨-, rfl⟩
    · exact hk (hu name k pk f base.face hf (faces_eq_some_iff.mpr ⟨base, hbase, rfl⟩) hn (.inl hid'))
    · obtain rfl : e.modelId = name := hid'
      rcases hn with hid | halias
      · exact hnot (.inl hid)
      · exact hnot (hs.aliases e.names List.mem_cons_self k f hf halias)
  · exact hown (Option.some.inj halias).symm

/-- An entry keeps the names unambiguous. -/
theorem EntryStep.unambiguous {rest : List (String × String)} (h : EntryStep env settings e models pk base models')
    (hu : (faces models).Unambiguous) (hs : SeedNamesFree (e.names :: rest) (faces models)) :
    (faces models').Unambiguous := by
  rw [h.faces_eq]
  intro name k k' f f' hf hf' hn hn'
  by_cases hk : k = pk
  · by_cases hk' : k' = pk
    · exact hk.trans hk'.symm
    · rw [hk, Function.update_self, Option.some.injEq] at hf
      rw [Function.update_of_ne hk'] at hf'
      exact absurd (hf ▸ hn) (h.fresh hu hs hk' hf' hn')
  · rw [Function.update_of_ne hk] at hf
    by_cases hk' : k' = pk
    · rw [hk', Function.update_self, Option.some.injEq] at hf'
      exact absurd (hf' ▸ hn') (h.fresh hu hs hk hf hn)
    · rw [Function.update_of_ne hk'] at hf'
      exact hu name k k' f f' hf hf' hn hn'

/-- An entry leaves the names of the entries after it free. -/
theorem EntryStep.namesFree {rest : List (String × String)} (h : EntryStep env settings e models pk base models')
    (hs : SeedNamesFree (e.names :: rest) (faces models)) (hrest : ∀ n ∈ rest, n.2 ≠ e.modelAlias) :
    SeedNamesFree rest (faces models') := by
  have hdistinct : ∀ n ∈ rest, ∀ n' ∈ e.names :: rest, n'.1 = n.2 → n' ≠ e.names := by
    intro n hn n' hn' he hne
    have := hs.distinct n' hn' n (List.mem_cons_of_mem _ hn) he
    exact hrest n hn (by rw [← this, hne]; rfl)
  refine ⟨fun n hn n' hn' => hs.distinct n (List.mem_cons_of_mem _ hn) n' (List.mem_cons_of_mem _ hn'), ?_, ?_⟩
  · intro n hn k f hf hid
    by_cases hk : k = pk
    · rw [hk, h.faces_eq, Function.update_self, Option.some.injEq] at hf
      subst hf
      have hid' : base.modelId = n.2 := hid
      rcases h.origin with hbase | ⟨-, rfl⟩
      · have hface : faces models pk = some base.face := faces_eq_some_iff.mpr ⟨base, hbase, rfl⟩
        rcases hs.ids n (List.mem_cons_of_mem _ hn) pk base.face hface hid' with hseeded | halias
        · exact .inl hseeded
        · rcases matches_iff_seeded.mp h.found with hfound | hfound
          · exact absurd rfl (hdistinct n hn e.names List.mem_cons_self (hfound.symm.trans hid'))
          · exact absurd (Option.some.inj (halias.symm.trans hfound)) (hrest n hn)
      · exact absurd rfl (hdistinct n hn e.names List.mem_cons_self hid')
    · rw [h.faces_eq, Function.update_of_ne hk] at hf
      exact hs.ids n (List.mem_cons_of_mem _ hn) k f hf hid
  · intro n hn k f hf halias
    by_cases hk : k = pk
    · rw [hk, h.faces_eq, Function.update_self, Option.some.injEq] at hf
      subst hf
      have he : n.1 = e.modelAlias := (Option.some.inj halias).symm
      have hne := hs.distinct n (List.mem_cons_of_mem _ hn) e.names List.mem_cons_self he
      exact absurd (by rw [hne]; rfl) (hrest n hn)
    · rw [h.faces_eq, Function.update_of_ne hk] at hf
      exact hs.aliases n (List.mem_cons_of_mem _ hn) k f hf halias

/-- Seeding keeps the names unambiguous if they are free. -/
theorem Ensured.unambiguous {t t' : Tables} (h : Ensured env settings t t') (hu : (faces t.models).Unambiguous)
    (hs : SeedNamesFree (seedNames settings) (faces t.models)) : (faces t'.models).Unambiguous := by
  obtain ⟨gemma, bonsai, bonzai, m₁, m₂, m₃, models₁, models₂, models₃, h₁, h₂, h₃, hmodels⟩ := h.steps
  have hu₁ := h₁.unambiguous hu hs
  have hgemma : (seedEntries env settings t).1.modelAlias = "gemma" := rfl
  have hbonsai : (seedEntries env settings t).2.1.modelAlias = "bonsai" := rfl
  have hs₁ := h₁.namesFree hs (by rw [hgemma]; simp)
  rw [← faces_addFallback env settings t gemma models₁] at hu₁ hs₁
  have hu₂ := h₂.unambiguous hu₁ hs₁
  have hs₂ := h₂.namesFree hs₁ (by rw [hbonsai]; simp)
  rw [hmodels, faces_clearDefaults]
  exact (h₃.unambiguous hu₂ hs₂).clear _

end Seeding

/-! ## Operations -/

/-- The operation keeps the names unambiguous: its names are those of no other model, or its own search finds the one
model that has one of them. -/
def Step.KeepsNames (settings : Settings) (r : Registry) (s : Step) : Prop :=
  match s.operation with
  | .createModel _ payload =>
    (s.asked r).Unambiguous ∨ ∃ pk m, r.models.lookup pk = some m ∧ payload.duplicates m = true ∧
      ∀ k m', r.models.lookup k = some m' → payload.duplicates m' = true → k = pk
  | .patchModel _ pk payload =>
    (s.asked r).Unambiguous ∨ ∃ name k m, payload.modelAlias = some (some name) ∧ k ≠ pk ∧
      r.models.lookup k = some m ∧ m.modelAlias = some name.val
  | .deleteModel .. => (s.asked r).Unambiguous
  | .ensureDefaultModel => SeedNamesFree (seedNames settings) (faces r.models)
  | _ => True

/-- A creation or patch that comes to its search for duplicates and asks for a name of another model. -/
def Step.Breaks (r : Registry) (s : Step) : Prop :=
  match s.operation with
  | .createModel files payload =>
    (∃ c, createModelChecks s.env files payload r.toTables = .ok c) ∧
      ∃ pk f name, faces r.models pk = some f ∧ f.HasName name ∧ payload.face.HasName name
  | .patchModel _ pk payload =>
    (∃ m, patchModelChecks pk payload r.toTables = .ok m) ∧
      ∃ k f name, k ≠ pk ∧ faces r.models k = some f ∧ f.HasName name.val ∧ payload.modelAlias = some (some name)
  | _ => False

section Operations

variable {settings : Settings} {r : Registry} {s : Step}

/-- What an operation commits has unambiguous names. -/
theorem Step.KeepsNames.commits (h : s.KeepsNames settings r) (hu : r.Unambiguous) :
    ∀ r' ∈ registryCommits settings r s, r'.Unambiguous := by
  intro r' hr'
  have hattempt := mem_registryCommits.mp hr'
  have hwrite := attempt_eq_ok_iff.mp hattempt
  have hfaces := faces_of_attempt hattempt
  obtain ⟨env, op⟩ := s
  unfold Registry.Unambiguous at hu ⊢
  cases op with
  | createModel files payload =>
    rw [hfaces (by simp)]
    rcases h with h | ⟨pk, m, hm, hdup, -⟩
    · exact h
    · have hnone := (createModel_ok hwrite).1 pk m hm
      rw [hdup] at hnone
      cases hnone
  | patchModel files pk payload =>
    rw [hfaces (by simp)]
    rcases h with h | ⟨name, k, m, hname, hk, hm, halias⟩
    · exact h
    · obtain ⟨model, -, hrest⟩ := bind_eq_ok_iff.mp hwrite
      obtain ⟨u, hsearch, -⟩ := bind_eq_ok_iff.mp hrest
      exact absurd (patchModelSearch_eq_ok_iff.mp hsearch name hname k m hm halias) hk
  | deleteModel pk payload deletedAt log hasJobs =>
    rw [hfaces (by simp)]
    exact h
  | setDefaultModel pk =>
    rw [hfaces (by simp)]
    exact (hu.clear (some pk)).set pk fun f => ⟨rfl, rfl⟩
  | enableModel pk =>
    rw [hfaces (by simp)]
    exact hu.set pk fun f => ⟨rfl, rfl⟩
  | disableModel pk =>
    rw [hfaces (by simp)]
    exact hu.set pk fun f => ⟨rfl, rfl⟩
  | ensureDefaultModel => exact (ensured_of_ok env settings hwrite).unambiguous hu h
  | _ =>
    rw [hfaces (by simp)]
    exact hu

/-- A creation that would break the names is refused with 409. -/
theorem create_refused {env : Env} {files : String → FileCheck} {payload : ModelRegistryCreate} {t : Tables}
    {c : CreateContext} (hc : createModelChecks env files payload t = .ok c) {pk : Uuid} {m : ModelRow}
    (hm : t.models.lookup pk = some m) (hdup : payload.duplicates m = true)
    (honly : ∀ k m', t.models.lookup k = some m' → payload.duplicates m' = true → k = pk) :
    createModel env files payload t = refuse 409 "model id or alias already exists" := by
  rw [← createModelChecks_models hc] at hm honly
  have hs := scalarOneOrNone_some_iff (p := fun _ m => payload.duplicates m).mpr ⟨hm, hdup, honly⟩
  rw [createModel, hc]
  show (createModelSearch payload c.tables >>= fun _ => _) = _
  rw [createModelSearch, hs]
  rfl

/-- A patch that would break the names is refused with 409. -/
theorem patch_refused {env : Env} {files : String → FileCheck} {payload : ModelRegistryPatch} {pk : Uuid}
    {m : ModelRow} (hchecks : patchModelChecks pk payload r.toTables = .ok m) {name : NonEmpty}
    (hname : payload.modelAlias = some (some name)) {k : Uuid} (hk : k ≠ pk) {m' : ModelRow}
    (hm' : r.models.lookup k = some m') (halias : m'.modelAlias = some name.val) :
    patchModel env files pk payload r.toTables = refuse 409 "model alias already exists" := by
  have hs := scalarOneOrNone_some_iff (t := r.models) (p := fun k m => m.modelAlias = some name.val && k != pk).mpr
    ⟨hm', by simp [halias, hk], fun i n hi hn => r.modelAlias_inj hi hm' (by simpa using (by simpa using hn : _ ∧ _).1) halias⟩
  rw [patchModel, hchecks]
  show (patchModelSearch pk payload r.toTables >>= fun _ => _) = _
  rw [patchModelSearch, hname]
  show (scalarOneOrNone _ >>= _) >>= _ = _
  rw [hs]
  rfl

/-- Under the condition, a creation or patch that would break the names is refused with 409 and commits nothing. -/
theorem Step.KeepsNames.refuses (h : s.KeepsNames settings r) (hb : s.Breaks r) :
    ∃ detail, attempt settings r s = .error (.http ⟨409, detail⟩) ∧ registryCommits settings r s = [] := by
  have hrefused : ∀ {detail : String}, s.operation.write settings s.env r.toTables = refuse 409 detail →
      ∃ detail, attempt settings r s = .error (.http ⟨409, detail⟩) ∧ registryCommits settings r s = [] := by
    intro detail hw
    have ha : attempt settings r s = .error (.http ⟨409, detail⟩) := by
      rw [attempt, hw]
      rfl
    exact ⟨detail, ha, by rw [registryCommits, ha]⟩
  obtain ⟨env, op⟩ := s
  cases op with
  | createModel files payload =>
    obtain ⟨⟨c, hc⟩, pk, f, name, hf, hn, hn'⟩ := hb
    rcases h with h | ⟨pk, m, hm, hdup, honly⟩
    · have hfresh : faces r.models (env.uuids.next r.models.keys) = none := by
        rw [faces, AList.lookup_eq_none.mpr (mt AList.mem_keys.mp (env.uuids.fresh r.models.keys))]
        rfl
      have hne : pk ≠ env.uuids.next r.models.keys := by
        rintro rfl
        rw [hfresh] at hf
        cases hf
      obtain ⟨f', hf', hn''⟩ : ∃ f', (if payload.isDefault then (faces r.models).clear none else faces r.models) pk =
          some f' ∧ f'.HasName name := by
        split_ifs
        · exact ⟨{ f with isDefault := false }, by rw [Faces.clear, hf]; rfl, hn⟩
        · exact ⟨f, hf, hn⟩
      have hold : Step.asked ⟨env, .createModel files payload⟩ r pk = some f' := by
        rw [asked_create, Function.update_of_ne hne]
        exact hf'
      exact absurd (h name pk _ f' payload.face hold (Function.update_self _ _ _) hn'' hn') hne
    · exact hrefused (create_refused hc hm hdup honly)
  | patchModel files pk payload =>
    obtain ⟨⟨m, hchecks⟩, k, f, name, hk, hf, hn, hname⟩ := hb
    rcases h with h | ⟨name, k, m', hname, hk, hm', halias⟩
    · obtain ⟨f', hf', hn'⟩ : ∃ f', (if payload.isDefault = some (some true) then (faces r.models).clear (some pk)
          else faces r.models) k = some f' ∧ f'.HasName name.val := by
        split_ifs
        · refine ⟨{ f with isDefault := false }, ?_, hn⟩
          rw [Faces.clear, hf, Option.map_some, if_neg fun he => hk (Option.some.inj he).symm]
        · exact ⟨f, hf, hn⟩
      have hold : Step.asked ⟨env, .patchModel files pk payload⟩ r k = some f' := by
        rw [asked_patch, Function.update_of_ne hk]
        exact hf'
      have hm : faces r.models pk = some m.face := faces_eq_some_iff.mpr ⟨m, patchModelChecks_ok hchecks, rfl⟩
      obtain ⟨g, hg, hgalias⟩ : ∃ g, Step.asked ⟨env, .patchModel files pk payload⟩ r pk = some g ∧
          g.modelAlias = some name.val := by
        rw [asked_patch, Function.update_self]
        split_ifs
        · refine ⟨payload.face m.face, ?_, by simp [ModelRegistryPatch.face, hname]⟩
          rw [Faces.clear, hm, Option.map_some, if_pos rfl, Option.map_some]
        · exact ⟨payload.face m.face, by rw [hm, Option.map_some], by simp [ModelRegistryPatch.face, hname]⟩
      exact absurd (h name.val k pk f' g hold hg hn' (.inr hgalias)) hk
    · exact hrefused (patch_refused hchecks hname hk hm' halias)
  | _ => cases hb

end Operations

/-- **The names are unambiguous in every run that meets the condition**, and each of its creations and patches that
would break this is refused with 409 and changes nothing. -/
theorem names_unambiguous (settings : Settings) (plans : List BillingPlan) (steps : List Step)
    (h : Along (commitStep (registryCommits settings)) (fun r s => s.KeepsNames settings r) (emptyRegistry plans)
      steps) :
    (∀ r ∈ emptyRegistry plans :: history (registryCommits settings) (emptyRegistry plans) steps, r.Unambiguous) ∧
      Along (commitStep (registryCommits settings))
        (fun r s => s.Breaks r → ∃ detail, attempt settings r s = .error (.http ⟨409, detail⟩) ∧
          registryCommits settings r s = [])
        (emptyRegistry plans) steps := by
  have hempty : (emptyRegistry plans).Unambiguous := by
    intro name pk pk' f f' hf
    cases hf
  have hstep : ∀ (r : Registry) (s : Step), r.Unambiguous → s.KeepsNames settings r →
      ∀ r' ∈ registryCommits settings r s, r'.Unambiguous := fun r s hu hk => hk.commits hu
  exact ⟨forall_history_of_along hstep hempty h,
    along_of_along hstep (fun r s _ hk hb => hk.refuses hb) hempty h⟩

/-! ### An id that becomes an alias -/

/-- A model without a backend, named as in the request. -/
def namedModel (modelId : NonEmpty) (modelAlias : Option NonEmpty) : ModelRegistryCreate where
  displayName := none
  modelId
  modelAlias
  inferenceBackendId := none
  provider := .vllm
  modelFile := "model"
  contextLength := 4096
  isActive := true
  isDefault := false
  status := "configured"
  promptTemplate := none
  allowReasoning := none
  includeReasoningDefault := none
  allowedPlanCodes := none
  createBackend := none
  metadataJson := .absent
  backendRoutes := []

def plainEnv : Env where
  now := 0
  uuids := Source.uuids "00000000"
  backendIds := Source.counter
  modelsDir := "/models"

/-- The creation of a model. -/
def createStep (payload : ModelRegistryCreate) : Step := ⟨plainEnv, .createModel (fun _ => .missing) payload⟩

def plainSettings : Settings where
  modelId := "unsloth/gemma-4-E4B-it-GGUF"
  modelFile := "gemma-4-E4B-it-Q4_K_M.gguf"
  bonsaiModelId := "bonsai/bonsai-8B-GGUF"
  bonsaiModelFile := "bonsai-8B.gguf"
  bonsaiEnabled := false
  maxContextTokens := 32768
  dataPlaneBaseUrl := "http://data-plane-gemma:8081"
  bonsaiBaseUrl := "http://data-plane-bonsai:8082"
  ollamaBaseUrl := "http://data-plane-ollama:11434"

instance (names : List (String × String)) (models : Table Uuid ModelRow) :
    Decidable (SeedNamesFree names (faces models)) :=
  decidable_of_iff
    ((∀ n ∈ names, ∀ n' ∈ names, n.1 = n'.2 → n = n') ∧ ∀ n ∈ names, ∀ e ∈ models.entries,
      (e.2.modelId = n.2 → e.2.face.Seeded n) ∧ (e.2.modelAlias = some n.1 → e.2.face.Seeded n))
    (by
      constructor
      · rintro ⟨hdistinct, h⟩
        refine ⟨hdistinct, fun n hn pk f hf hid => ?_, fun n hn pk f hf halias => ?_⟩
        · obtain ⟨m, hm, rfl⟩ := faces_eq_some_iff.mp hf
          exact (h n hn ⟨pk, m⟩ (Table.mem_entries_iff.mpr hm)).1 hid
        · obtain ⟨m, hm, rfl⟩ := faces_eq_some_iff.mp hf
          exact (h n hn ⟨pk, m⟩ (Table.mem_entries_iff.mpr hm)).2 halias
      · intro h
        refine ⟨h.distinct, fun n hn e he => ?_⟩
        have hf : faces models e.1 = some e.2.face := faces_eq_some_iff.mpr ⟨e.2, Table.mem_entries_iff.mp he, rfl⟩
        exact ⟨h.ids n hn e.1 _ hf, h.aliases n hn e.1 _ hf⟩)

/-- What shows that an operation keeps the names unambiguous: what it commits, or the one model that a creation finds
with one of its names. -/
def Step.ShowsNames (settings : Settings) (r : Registry) (s : Step) : Prop :=
  match s.operation with
  | .createModel _ payload =>
    (∃ r' ∈ registryCommits settings r s, r'.Unambiguous) ∨ ∃ e ∈ r.models.entries, payload.duplicates e.2 = true ∧
      ∀ e' ∈ r.models.entries, payload.duplicates e'.2 = true → e'.1 = e.1
  | .patchModel .. | .deleteModel .. => ∃ r' ∈ registryCommits settings r s, r'.Unambiguous
  | .ensureDefaultModel => SeedNamesFree (seedNames settings) (faces r.models)
  | _ => True

instance (settings : Settings) (r : Registry) (s : Step) : Decidable (s.ShowsNames settings r) := by
  obtain ⟨env, op⟩ := s
  cases op <;> dsimp only [Step.ShowsNames] <;> infer_instance

theorem Step.ShowsNames.keeps {settings : Settings} {r : Registry} {s : Step} (h : s.ShowsNames settings r) :
    s.KeepsNames settings r := by
  have hcommitted : s.operation ≠ .ensureDefaultModel → (∃ r' ∈ registryCommits settings r s, r'.Unambiguous) →
      (s.asked r).Unambiguous := by
    rintro hs ⟨r', hr', hu⟩
    rw [← faces_of_attempt (mem_registryCommits.mp hr') hs]
    exact hu
  obtain ⟨env, op⟩ := s
  cases op with
  | createModel files payload =>
    rcases h with h | ⟨e, he, hdup, honly⟩
    · exact .inl (hcommitted nofun h)
    · exact .inr ⟨e.1, e.2, Table.mem_entries_iff.mp he, hdup, fun k m' hm' =>
        honly ⟨k, m'⟩ (Table.mem_entries_iff.mpr hm')⟩
  | patchModel files pk payload => exact .inl (hcommitted nofun h)
  | deleteModel pk payload deletedAt log hasJobs => exact hcommitted nofun h
  | _ => exact h

/-- The seeding, two models of which the second gets an alias by a patch, a third one with the alias of the first, which
is refused, the deletion of the first, and the seeding again. -/
def namesRun : List Step :=
  [⟨plainEnv, .ensureDefaultModel⟩, createStep (namedModel ⟨"a", by decide⟩ (some ⟨"b", by decide⟩)),
    createStep (namedModel ⟨"c", by decide⟩ none),
    ⟨plainEnv, .patchModel (fun _ => .missing) ⟨"00000000", 5⟩ { modelAlias := some (some ⟨"d", by decide⟩) }⟩,
    createStep (namedModel ⟨"e", by decide⟩ (some ⟨"b", by decide⟩)),
    ⟨plainEnv, .deleteModel ⟨"00000000", 4⟩ ⟨false, .soft⟩ "20260508" [] false⟩, ⟨plainEnv, .ensureDefaultModel⟩]

theorem names_unambiguous_seven :
    (history (registryCommits plainSettings) (emptyRegistry []) namesRun).length = 6 ∧
      (∀ r ∈ emptyRegistry [] :: history (registryCommits plainSettings) (emptyRegistry []) namesRun, r.Unambiguous) ∧
      Along (commitStep (registryCommits plainSettings))
        (fun r s => s.Breaks r → ∃ detail, attempt plainSettings r s = .error (.http ⟨409, detail⟩) ∧
          registryCommits plainSettings r s = [])
        (emptyRegistry []) namesRun := by
  have hshows : Along (commitStep (registryCommits plainSettings)) (fun r s => s.ShowsNames plainSettings r)
      (emptyRegistry []) namesRun := by
    decide +kernel
  exact ⟨by decide +kernel, names_unambiguous plainSettings [] namesRun (hshows.mono fun _ _ => Step.ShowsNames.keeps)⟩

/-- **A name of two models**: the second creation gives its model the id of the first one as its alias. -/
theorem names_ambiguous :
    ¬ ∀ r ∈ emptyRegistry [] :: history (registryCommits plainSettings) (emptyRegistry [])
        [createStep (namedModel ⟨"a", by decide⟩ none), createStep (namedModel ⟨"b", by decide⟩ (some ⟨"a", by decide⟩))],
      r.Unambiguous := by
  decide +kernel

end LlmStore.Models
