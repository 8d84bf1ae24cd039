import LlmStore.Lib.Trim
import LlmStore.Models.PublicNames

/-!
# Model files

A model of `llama.cpp` names a GGUF file. `create_model` checks the file of the request for the provider of the request;
`patch_model` checks it only if the patch has a file, so a patch of the provider alone makes any file that of a `llama.cpp`
model (`provider_patched`). `gguf_models_iff` says that this is the only way, for all runs.
-/

namespace LlmStore.Models

open LlmStore.Lib

/-! ## Files -/

/-- `sanitize_model_filename` accepts the file for `llama.cpp`. -/
def GgufFile (file : String) : Prop := ∃ normalized, sanitizeModelFilename file (some .llamaCpp) = .ok normalized

instance (file : String) : Decidable (GgufFile file) :=
  decidable_of_iff ((sanitizeModelFilename file (some .llamaCpp)).toBool = true) (by
    unfold GgufFile
    cases sanitizeModelFilename file (some .llamaCpp) <;> simp [Except.toBool])

/-- What is accepted has the name as it is written without spaces around it, and is accepted again. -/
theorem sanitizeModelFilename_eq_ok {filename file : String} {provider : Option Provider}
    (h : sanitizeModelFilename filename provider = .ok file) : file = String.ofList (Text.strip filename.toList) := by
  unfold sanitizeModelFilename at h
  dsimp only at h
  split_ifs at h
  exact (Except.ok.inj h).symm

theorem sanitizeModelFilename_again {filename file : String} {provider : Option Provider}
    (h : sanitizeModelFilename filename provider = .ok file) : sanitizeModelFilename file provider = .ok file := by
  obtain rfl := sanitizeModelFilename_eq_ok h
  rw [← h]
  unfold sanitizeModelFilename
  rw [String.toList_ofList, show Text.strip (Text.strip filename.toList) = Text.strip filename.toList from trim_trim _]

/-- A GGUF file is a plain file name that ends in `.gguf`, in any letter case. -/
theorem GgufFile.plain {file : String} (h : GgufFile file) :
    '/' ∉ Text.strip file.toList ∧ ".gguf".toList <:+ lower (Text.strip file.toList) := by
  obtain ⟨normalized, h⟩ := h
  unfold sanitizeModelFilename at h
  dsimp only at h
  split_ifs at h with hempty houtside hslash hsuffix
  push Not at hslash hsuffix
  exact ⟨hslash.1, hsuffix rfl⟩

/-- The model names a GGUF file if it is one of `llama.cpp`. -/
def ModelRow.NamesGguf (m : ModelRow) : Prop := m.provider = .llamaCpp → GgufFile m.modelFile

/-- All models of `llama.cpp` name GGUF files. -/
def GgufModels (models : Table Uuid ModelRow) : Prop := ∀ pk m, models.lookup pk = some m → m.NamesGguf

instance (m : ModelRow) : Decidable m.NamesGguf := by unfold ModelRow.NamesGguf; infer_instance

instance (models : Table Uuid ModelRow) : Decidable (GgufModels models) :=
  decidable_of_iff (∀ e ∈ models.entries, e.2.NamesGguf)
    ⟨fun h pk m hm => h ⟨pk, m⟩ (Table.mem_entries_iff.mpr hm), fun h e he => h e.1 e.2 (Table.mem_entries_iff.mp he)⟩

section Tables

variable {models : Table Uuid ModelRow} {pk : Uuid}

theorem GgufModels.insert (h : GgufModels models) {m : ModelRow} (hm : m.NamesGguf) : GgufModels (models.insert pk m) := by
  intro k m' hm'
  by_cases hk : k = pk
  · subst hk
    rw [AList.lookup_insert, Option.some.injEq] at hm'
    exact hm' ▸ hm
  · rw [AList.lookup_insert_ne hk] at hm'
    exact h k m' hm'

theorem GgufModels.modify (h : GgufModels models) {f : ModelRow → ModelRow}
    (hf : ∀ m, models.lookup pk = some m → (f m).NamesGguf) : GgufModels (models.modify pk f) := by
  intro k m' hm'
  by_cases hk : k = pk
  · subst hk
    rw [Table.lookup_modify_self, Option.map_eq_some_iff] at hm'
    obtain ⟨m, hm, rfl⟩ := hm'
    exact hf m hm
  · rw [Table.lookup_modify_ne hk] at hm'
    exact h k m' hm'

theorem GgufModels.erase (h : GgufModels models) : GgufModels (models.erase pk) := by
  intro k m hm
  by_cases hk : k = pk
  · rw [hk, AList.lookup_erase] at hm
    cases hm
  · rw [AList.lookup_erase_ne hk] at hm
    exact h k m hm

theorem GgufModels.clearDefaults (h : GgufModels models) (keep : Option Uuid) :
    GgufModels (clearDefaults keep models) := by
  intro k m' hm'
  rw [Models.clearDefaults, Table.lookup_mapRows, Option.map_eq_some_iff] at hm'
  obtain ⟨m, hm, rfl⟩ := hm'
  have := h k m hm
  split_ifs
  · exact this
  · exact this

end Tables

/-! ## Operations -/

/-- A step that is no seeding. -/
abbrev RequestStep := { s : Step // s.operation ≠ .ensureDefaultModel }

/-- The states that a request commits. -/
def requestCommits (settings : Settings) (r : Registry) (s : RequestStep) : List Registry :=
  registryCommits settings r s.val

/-- A patch that is not refused, makes its model one of `llama.cpp` and has no file for it finds a GGUF file there. -/
def RequestStep.KeepsGguf (settings : Settings) (r : Registry) (s : RequestStep) : Prop :=
  match s.val.operation with
  | .patchModel _ pk payload => (∃ r', attempt settings r s.val = .ok r') → payload.provider = some (some .llamaCpp) →
      payload.modelFile = none → ∀ m, r.models.lookup pk = some m → GgufFile m.modelFile
  | _ => True

section Operations

variable {env : Env} {files : String → FileCheck} {settings : Settings} {t t' : Tables} {pk : Uuid}

theorem gguf_of_checkModelFile {filename file : String}
    (h : checkModelFile env files filename (some .llamaCpp) = .ok file) : GgufFile file := by
  unfold checkModelFile at h
  cases hs : sanitizeModelFilename filename (some .llamaCpp) with
  | error text =>
    rw [hs] at h
    cases h
  | ok normalized =>
    rw [hs] at h
    dsimp only at h
    rw [if_pos rfl] at h
    cases hf : files normalized with
    | present =>
      rw [hf] at h
      obtain rfl := Except.ok.inj h
      exact ⟨_, sanitizeModelFilename_again hs⟩
    | _ =>
      rw [hf] at h
      cases h

/-- The file of a created model is checked. -/
theorem createModel_gguf {payload : ModelRegistryCreate} (h : createModel env files payload t = .ok t')
    (ht : GgufModels t.models) : GgufModels t'.models := by
  obtain ⟨c, hc, h⟩ := bind_eq_ok_iff.mp h
  obtain ⟨_, -, h⟩ := bind_eq_ok_iff.mp h
  obtain ⟨routes, -, h⟩ := bind_eq_ok_iff.mp h
  obtain ⟨plans, -, h⟩ := bind_eq_ok_iff.mp h
  have hmodels := createModelChecks_models hc
  obtain ⟨⟨backendId, backends⟩, -, hc⟩ := bind_eq_ok_iff.mp hc
  obtain ⟨file, hfile, hc⟩ := bind_eq_ok_iff.mp hc
  cases hc
  cases h
  refine GgufModels.insert ?_ fun hprovider => ?_
  · split_ifs
    · exact ht.clearDefaults none
    · exact ht
  · have hp : payload.provider = .llamaCpp := hprovider
    rw [hp] at hfile
    exact gguf_of_checkModelFile hfile

theorem require_eq_some {α : Type} {patch : Patch α} {old a : α} (h : patch.require old = .ok a) :
    patch.getD (some old) = some a := by
  match patch with
  | none => cases h; rfl
  | some none => cases h
  | some (some b) => cases h; rfl

/-- What a patch makes of its model: the provider is that of the patch or the old one, and the file is checked for it if
it is in the patch. -/
theorem patchModel_file {payload : ModelRegistryPatch} (h : patchModel env files pk payload t = .ok t') :
    ∃ (m : ModelRow) (f : ModelRow → ModelRow) (provider : Provider) (file : String), t.models.lookup pk = some m ∧
      t'.models = (if payload.isDefault = some (some true) then clearDefaults (some pk) t.models else t.models).modify pk f ∧
      payload.provider.getD (some m.provider) = some provider ∧ patchModelFile env files payload m = .ok file ∧
      ∀ m', (f m').provider = provider ∧ (f m').modelFile = file := by
  obtain ⟨m, hm, h⟩ := bind_eq_ok_iff.mp h
  obtain ⟨_, -, h⟩ := bind_eq_ok_iff.mp h
  obtain ⟨_, -, h⟩ := bind_eq_ok_iff.mp h
  obtain ⟨modelFile, hfile, h⟩ := bind_eq_ok_iff.mp h
  obtain ⟨provider, hprovider, h⟩ := bind_eq_ok_iff.mp h
  obtain ⟨contextLength, -, h⟩ := bind_eq_ok_iff.mp h
  obtain ⟨isDefault, -, h⟩ := bind_eq_ok_iff.mp h
  obtain ⟨isActive, -, h⟩ := bind_eq_ok_iff.mp h
  obtain ⟨status, -, h⟩ := bind_eq_ok_iff.mp h
  obtain ⟨routes, -, h⟩ := bind_eq_ok_iff.mp h
  obtain ⟨plans, -, h⟩ := bind_eq_ok_iff.mp h
  rw [← Except.ok.inj h]
  dsimp only
  refine ⟨m, _, provider, modelFile, patchModelChecks_ok hm, rfl, require_eq_some hprovider, hfile, ?_⟩
  exact fun _ => ⟨rfl, rfl⟩

/-- A patched model names a GGUF file just if the patch has a file or the file that is there is one. -/
theorem patchModel_gguf_iff {payload : ModelRegistryPatch} (h : patchModel env files pk payload t = .ok t')
    (ht : GgufModels t.models) : GgufModels t'.models ↔ (payload.provider = some (some .llamaCpp) →
      payload.modelFile = none → ∀ m, t.models.lookup pk = some m → GgufFile m.modelFile) := by
  obtain ⟨m, f, provider, file, hm, hmodels, hprovider, hfile, hf⟩ := patchModel_file h
  have hcleared : GgufModels
      (if payload.isDefault = some (some true) then clearDefaults (some pk) t.models else t.models) := by
    split_ifs
    · exact ht.clearDefaults _
    · exact ht
  rw [hmodels]
  constructor
  · intro hgguf hllama hnone m' hm'
    obtain rfl := Option.some.inj (hm.symm.trans hm')
    obtain ⟨row, hrow⟩ : ∃ row,
        (if payload.isDefault = some (some true) then clearDefaults (some pk) t.models else t.models).lookup pk =
          some row := by
      split_ifs
      · exact ⟨_, by rw [clearDefaults, Table.lookup_mapRows, hm, Option.map_some]⟩
      · exact ⟨m, hm⟩
    have hnamed := hgguf pk (f row) (by rw [Table.lookup_modify_self, hrow, Option.map_some])
    have hllamaCpp : provider = .llamaCpp := by
      rw [hllama] at hprovider
      exact (Option.some.inj hprovider).symm
    have hold : m.modelFile = file := by
      rw [patchModelFile, hnone] at hfile
      exact Except.ok.inj hfile
    rw [ModelRow.NamesGguf, (hf row).1, (hf row).2] at hnamed
    rw [hold]
    exact hnamed hllamaCpp
  · intro hkeeps
    refine hcleared.modify fun row _ => ?_
    rw [ModelRow.NamesGguf, (hf row).1, (hf row).2]
    rintro rfl
    unfold patchModelFile at hfile
    cases hpatched : payload.modelFile with
    | some filename =>
      rw [hpatched] at hfile
      dsimp only at hfile
      rw [hprovider] at hfile
      exact gguf_of_checkModelFile hfile
    | none =>
      rw [hpatched] at hfile
      obtain rfl := Except.ok.inj hfile
      cases hpatch : payload.provider with
      | none =>
        -- The provider is the old one.
        rw [hpatch] at hprovider
        exact ht pk m hm (Option.some.inj hprovider)
      | some new =>
        rw [hpatch] at hprovider
        have hnew : new = some .llamaCpp := hprovider
        exact hkeeps (by rw [hpatch, hnew]) hpatched m hm

/-- What a request commits has GGUF files just if the request meets the condition. -/
theorem RequestStep.keepsGguf_iff {r : Registry} {s : RequestStep} (h : GgufModels r.models) :
    s.KeepsGguf settings r ↔ ∀ r' ∈ requestCommits settings r s, GgufModels r'.models := by
  obtain ⟨⟨env, op⟩, hs⟩ := s
  unfold requestCommits RequestStep.KeepsGguf
  simp only [mem_registryCommits]
  cases hattempt : attempt settings r ⟨env, op⟩ with
  | error e => cases op <;> simp
  | ok r' =>
    have hwrite := attempt_eq_ok_iff.mp hattempt
    have hleaves : op.LeavesModels → GgufModels r'.models := fun hl => by
      obtain ⟨pk, f, hmodels, hf⟩ := models_of_leavesModels hattempt hl
      rw [hmodels]
      refine h.modify fun m hm => ?_
      rw [hf m]
      exact h pk m hm
    simp only [Except.ok.injEq, exists_eq', forall_eq', true_imp_iff]
    cases op with
    | createModel files payload => exact iff_of_true trivial (createModel_gguf hwrite h)
    | patchModel files pk payload => exact (patchModel_gguf_iff hwrite h).symm
    | setDefaultModel pk =>
      obtain ⟨m, -, hwrite⟩ := bind_eq_ok_iff.mp hwrite
      rw [← Except.ok.inj hwrite]
      refine iff_of_true trivial ((h.clearDefaults (some pk)).modify fun m hm => ?_)
      exact h.clearDefaults (some pk) pk m hm
    | enableModel pk =>
      obtain ⟨m, -, hwrite⟩ := bind_eq_ok_iff.mp hwrite
      obtain ⟨_, -, hwrite⟩ := bind_eq_ok_iff.mp hwrite
      rw [← Except.ok.inj hwrite]
      exact iff_of_true trivial (h.modify fun m hm => h pk m hm)
    | disableModel pk =>
      obtain ⟨m, -, hwrite⟩ := bind_eq_ok_iff.mp hwrite
      obtain ⟨_, -, hwrite⟩ := bind_eq_ok_iff.mp hwrite
      rw [← Except.ok.inj hwrite]
      exact iff_of_true trivial (h.modify fun m hm => h pk m hm)
    | deleteModel pk payload deletedAt log hasJobs =>
      obtain ⟨m, -, hwrite⟩ := bind_eq_ok_iff.mp hwrite
      obtain ⟨_, -, hwrite⟩ := bind_eq_ok_iff.mp hwrite
      obtain ⟨_, -, hwrite⟩ := bind_eq_ok_iff.mp hwrite
      obtain ⟨_, -, hwrite⟩ := bind_eq_ok_iff.mp hwrite
      refine iff_of_true trivial ?_
      split_ifs at hwrite
      · rw [← Except.ok.inj hwrite]
        exact h.modify fun m hm => h pk m hm
      · rw [← Except.ok.inj hwrite]
        exact h.erase
    | ensureDefaultModel => exact absurd rfl hs
    | _ => exact iff_of_true trivial (hleaves trivial)

end Operations

/-- **Every model of `llama.cpp` names a GGUF file**, in just the runs that meet the condition. -/
theorem gguf_models_iff (settings : Settings) (plans : List BillingPlan) (steps : List RequestStep) :
    (∀ r ∈ emptyRegistry plans :: history (requestCommits settings) (emptyRegistry plans) steps, GgufModels r.models) ↔
      Along (commitStep (requestCommits settings)) (fun r s => s.KeepsGguf settings r) (emptyRegistry plans) steps := by
  have hempty : GgufModels (emptyRegistry plans).models := fun _ _ hm => nomatch hm
  have hstep : ∀ (r : Registry) (s : RequestStep), GgufModels r.models →
      (s.KeepsGguf settings r ↔ ∀ t ∈ requestCommits settings r s, GgufModels t.models) :=
    fun _ _ hr => RequestStep.keepsGguf_iff hr
  exact (forall_history_iff hstep).trans (and_iff_right hempty)

/-- A request. -/
def request (operation : Operation) (h : operation ≠ .ensureDefaultModel) : RequestStep := ⟨⟨plainEnv, operation⟩, h⟩

/-- **A provider patched alone**: a model of `vllm` becomes one of `llama.cpp` and keeps its file. -/
theorem provider_patched :
    ¬ ∀ (settings : Settings) (plans : List BillingPlan) (steps : List RequestStep),
      ∀ r ∈ emptyRegistry plans :: history (requestCommits settings) (emptyRegistry plans) steps,
        GgufModels r.models := by
  intro h
  have hrun := h plainSettings []
    [request (.createModel (fun _ => .missing) (namedModel ⟨"a", by decide⟩ none)) (by simp),
      request (.patchModel (fun _ => .missing) (plainEnv.uuids.next []) { provider := some (some .llamaCpp) }) (by simp)]
  exact absurd hrun (by decide +kernel)

end LlmStore.Models
