import LlmStore.Models.BackendWrites

/-!
# The default backend

At most one backend is the default. `create_backend` and `patch_backend` take the flag from all other backends;
`create_model` with a new backend takes it from none, and `ensure_default_backends` only from the built-in ones, so
there can be two (`two_default_backends`). `one_default_backend` is the exact condition on runs.
-/

namespace LlmStore.Models

open LlmStore.Calendar LlmStore.Lib

/-- No two backends are the default. -/
def Backends.AtMostOneDefault (bs : Backends) : Prop :=
  ∀ id id' b b', bs id = some b → bs id' = some b' → b.isDefault = true → b'.isDefault = true → id = id'

/-- No backend is the default. -/
def Backends.NoDefault (bs : Backends) : Prop := ∀ id b, bs id = some b → b.isDefault = false

def Registry.OneDefaultBackend (r : Registry) : Prop := (backendRows r.backends).AtMostOneDefault

instance (r : Registry) : Decidable r.OneDefaultBackend :=
  decidable_of_iff
    (∀ e ∈ r.backends.entries, ∀ e' ∈ r.backends.entries, e.2.isDefault = true → e'.2.isDefault = true → e.1 = e'.1)
    ⟨fun h id id' b b' hb hb' => h ⟨id, b⟩ (Table.mem_entries_iff.mpr hb) ⟨id', b'⟩ (Table.mem_entries_iff.mpr hb'),
      fun h e he e' he' => h e.1 e'.1 e.2 e'.2 (Table.mem_entries_iff.mp he) (Table.mem_entries_iff.mp he')⟩

section Backends

variable {bs : Backends} {id : BackendId}

theorem Backends.clear_eq_some {keep : Option BackendId} {k : BackendId} {b : BackendRow}
    (h : bs.clear keep k = some b) (hb : b.isDefault = true) : keep = some k ∧ bs k = some b := by
  obtain ⟨b₀, hb₀, rfl⟩ := Option.map_eq_some_iff.mp h
  by_cases hk : keep = some k
  · rw [if_pos hk] at h ⊢
    exact ⟨hk, hb₀⟩
  · rw [if_neg hk] at hb
    cases hb

theorem Backends.AtMostOneDefault.clear (h : bs.AtMostOneDefault) (keep : Option BackendId) :
    (bs.clear keep).AtMostOneDefault := fun k k' _ _ hb hb' hd hd' =>
  h k k' _ _ (clear_eq_some hb hd).2 (clear_eq_some hb' hd').2 hd hd'

/-- One backend is written; if it is the default, no other one is. -/
theorem Backends.AtMostOneDefault.update (h : bs.AtMostOneDefault) {v : Option BackendRow}
    (hv : ∀ b, v = some b → b.isDefault = true → ∀ k b', k ≠ id → bs k = some b' → b'.isDefault = false) :
    Backends.AtMostOneDefault (Function.update bs id v) := by
  have hother : ∀ k b, k ≠ id → Function.update bs id v k = some b → bs k = some b := fun k b hk hb => by
    rwa [Function.update_of_ne hk] at hb
  -- the written backend is the default only if the other one is the same
  have hself : ∀ k b b', Function.update bs id v id = some b → Function.update bs id v k = some b' →
      b.isDefault = true → b'.isDefault = true → k = id := by
    intro k b b' hb hb' hd hd'
    rw [Function.update_self] at hb
    by_contra hk
    rw [hv b hb hd k b' hk (hother k b' hk hb')] at hd'
    cases hd'
  intro k k' b b' hb hb' hd hd'
  by_cases hk : k = id
  · subst hk
    exact (hself k' b b' hb hb' hd hd').symm
  · by_cases hk' : k' = id
    · subst hk'
      exact hself k b' b hb' hb hd' hd
    · exact h k k' b b' (hother k b hk hb) (hother k' b' hk' hb') hd hd'

/-- A backend is changed that does not become the default. -/
theorem Backends.AtMostOneDefault.map (h : bs.AtMostOneDefault) {f : BackendRow → BackendRow}
    (hf : ∀ b, (f b).isDefault = true → b.isDefault = true) :
    Backends.AtMostOneDefault (Function.update bs id ((bs id).map f)) := by
  refine h.update fun b hb hd k b' hk hb' => ?_
  obtain ⟨b₀, hb₀, rfl⟩ := Option.map_eq_some_iff.mp hb
  by_contra hd'
  exact hk (h k id b' b₀ hb' hb₀ (by simpa using hd') (hf b₀ hd))

end Backends

/-! ## Seeding -/

section Seeding

variable {settings : Settings} {old new : Table BackendId BackendRow}

theorem InferenceBackendCreate.update_isDefault (payload : InferenceBackendCreate) (b : BackendRow) :
    (payload.update b).isDefault = payload.isDefault := by
  unfold InferenceBackendCreate.update
  split_ifs <;> rfl

/-- Of the built-in backends only the first is the default. -/
theorem seedPayloads_isDefault {p : InferenceBackendCreate} (hp : p ∈ seedPayloads settings)
    (hd : p.isDefault = true) : p.name = "gemma-local" := by
  simp only [seedPayloads, List.mem_cons, List.not_mem_nil, or_false] at hp
  rcases hp with rfl | rfl | rfl | rfl
  · rfl
  all_goals cases hd

/-- The names of the built-in backends. -/
def builtIn : List String := ["gemma-local", "bonsai-local", "ollama-local", "fallback-local"]

theorem seedPayloads_names (settings : Settings) : (seedPayloads settings).map (·.name) = builtIn := rfl

/-- **Seeding leaves at most one default** just if no other backend is one. -/
theorem atMostOneDefault_seeds_iff {now : Instant}
    (h : (backendSeeder now).Seeds (seedPayloads settings) old new) :
    (backendRows new).AtMostOneDefault ↔
      ∀ id b, old.lookup id = some b → b.isDefault = true → b.name ∈ builtIn := by
  rw [← seedPayloads_names settings]
  constructor
  · intro hone id b hb hd
    by_contra hname
    have hkept := h.kept id b hb
    rw [Seeder.seeded_of_not_mem hname] at hkept
    obtain ⟨k, g, hg, hgemma⟩ := h.present (gemmaBackend settings) List.mem_cons_self
    have hgd : g.isDefault = true := by
      rcases hgemma with rfl | ⟨g₀, rfl⟩
      · rfl
      · exact InferenceBackendCreate.update_isDefault _ g₀
    have hgname : g.name = "gemma-local" := Seeder.column_of_present hgemma
    obtain rfl := hone id k b g hkept hg hd hgd
    obtain rfl := Option.some.inj (hkept.symm.trans hg)
    exact hname (hgname ▸ List.mem_cons_self)
  · intro hold
    have hgemma : ∀ id b, new.lookup id = some b → b.isDefault = true → b.name = "gemma-local" := by
      intro id b hb hd
      cases hid : old.lookup id with
      | none =>
        rcases h.added id hid with hnone | ⟨p, hp, hrow, -⟩
        · rw [hb] at hnone
          cases hnone
        · obtain rfl := Option.some.inj (hb.symm.trans hrow)
          exact seedPayloads_isDefault hp hd
      | some b₀ =>
        obtain rfl := Option.some.inj (hb.symm.trans (h.kept id b₀ hid))
        by_cases hname : b₀.name ∈ (seedPayloads settings).map (·.name)
        · obtain ⟨p, hp, hpname⟩ := List.mem_map.mp hname
          rw [Seeder.seeded_of_mem (nodup_seedPayloads settings) hp hpname.symm] at hd ⊢
          rw [backendSeeder, p.update_name]
          exact seedPayloads_isDefault hp ((p.update_isDefault b₀).symm.trans hd)
        · rw [Seeder.seeded_of_not_mem hname] at hd
          exact absurd (hold id b₀ hid hd) hname
    intro id id' b b' hb hb' hd hd'
    exact Table.uniqueBy_iff.mp h.unique id id' b b' _ hb hb' (congrArg some (hgemma id b hb hd))
      (congrArg some (hgemma id' b' hb' hd'))

end Seeding

/-! ## Operations -/

/-- An operation that is not refused: a model comes with a new default backend only if no backend is the default, and
the built-in backends are seeded only if no other backend is. -/
def Step.KeepsOneDefaultBackend (settings : Settings) (r : Registry) (s : Step) : Prop :=
  (∃ r', attempt settings r s = .ok r') →
    match s.operation with
    | .createModel _ payload =>
      ∀ new, payload.createBackend = some new → new.isDefault = true → (backendRows r.backends).NoDefault
    | .listBackends => ∀ id b, r.backends.lookup id = some b → b.isDefault = true → b.name ∈ builtIn
    | .ensureDefaultModel => ∀ id b, r.backends.lookup id = some b → b.isDefault = true → b.name ∈ builtIn
    | _ => True

section Operations

variable {settings : Settings} {r r' : Registry} {s : Step}

theorem Step.newBackend_fresh (s : Step) (r : Registry) : r.backends.lookup (s.newBackend r) = none :=
  AList.lookup_eq_none.mpr (mt AList.mem_keys.mp (s.env.backendIds.fresh r.backends.keys))

/-- A new default backend beside the others. -/
theorem atMostOneDefault_new_iff (h : (backendRows r.backends).AtMostOneDefault) {b : BackendRow} :
    Backends.AtMostOneDefault (Function.update (backendRows r.backends) (s.newBackend r) (some b)) ↔
      (b.isDefault = true → (backendRows r.backends).NoDefault) := by
  constructor
  · intro hone hd k b' hb'
    by_contra hd'
    have hk : k ≠ s.newBackend r := by
      rintro rfl
      have hnone := s.newBackend_fresh r
      rw [show r.backends.lookup (s.newBackend r) = some b' from hb'] at hnone
      cases hnone
    exact hk (hone k _ b' b (by rwa [Function.update_of_ne hk]) (Function.update_self _ _ _) (by simpa using hd') hd)
  · intro hnone
    refine h.update fun b' hb' hd k b'' _ hk => ?_
    obtain rfl := Option.some.inj hb'
    exact hnone hd k b'' hk

/-- What an operation commits has at most one default just if the operation meets the condition. -/
theorem Step.keepsOneDefaultBackend_iff (h : r.OneDefaultBackend) :
    s.KeepsOneDefaultBackend settings r ↔ ∀ r' ∈ registryCommits settings r s, r'.OneDefaultBackend := by
  unfold Step.KeepsOneDefaultBackend
  simp only [mem_registryCommits]
  cases hattempt : attempt settings r s with
  | error e => simp
  | ok r' =>
    simp only [Except.ok.injEq, exists_eq', forall_eq', true_imp_iff]
    unfold Registry.OneDefaultBackend at h ⊢
    by_cases hs : s.SeedsBackends
    · have hseeds := seeds_of_attempt hattempt hs
      rw [atMostOneDefault_seeds_iff hseeds]
      obtain ⟨env, op⟩ := s
      cases op with
      | listBackends => exact Iff.rfl
      | ensureDefaultModel => exact Iff.rfl
      | _ => exact absurd hs id
    · rw [backends_of_attempt hattempt hs]
      obtain ⟨env, op⟩ := s
      cases op with
      | createModel files payload =>
        unfold Step.backends
        dsimp only
        cases payload.createBackend with
        | none => exact iff_of_true (fun _ hnew => nomatch hnew) h
        | some new =>
          simp only [Option.some.injEq, forall_eq']
          exact (atMostOneDefault_new_iff (s := ⟨env, .createModel files payload⟩) h (b := new.row env.now)).symm
      | createBackend payload =>
        refine iff_of_true trivial ?_
        unfold Step.backends
        dsimp only
        cases hd : payload.isDefault with
        | true =>
          refine (h.clear none).update fun b _ _ k b' _ hb' => ?_
          by_contra hd'
          exact Option.some_ne_none k (Backends.clear_eq_some hb' (by simpa using hd')).1.symm
        | false =>
          refine h.update fun b hb hdb => ?_
          obtain rfl := Option.some.inj hb
          rw [show (payload.row env.now).isDefault = payload.isDefault from rfl, hd] at hdb
          cases hdb
      | patchBackend id payload =>
        refine iff_of_true trivial ?_
        unfold Step.backends
        dsimp only
        by_cases hd : payload.isDefault = some (some true)
        · rw [if_pos hd]
          refine (h.clear (some id)).update fun b _ _ k b' hk hb' => ?_
          by_contra hd'
          exact hk (Option.some.inj (Backends.clear_eq_some hb' (by simpa using hd')).1).symm
        · rw [if_neg hd]
          refine h.map fun b hb => ?_
          unfold InferenceBackendPatch.row at hb
          match hp : payload.isDefault with
          | none => simpa [hp] using hb
          | some none => simpa [hp] using hb
          | some (some false) => simp [hp] at hb
          | some (some true) => exact absurd hp hd
      | runBackendAction id action docker => exact iff_of_true trivial (h.map fun b hb => hb)
      | listBackends => exact absurd trivial hs
      | ensureDefaultModel => exact absurd trivial hs
      | _ => exact iff_of_true trivial h

end Operations

/-- **At most one backend is the default**, in the seeded state and after it, in just the runs that meet the
condition. -/
theorem one_default_backend (settings : Settings) (plans : List BillingPlan) (env : Env) (steps : List Step) :
    (∀ r ∈ history (registryCommits settings) (emptyRegistry plans) (⟨env, .ensureDefaultModel⟩ :: steps),
        r.OneDefaultBackend) ↔
      Along (commitStep (registryCommits settings)) (fun r s => s.KeepsOneDefaultBackend settings r)
        (emptyRegistry plans) (⟨env, .ensureDefaultModel⟩ :: steps) := by
  have hempty : (emptyRegistry plans).OneDefaultBackend := fun _ _ _ _ hb => nomatch hb
  have hstep : ∀ (r : Registry) (s : Step), r.OneDefaultBackend →
      (s.KeepsOneDefaultBackend settings r ↔ ∀ t ∈ registryCommits settings r s, t.OneDefaultBackend) :=
    fun _ _ hr => Step.keepsOneDefaultBackend_iff hr
  have h : (∀ t ∈ emptyRegistry plans :: history (registryCommits settings) (emptyRegistry plans)
        (⟨env, .ensureDefaultModel⟩ :: steps), t.OneDefaultBackend) ↔ _ := forall_history_iff hstep
  rw [List.forall_mem_cons] at h
  simpa [hempty] using h

/-- A backend as `POST /backends` can ask for it. -/
def spareBackend : InferenceBackendCreate where
  name := "spare"
  provider := .vllm
  backendUrl := "http://spare:8000"
  healthcheckPath := "/health"
  isActive := true
  isDefault := true
  status := "configured"
  maxParallelRequests := 1
  metadataJson := .absent

/-- **Two default backends**: a new backend is made the default, and then the backends are listed. -/
theorem two_default_backends :
    ¬ ∀ r ∈ history (registryCommits plainSettings) (emptyRegistry [])
        [⟨plainEnv, .ensureDefaultModel⟩, ⟨plainEnv, .createBackend spareBackend⟩, ⟨plainEnv, .listBackends⟩],
      r.OneDefaultBackend := by
  decide +kernel

/-- The same with a model that brings its backend. -/
example :
    ¬ ∀ r ∈ history (registryCommits plainSettings) (emptyRegistry [])
        [⟨plainEnv, .ensureDefaultModel⟩,
          createStep { namedModel ⟨"a", by decide⟩ none with createBackend := some spareBackend }],
      r.OneDefaultBackend := by
  decide +kernel

end LlmStore.Models
