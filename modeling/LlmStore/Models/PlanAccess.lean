import LlmStore.Models.Registry

/-!
# Plan access to a model

`sync_allowed_plans` writes, for an edited model and a list of plan codes, the names of the model into the allowed
names of the listed plans and takes them out of those of the other plans. The reader takes an empty set for no
restriction. So an edit does what it is asked for, of the model itself (`access_iff`) and of the other models
(`access_other_iff`), except where it empties a plan's set or fills an empty one.
-/

namespace LlmStore.Models

/-! ## The edit -/

/-- `item.strip()`. -/
def strip (item : String) : String := String.ofList (Text.strip item.toList)

/-- The codes asked for, stripped and without the blank ones. -/
def requestedCodes (allowedPlanCodes : List String) : Finset String :=
  ((allowedPlanCodes.filter fun item => !isBlank item).map strip).toFinset

/-- The new set of names of one plan. -/
def syncedNames (model : ModelRegistry) (requested : Finset String) (plan : BillingPlan) : Finset String :=
  let current := parseAllowedModels plan.allowedModelsJson \ publicNames model
  if plan.code.val ∈ requested then current ∪ publicNames model else current

/-- The loop body of `sync_allowed_plans`: the new names are stored sorted. -/
def syncPlan (model : ModelRegistry) (requested : Finset String) (plan : BillingPlan) : BillingPlan :=
  { plan with allowedModelsJson := .items (syncedNames model requested plan).sort }

/-- `sync_allowed_plans`; the error is the text of its `ValueError`. -/
def syncAllowedPlans (rows : List BillingPlan) (model : ModelRegistry) :
    Option (List String) → Except String (List BillingPlan)
  | none => .ok rows
  | some allowedPlanCodes =>
    let requested := requestedCodes allowedPlanCodes
    let unknown := requested \ (rows.map (·.code.val)).toFinset
    if unknown ≠ ∅ then 
      .error ("unknown billing plan codes: " ++ ", ".intercalate unknown.sort)
    else .ok (rows.map (syncPlan model requested))

/-! ## What is read back -/

theorem isSpace_of_isCodeChar {c : Char} (h : isCodeChar c = true) : Text.isSpace c = false := by
  have hn : c.toNat = 95 ∨ c.toNat = 45 ∨ (97 ≤ c.toNat ∧ c.toNat ≤ 122) ∨ (48 ≤ c.toNat ∧ c.toNat ≤ 57) := by
    have hlower : c.isLower = (decide (c.val ≥ 'a'.val) && decide (c.val ≤ 'z'.val)) := rfl
    simp only [isCodeChar, hlower, Char.isDigit, Bool.or_eq_true, Bool.and_eq_true, decide_eq_true_eq,
      beq_iff_eq, ge_iff_le, UInt32.le_iff_toNat_le] at h
    rcases h with ((h | h) | rfl) | rfl
    · exact .inr (.inr (.inl h))
    · exact .inr (.inr (.inr h))
    · exact .inl rfl
    · exact .inr (.inl rfl)
  simp only [Text.isSpace, Bool.or_eq_false_iff, Bool.and_eq_false_iff, decide_eq_false_iff_not, beq_eq_false_iff_ne]
  omega

/-- A plan code is not changed by stripping. -/
theorem strip_code (code : PlanCode) : strip code.val = code.val := by
  rw [strip, Text.strip_eq_self fun c hc => isSpace_of_isCodeChar (code.property.2.2 c hc), String.ofList_toList]

theorem isBlank_code (code : PlanCode) : isBlank code.val = false := by
  have hs := Text.strip_eq_self fun c hc => isSpace_of_isCodeChar (code.property.2.2 c hc)
  have hlen := code.property.2.1
  rw [isBlank, Text.isBlank, hs, List.isEmpty_eq_false_iff]
  intro he
  rw [← String.length_toList, he] at hlen
  simp at hlen

/-- Of existing plan codes, just those in the list are asked for. -/
theorem mem_requestedCodes {rows : List BillingPlan} {codes : List String}
    (hcodes : ∀ code ∈ codes, ∃ plan ∈ rows, plan.code.val = code) {code : String} :
    code ∈ requestedCodes codes ↔ code ∈ codes := by
  rw [requestedCodes, List.mem_toFinset, List.mem_map]
  constructor
  · rintro ⟨item, hitem, rfl⟩
    obtain ⟨plan, -, rfl⟩ := hcodes item (List.mem_of_mem_filter hitem)
    rw [strip_code]
    exact List.mem_of_mem_filter hitem
  · intro hmem
    obtain ⟨plan, -, rfl⟩ := hcodes code hmem
    exact ⟨plan.code.val, List.mem_filter.mpr ⟨hmem, by simp [isBlank_code]⟩, strip_code plan.code⟩

/-- A list of existing plan codes is accepted. -/
theorem syncAllowedPlans_existing {rows : List BillingPlan} (model : ModelRegistry) {codes : List String}
    (hcodes : ∀ code ∈ codes, ∃ plan ∈ rows, plan.code.val = code) :
    syncAllowedPlans rows model (some codes) = .ok (rows.map (syncPlan model (requestedCodes codes))) := by
  have hknown : requestedCodes codes \ (rows.map (·.code.val)).toFinset = ∅ := by
    rw [Finset.sdiff_eq_empty_iff_subset]
    intro code hmem
    obtain ⟨plan, hplan, rfl⟩ := hcodes code ((mem_requestedCodes hcodes).mp hmem)
    exact List.mem_toFinset.mpr (List.mem_map_of_mem hplan)
  simp [syncAllowedPlans, hknown]

/-- The names of the model that survive being read back. -/
def readableNames (model : ModelRegistry) : Finset String := (publicNames model).filter fun name => isBlank name = false

/-- The names of a plan after the edit, read back. -/
theorem parse_syncPlan (model : ModelRegistry) (requested : Finset String) (plan : BillingPlan) :
    parseAllowedModels (syncPlan model requested plan).allowedModelsJson =
      parseAllowedModels plan.allowedModelsJson \ publicNames model ∪
        if plan.code.val ∈ requested then readableNames model else ∅ := by
  have hread : parseAllowedModels (syncPlan model requested plan).allowedModelsJson =
      (syncedNames model requested plan).filter fun name => isBlank name = false := by
    ext name
    simp [syncPlan, parseAllowedModels]
  have hprior : (parseAllowedModels plan.allowedModelsJson \ publicNames model).filter
      (fun name => isBlank name = false) = parseAllowedModels plan.allowedModelsJson \ publicNames model :=
    Finset.filter_true_of_mem fun name hname => not_isBlank_of_mem (Finset.mem_sdiff.mp hname).1
  rw [hread, syncedNames]
  split_ifs with hasked
  · rw [Finset.filter_union, hprior, readableNames]
  · rw [hprior, Finset.union_empty]

/-- A plan whose names before the edit are `prior` gets what is `asked` for the edited model: a listed plan had no
restriction or gets a name that can be read back, any other plan keeps a name of another model. -/
def KeepsAccess (model : ModelRegistry) (plan : BillingPlan) (asked : Prop) : Prop :=
  (asked → parseAllowedModels plan.allowedModelsJson = ∅ ∨ (readableNames model).Nonempty) ∧
    (¬ asked → (parseAllowedModels plan.allowedModelsJson \ publicNames model).Nonempty)

/-- The edit leaves a plan alone that is restricted or not both before and after it, or names the other model. -/
def KeepsOthers (model other : ModelRegistry) (plan : BillingPlan) (asked : Prop) : Prop :=
  (publicNames other ∩ parseAllowedModels plan.allowedModelsJson).Nonempty ∨
    (parseAllowedModels plan.allowedModelsJson = ∅ ↔
      parseAllowedModels plan.allowedModelsJson \ publicNames model = ∅ ∧ ¬ (asked ∧ (readableNames model).Nonempty))

section Edit

variable {model other : ModelRegistry} {plan : BillingPlan} {requested : Finset String}

theorem admits_synced_iff :
    (Admits (parseAllowedModels (syncPlan model requested plan).allowedModelsJson) (publicNames model) ↔
      plan.code.val ∈ requested) ↔ KeepsAccess model plan (plan.code.val ∈ requested) := by
  have hread : readableNames model ⊆ publicNames model := Finset.filter_subset _ _
  have hout : publicNames model ∩ (parseAllowedModels plan.allowedModelsJson \ publicNames model) = ∅ :=
    Finset.inter_sdiff_self _ _
  rw [parse_syncPlan, KeepsAccess]
  split_ifs with hasked
  · simp only [hasked, iff_true, true_imp_iff, not_true_eq_false, false_imp_iff, and_true]
    rw [Admits, Finset.inter_union_distrib_left, hout, Finset.empty_union, Finset.inter_eq_right.mpr hread,
      Finset.union_eq_empty]
    constructor
    · rintro (⟨hprior, hempty⟩ | hne)
      · refine .inl (Finset.eq_empty_of_forall_notMem fun name hname => ?_)
        have hpublic := Finset.sdiff_eq_empty_iff_subset.mp hprior hname
        exact Finset.eq_empty_iff_forall_notMem.mp hempty name
          (Finset.mem_filter.mpr ⟨hpublic, not_isBlank_of_mem hname⟩)
      · exact .inr hne
    · rintro (hprior | hne)
      · rcases (readableNames model).eq_empty_or_nonempty with he | hne
        · exact .inl ⟨by rw [hprior, Finset.empty_sdiff], he⟩
        · exact .inr hne
      · exact .inr hne
  · simp only [hasked, iff_false, false_imp_iff, not_false_eq_true, true_imp_iff, true_and]
    rw [Admits, Finset.union_empty, hout]
    simp only [Finset.not_nonempty_empty, or_false]
    exact Finset.nonempty_iff_ne_empty.symm

theorem admits_other_iff (hd : Disjoint (publicNames model) (publicNames other)) :
    (Admits (parseAllowedModels (syncPlan model requested plan).allowedModelsJson) (publicNames other) ↔
      Admits (parseAllowedModels plan.allowedModelsJson) (publicNames other)) ↔
        KeepsOthers model other plan (plan.code.val ∈ requested) := by
  have hread : Disjoint (publicNames other) (readableNames model) :=
    hd.symm.mono_right (Finset.filter_subset _ _)
  have hagree : publicNames other ∩ parseAllowedModels (syncPlan model requested plan).allowedModelsJson =
      publicNames other ∩ parseAllowedModels plan.allowedModelsJson := by
    rw [parse_syncPlan, Finset.inter_union_distrib_left, ← Finset.inter_sdiff_assoc,
      Finset.sdiff_eq_self_of_disjoint (hd.symm.mono_left Finset.inter_subset_left)]
    split_ifs
    · rw [Finset.disjoint_iff_inter_eq_empty.mp hread, Finset.union_empty]
    · rw [Finset.inter_empty, Finset.union_empty]
  have hempty : parseAllowedModels (syncPlan model requested plan).allowedModelsJson = ∅ ↔
      parseAllowedModels plan.allowedModelsJson \ publicNames model = ∅ ∧
        ¬ (plan.code.val ∈ requested ∧ (readableNames model).Nonempty) := by
    rw [parse_syncPlan, Finset.union_eq_empty]
    split_ifs with hasked <;> simp [hasked, Finset.not_nonempty_iff_eq_empty]
  rw [admits_congr hagree, hagree, KeepsOthers, hempty, Iff.comm (a := _ ∧ _)]

end Edit

/-- **Access to the edited model is what was asked for just where the plan keeps a name or had none.** -/
theorem access_iff (rows : List BillingPlan) (model : ModelRegistry) (codes : List String)
    (hcodes : ∀ code ∈ codes, ∃ plan ∈ rows, plan.code.val = code) :
    ∃ rows', syncAllowedPlans rows model (some codes) = .ok rows' ∧
      ∀ (i : ℕ) (plan plan' : BillingPlan), rows[i]? = some plan → rows'[i]? = some plan' →
        ∀ client : Client, parseAllowedModels client.allowedModelsJson = ∅ → client.billingPlan = some plan' →
          ((accessCheck client model = .ok () ↔ plan.code.val ∈ codes) ↔
            KeepsAccess model plan (plan.code.val ∈ codes)) := by
  refine ⟨_, syncAllowedPlans_existing model hcodes, fun i plan plan' hi hi' client hc hp => ?_⟩
  rw [List.getElem?_map, hi, Option.map_some, Option.some.injEq] at hi'
  subst hi'
  rw [accessCheck_iff (getEffectiveAllowedModels_plan hc hp), ← mem_requestedCodes hcodes]
  exact admits_synced_iff

/-- **Access to another model is left alone just where the plan's restriction neither vanishes nor appears.** -/
theorem access_other_iff (rows : List BillingPlan) (model other : ModelRegistry) (codes : List String)
    (hcodes : ∀ code ∈ codes, ∃ plan ∈ rows, plan.code.val = code)
    (hd : Disjoint (publicNames model) (publicNames other)) :
    ∃ rows', syncAllowedPlans rows model (some codes) = .ok rows' ∧
      ∀ (i : ℕ) (plan plan' : BillingPlan), rows[i]? = some plan → rows'[i]? = some plan' →
        ∀ before after : Client, parseAllowedModels before.allowedModelsJson = ∅ → before.billingPlan = some plan →
          after = { before with billingPlan := some plan' } →
            ((accessCheck after other = .ok () ↔ accessCheck before other = .ok ()) ↔
              KeepsOthers model other plan (plan.code.val ∈ codes)) := by
  refine ⟨_, syncAllowedPlans_existing model hcodes, fun i plan plan' hi hi' before after hc hp ha => ?_⟩
  rw [List.getElem?_map, hi, Option.map_some, Option.some.injEq] at hi'
  have hp' : after.billingPlan = some plan' := by rw [ha]
  have hc' : parseAllowedModels after.allowedModelsJson = ∅ := by rw [ha]; exact hc
  rw [accessCheck_iff (getEffectiveAllowedModels_plan hc' hp'), accessCheck_iff (getEffectiveAllowedModels_plan hc hp),
    ← mem_requestedCodes hcodes, ← hi']
  exact admits_other_iff hd

/-! ## The only model of a plan, and an open plan -/

/-- A model without alias. -/
def plainModel (modelId : String) : ModelRegistry :=
  { modelId, modelAlias := none, isActive := true, isDefault := false, createdAt := 0, inferenceBackend := none,
    backendRoutes := [] }

/-- A plan `pro` with the names `strs`. -/
def proPlan (strs : List String) : BillingPlan :=
  { code := ⟨"pro", by decide, by decide, List.all_eq_true.mp (by decide)⟩, allowedModelsJson := .items strs }

def onPlan (plan : BillingPlan) : Client := { allowedModelsJson := .absent, billingPlan := some plan }

theorem access_iff_two_names :
    ∃ rows', syncAllowedPlans [proPlan ["qwen", "gemma"]] (plainModel "qwen") (some []) = .ok rows' ∧
      ∀ (i : ℕ) (plan plan' : BillingPlan), [proPlan ["qwen", "gemma"]][i]? = some plan → rows'[i]? = some plan' →
        ∀ client : Client, parseAllowedModels client.allowedModelsJson = ∅ → client.billingPlan = some plan' →
          ((accessCheck client (plainModel "qwen") = .ok () ↔ plan.code.val ∈ []) ↔
            KeepsAccess (plainModel "qwen") plan (plan.code.val ∈ [])) :=
  access_iff [proPlan ["qwen", "gemma"]] (plainModel "qwen") [] (by decide)

/-- **A plan that loses its only model is open to it**: the model passes its check though no plan was asked for. -/
theorem removed_model_allowed :
    ∃ rows' plan', syncAllowedPlans [proPlan ["qwen"]] (plainModel "qwen") (some []) = .ok rows' ∧
      rows'[0]? = some plan' ∧
        ¬ (accessCheck (onPlan plan') (plainModel "qwen") = .ok () ↔ "pro" ∈ ([] : List String)) := by
  refine ⟨_, _, syncAllowedPlans_existing _ (by decide), rfl, ?_⟩
  rw [accessCheck_iff (getEffectiveAllowedModels_plan rfl rfl), parse_syncPlan]
  decide

theorem access_other_iff_open_plan :
    ∃ rows', syncAllowedPlans [proPlan ["qwen", "gemma"]] (plainModel "qwen") (some []) = .ok rows' ∧
      ∀ (i : ℕ) (plan plan' : BillingPlan), [proPlan ["qwen", "gemma"]][i]? = some plan → rows'[i]? = some plan' →
        ∀ before after : Client, parseAllowedModels before.allowedModelsJson = ∅ → before.billingPlan = some plan →
          after = { before with billingPlan := some plan' } →
            ((accessCheck after (plainModel "gemma") = .ok () ↔ accessCheck before (plainModel "gemma") = .ok ()) ↔
              KeepsOthers (plainModel "qwen") (plainModel "gemma") plan (plan.code.val ∈ [])) :=
  access_other_iff [proPlan ["qwen", "gemma"]] (plainModel "qwen") (plainModel "gemma") [] (by decide) (by decide)

/-- **An open plan is closed to the other models** by asking for one model on it. -/
theorem other_model_refused :
    ∃ rows' plan', syncAllowedPlans [proPlan []] (plainModel "qwen") (some ["pro"]) = .ok rows' ∧
      rows'[0]? = some plan' ∧
        ¬ (accessCheck (onPlan plan') (plainModel "gemma") = .ok () ↔
          accessCheck (onPlan (proPlan [])) (plainModel "gemma") = .ok ()) := by
  refine ⟨_, _, syncAllowedPlans_existing _ (by decide), rfl, ?_⟩
  rw [accessCheck_iff (getEffectiveAllowedModels_plan rfl rfl), parse_syncPlan,
    accessCheck_iff (getEffectiveAllowedModels_plan rfl rfl)]
  decide

end LlmStore.Models
