import LlmStore.Lib.LastWriter
import LlmStore.Lib.Seeder
import LlmStore.Models.Faces

/-!
# Edits of billing plans

`create_billing_plan`, `patch_billing_plan`, `set_billing_plan_models` and, for `create_model` and `patch_model`,
`sync_allowed_plans` write the billing plans. So does `create_client`: it calls `ensure_default_billing_plans`, which
brings eight columns of the default plans back to their defaults, whatever they have been edited to
(`patched_quota_lost`). `plan_edits_durable` is the exact condition on runs.
-/

namespace LlmStore.Models

open LlmStore.Lib LlmStore.Lib.LastWriter

abbrev PlanId := ℕ

/-- All columns of a billing plan, the times of its changes apart. -/
structure PlanRow extends BillingPlan where
  name : String
  description : Option String
  rateLimitPerMinute : ℤ
  dailyTokenQuota : ℤ
  monthlyTokenQuota : ℤ
  maxOutputTokens : ℤ
  allowStreaming : Bool
  isActive : Bool
  deriving DecidableEq

/-- The committed plans; their codes and their names are unique. -/
structure Plans where
  rows : Table PlanId PlanRow
  codes : rows.UniqueBy fun p => some p.code
  names : rows.UniqueBy fun p => some p.name

/-- `session.commit()`. -/
def commitPlans (rows : Table PlanId PlanRow) : Except Failure Plans :=
  if h : (rows.UniqueBy fun p => some p.code) ∧ rows.UniqueBy fun p => some p.name then .ok ⟨rows, h.1, h.2⟩
  else .error .integrityError

/-! ## Requests -/

structure BillingPlanCreate where
  code : PlanCode
  name : String
  description : Option String
  rateLimitPerMinute : ℤ
  dailyTokenQuota : ℤ
  monthlyTokenQuota : ℤ
  maxOutputTokens : ℤ
  allowStreaming : Bool
  isActive : Bool
  allowedModels : Option (List String)

structure BillingPlanPatch where
  name : Patch String := none
  description : Patch String := none
  rateLimitPerMinute : Patch ℤ := none
  dailyTokenQuota : Patch ℤ := none
  monthlyTokenQuota : Patch ℤ := none
  maxOutputTokens : Patch ℤ := none
  allowStreaming : Patch Bool := none
  isActive : Patch Bool := none
  allowedModels : Patch (List String) := none

/-- `json.dumps(allowed_models) if allowed_models is not None else None`. -/
def dumpAllowedModels : Option (List String) → AllowedModelsJson
  | none => .absent
  | some names => .items names

/-- `BillingPlan(**_serialize_billing_plan_payload(payload))`. -/
def BillingPlanCreate.row (payload : BillingPlanCreate) : PlanRow :=
  { code := payload.code
    allowedModelsJson := dumpAllowedModels payload.allowedModels
    name := payload.name
    description := payload.description
    rateLimitPerMinute := payload.rateLimitPerMinute
    dailyTokenQuota := payload.dailyTokenQuota
    monthlyTokenQuota := payload.monthlyTokenQuota
    maxOutputTokens := payload.maxOutputTokens
    allowStreaming := payload.allowStreaming
    isActive := payload.isActive }

/-! ## Seeding -/

/-- An entry of `DEFAULT_BILLING_PLANS`. -/
structure DefaultPlan where
  code : PlanCode
  name : String
  description : String
  rateLimitPerMinute : ℤ
  dailyTokenQuota : ℤ
  monthlyTokenQuota : ℤ
  maxOutputTokens : ℤ
  allowStreaming : Bool

/-- A text that is a code. -/
def PlanCode.ofText (s : String)
    (h : (decide (s.length ≤ 32) && decide (2 ≤ s.length) && s.toList.all isCodeChar) = true) : PlanCode :=
  ⟨s, by simpa [and_assoc] using h⟩

def freeCode : PlanCode := PlanCode.ofText "free" (by decide)
def basicCode : PlanCode := PlanCode.ofText "basic" (by decide)
def proCode : PlanCode := PlanCode.ofText "pro" (by decide)
def enterpriseCode : PlanCode := PlanCode.ofText "enterprise" (by decide)

/-- `DEFAULT_BILLING_PLANS`. -/
def defaultBillingPlans : List DefaultPlan :=
  [{ code := freeCode
     name := "Free"
     description := "Starter plan for sandbox usage with strict limits and no card required."
     rateLimitPerMinute := 3
     dailyTokenQuota := 5000
     monthlyTokenQuota := 50000
     maxOutputTokens := 32768
     allowStreaming := false },
   { code := basicCode
     name := "Basic"
     description := "Production starter with streaming and predictable shared capacity."
     rateLimitPerMinute := 15
     dailyTokenQuota := 75000
     monthlyTokenQuota := 750000
     maxOutputTokens := 32768
     allowStreaming := true },
   { code := proCode
     name := "Pro"
     description := "Growth plan with higher throughput for customer-facing workloads."
     rateLimitPerMinute := 45
     dailyTokenQuota := 300000
     monthlyTokenQuota := 4000000
     maxOutputTokens := 32768
     allowStreaming := true },
   { code := enterpriseCode
     name := "Enterprise"
     description := "High-volume plan for dedicated routing, premium support and custom rollout."
     rateLimitPerMinute := 120
     dailyTokenQuota := 1500000
     monthlyTokenQuota := 15000000
     maxOutputTokens := 32768
     allowStreaming := true }]

/-- `setattr(plan, key, value)` for the keys of an entry. -/
def DefaultPlan.update (p : DefaultPlan) (row : PlanRow) : PlanRow :=
  { row with
    code := p.code
    name := p.name
    description := some p.description
    rateLimitPerMinute := p.rateLimitPerMinute
    dailyTokenQuota := p.dailyTokenQuota
    monthlyTokenQuota := p.monthlyTokenQuota
    maxOutputTokens := p.maxOutputTokens
    allowStreaming := p.allowStreaming }

/-- `BillingPlan(**payload)`. -/
def DefaultPlan.row (p : DefaultPlan) : PlanRow :=
  { code := p.code
    allowedModelsJson := .absent
    name := p.name
    description := some p.description
    rateLimitPerMinute := p.rateLimitPerMinute
    dailyTokenQuota := p.dailyTokenQuota
    monthlyTokenQuota := p.monthlyTokenQuota
    maxOutputTokens := p.maxOutputTokens
    allowStreaming := p.allowStreaming
    isActive := true }

/-- A plan by its code. -/
def planSeeder : Seeder PlanRow DefaultPlan PlanCode where
  column := (·.code)
  name := DefaultPlan.code
  row := DefaultPlan.row
  update := DefaultPlan.update
  column_row _ := rfl
  column_update _ _ := rfl

/-- `ensure_default_billing_plans`. -/
def ensureDefaultBillingPlans (ids : Source PlanId) (rows : Table PlanId PlanRow) : Table PlanId PlanRow :=
  defaultBillingPlans.foldl (fun rows p => (planSeeder.pass ids.next p rows).2) rows

/-! ## Handlers -/

section Handlers

/-- `session.get(BillingPlan, plan_id)` or 404. -/
def getPlan (rows : Table PlanId PlanRow) (id : PlanId) : Except Failure PlanRow :=
  match rows.lookup id with
  | none => refuse 404 "billing plan not found"
  | some p => .ok p

/-- `create_client`, as far as it writes plans. -/
def createClient (ids : Source PlanId) (billingPlanId : Option PlanId) (rows : Table PlanId PlanRow) :
    Except Failure (Table PlanId PlanRow) := do
  let plans := ensureDefaultBillingPlans ids rows
  match billingPlanId.or (planSeeder.find freeCode plans) with
  | none => refuse 404 "billing plan not found"
  | some id =>
    let _ ← getPlan plans id
    return plans

/-- `create_billing_plan`. -/
def createBillingPlan (ids : Source PlanId) (payload : BillingPlanCreate) (rows : Table PlanId PlanRow) :
    Except Failure (Table PlanId PlanRow) := do
  match ← scalarOneOrNone (rows.select fun _ p => p.code = payload.code) with
  | some _ => refuse 409 "billing plan code already exists"
  | none => return rows.insert (ids.next rows.keys) payload.row

/-- `patch_billing_plan`. -/
def patchBillingPlan (id : PlanId) (payload : BillingPlanPatch) (rows : Table PlanId PlanRow) :
    Except Failure (Table PlanId PlanRow) := do
  let plan ← getPlan rows id
  let name ← payload.name.require plan.name
  let rateLimitPerMinute ← payload.rateLimitPerMinute.require plan.rateLimitPerMinute
  let dailyTokenQuota ← payload.dailyTokenQuota.require plan.dailyTokenQuota
  let monthlyTokenQuota ← payload.monthlyTokenQuota.require plan.monthlyTokenQuota
  let maxOutputTokens ← payload.maxOutputTokens.require plan.maxOutputTokens
  let allowStreaming ← payload.allowStreaming.require plan.allowStreaming
  let isActive ← payload.isActive.require plan.isActive
  let description := payload.description.get plan.description
  let allowedModelsJson := (payload.allowedModels.map dumpAllowedModels).getD plan.allowedModelsJson
  return rows.modify id fun p =>
    { p with
      name, description, rateLimitPerMinute, dailyTokenQuota, monthlyTokenQuota, maxOutputTokens, allowStreaming,
      isActive, allowedModelsJson }

/-- `set_billing_plan_models`. -/
def setBillingPlanModels (id : PlanId) (allowedModels : List String) (rows : Table PlanId PlanRow) :
    Except Failure (Table PlanId PlanRow) := do
  let _ ← getPlan rows id
  return rows.modify id fun p => { p with allowedModelsJson := .items allowedModels }

/-- What `sync_allowed_plans` makes of one plan. -/
def syncPlanRow (model : ModelRegistry) (allowedPlanCodes : List String) (p : PlanRow) : PlanRow :=
  { p with toBillingPlan := syncPlan model (requestedCodes allowedPlanCodes) p.toBillingPlan }

/-- `sync_allowed_plans`, as `create_model` and `patch_model` call it. -/
def syncAllowedPlanRows (model : ModelRegistry) (allowedPlanCodes : Option (List String))
    (rows : Table PlanId PlanRow) : Except Failure (Table PlanId PlanRow) :=
  match syncAllowedPlans (rows.entries.map fun e => e.2.toBillingPlan) model allowedPlanCodes, allowedPlanCodes with
  | .error text, _ => refuse 400 text
  | .ok _, none => .ok rows
  | .ok _, some codes => .ok (rows.mapRows fun _ => syncPlanRow model codes)

end Handlers

/-! ## Calls -/

/-- The calls of the admin API that write plans. -/
inductive PlanOperation where
  | createClient (billingPlanId : Option PlanId)
  | createBillingPlan (payload : BillingPlanCreate)
  | patchBillingPlan (id : PlanId) (payload : BillingPlanPatch)
  | setBillingPlanModels (id : PlanId) (allowedModels : List String)
  /-- `create_model` or `patch_model`. -/
  | syncAllowedPlans (model : ModelRegistry) (allowedPlanCodes : Option (List String))

structure PlanCall where
  ids : Source PlanId
  operation : PlanOperation
  /-- The rest of the transaction is accepted. -/
  stored : Bool

def PlanCall.write (c : PlanCall) : Table PlanId PlanRow → Except Failure (Table PlanId PlanRow) :=
  match c.operation with
  | .createClient billingPlanId => createClient c.ids billingPlanId
  | .createBillingPlan payload => createBillingPlan c.ids payload
  | .patchBillingPlan id payload => patchBillingPlan id payload
  | .setBillingPlanModels id allowedModels => setBillingPlanModels id allowedModels
  | .syncAllowedPlans model allowedPlanCodes => syncAllowedPlanRows model allowedPlanCodes

/-- The answer to a call: an exception, or the plans that it commits. -/
def PlanCall.attempt (c : PlanCall) (t : Plans) : Except Failure Plans := do
  let rows ← c.write t.rows
  if c.stored then commitPlans rows else .error .integrityError

def planCommits (t : Plans) (c : PlanCall) : List Plans :=
  match c.attempt t with
  | .ok t' => [t']
  | .error _ => []

/-! ## What the calls give -/

/-- A patched plan. -/
def BillingPlanPatch.row (payload : BillingPlanPatch) (p : PlanRow) : PlanRow :=
  { p with
    name := payload.name.join.getD p.name
    description := payload.description.getD p.description
    rateLimitPerMinute := payload.rateLimitPerMinute.join.getD p.rateLimitPerMinute
    dailyTokenQuota := payload.dailyTokenQuota.join.getD p.dailyTokenQuota
    monthlyTokenQuota := payload.monthlyTokenQuota.join.getD p.monthlyTokenQuota
    maxOutputTokens := payload.maxOutputTokens.join.getD p.maxOutputTokens
    allowStreaming := payload.allowStreaming.join.getD p.allowStreaming
    isActive := payload.isActive.join.getD p.isActive
    allowedModelsJson := (payload.allowedModels.map dumpAllowedModels).getD p.allowedModelsJson }

def Plans.view (t : Plans) : Record PlanId PlanRow := fun id => t.rows.lookup id

/-- What a call that commits `t'` gives the plans. A plan that `create_client` adds has what it is added with; one that is
there gets nothing from it. -/
def PlanCall.gives (t : Plans) (c : PlanCall) (t' : Plans) (old : Record PlanId PlanRow) : Record PlanId PlanRow :=
  match c.operation with
  | .createClient _ => fun id => (old id).or (t'.view id)
  | .createBillingPlan payload => Function.update old (c.ids.next t.rows.keys) (some payload.row)
  | .patchBillingPlan id payload => Function.update old id ((old id).map payload.row)
  | .setBillingPlanModels id allowedModels =>
    Function.update old id ((old id).map fun p => { p with allowedModelsJson := .items allowedModels })
  | .syncAllowedPlans _ none => old
  | .syncAllowedPlans model (some codes) => fun id => (old id).map (syncPlanRow model codes)

section Attempt

variable {t t' : Plans} {c : PlanCall}

theorem commitPlans_eq_ok_iff {rows : Table PlanId PlanRow} : commitPlans rows = .ok t ↔ t.rows = rows := by
  unfold commitPlans
  split_ifs with h
  · constructor
    · intro he
      cases he
      rfl
    · rintro rfl
      rfl
  · constructor
    · intro he
      cases he
    · rintro rfl
      exact absurd ⟨t.codes, t.names⟩ h

theorem PlanCall.write_of_attempt (h : c.attempt t = .ok t') : c.write t.rows = .ok t'.rows := by
  obtain ⟨rows, hrows, h⟩ := bind_eq_ok_iff.mp h
  split_ifs at h
  rw [commitPlans_eq_ok_iff.mp h, hrows]

theorem mem_planCommits : t' ∈ planCommits t c ↔ c.attempt t = .ok t' := by
  unfold planCommits
  cases c.attempt t <;> simp [eq_comm]

theorem rows_of_createClient {ids : Source PlanId} {billingPlanId : Option PlanId} {rows rows' : Table PlanId PlanRow}
    (h : createClient ids billingPlanId rows = .ok rows') : rows' = ensureDefaultBillingPlans ids rows := by
  unfold createClient at h
  dsimp only at h
  split at h
  · exact absurd h refuse_ne_ok
  · obtain ⟨_, -, h⟩ := bind_eq_ok_iff.mp h
    exact (Except.ok.inj h).symm

theorem ensureDefaultBillingPlans_seeds (ids : Source PlanId) (t : Plans) :
    planSeeder.Seeds defaultBillingPlans t.rows (ensureDefaultBillingPlans ids t.rows) :=
  Seeder.foldl_seeds ids.fresh (by decide) t.codes

theorem createBillingPlan_ok {ids : Source PlanId} {payload : BillingPlanCreate} {rows rows' : Table PlanId PlanRow}
    (h : createBillingPlan ids payload rows = .ok rows') : rows' = rows.insert (ids.next rows.keys) payload.row := by
  obtain ⟨found, -, h⟩ := bind_eq_ok_iff.mp h
  cases found with
  | none => exact (Except.ok.inj h).symm
  | some e => exact absurd h refuse_ne_ok

theorem patchBillingPlan_ok {id : PlanId} {payload : BillingPlanPatch} {rows rows' : Table PlanId PlanRow}
    (h : patchBillingPlan id payload rows = .ok rows') : rows' = rows.modify id payload.row := by
  obtain ⟨plan, hplan, h⟩ := bind_eq_ok_iff.mp h
  obtain ⟨name, hname, h⟩ := bind_eq_ok_iff.mp h
  obtain ⟨rate, hrate, h⟩ := bind_eq_ok_iff.mp h
  obtain ⟨daily, hdaily, h⟩ := bind_eq_ok_iff.mp h
  obtain ⟨monthly, hmonthly, h⟩ := bind_eq_ok_iff.mp h
  obtain ⟨output, houtput, h⟩ := bind_eq_ok_iff.mp h
  obtain ⟨streaming, hstreaming, h⟩ := bind_eq_ok_iff.mp h
  obtain ⟨active, hactive, h⟩ := bind_eq_ok_iff.mp h
  obtain rfl := require_eq_ok_iff hname
  obtain rfl := require_eq_ok_iff hrate
  obtain rfl := require_eq_ok_iff hdaily
  obtain rfl := require_eq_ok_iff hmonthly
  obtain rfl := require_eq_ok_iff houtput
  obtain rfl := require_eq_ok_iff hstreaming
  obtain rfl := require_eq_ok_iff hactive
  have hrow : rows.lookup id = some plan := by
    unfold getPlan at hplan
    split at hplan
    · exact absurd hplan refuse_ne_ok
    · rename_i p hp
      rw [hp, Except.ok.inj hplan]
  rw [← Except.ok.inj h]
  refine Table.ext_of_keys (by simp) fun k => ?_
  by_cases hk : k = id
  · subst hk
    rw [Table.lookup_modify_self, Table.lookup_modify_self, hrow]
    rfl
  · rw [Table.lookup_modify_ne hk, Table.lookup_modify_ne hk]

theorem setBillingPlanModels_ok {id : PlanId} {allowedModels : List String} {rows rows' : Table PlanId PlanRow}
    (h : setBillingPlanModels id allowedModels rows = .ok rows') :
    rows' = rows.modify id fun p => { p with allowedModelsJson := .items allowedModels } := by
  obtain ⟨_, -, h⟩ := bind_eq_ok_iff.mp h
  exact (Except.ok.inj h).symm

/-- A call other than `create_client` changes the plans as it is asked to. -/
theorem view_of_attempt (h : c.attempt t = .ok t') (hc : ∀ id, c.operation ≠ .createClient id) :
    t'.view = c.gives t t' t.view := by
  have hwrite := c.write_of_attempt h
  obtain ⟨ids, op, stored⟩ := c
  unfold Plans.view
  cases op with
  | createClient id => exact absurd rfl (hc id)
  | createBillingPlan payload =>
    rw [createBillingPlan_ok hwrite]
    exact Table.lookup_insert_eq _ _ _
  | patchBillingPlan id payload =>
    rw [patchBillingPlan_ok hwrite]
    exact Table.lookup_modify_eq _ _ _
  | setBillingPlanModels id allowedModels =>
    rw [setBillingPlanModels_ok hwrite]
    exact Table.lookup_modify_eq _ _ _
  | syncAllowedPlans model codes =>
    unfold PlanCall.write syncAllowedPlanRows at hwrite
    dsimp only at hwrite
    split at hwrite
    · exact absurd hwrite refuse_ne_ok
    · rw [← Except.ok.inj hwrite]
      rfl
    · rw [← Except.ok.inj hwrite]
      funext id
      exact Table.lookup_mapRows _ _ _

end Attempt

/-! ## Runs -/

/-- The plan has the columns of the entry. -/
structure DefaultPlan.Describes (p : DefaultPlan) (row : PlanRow) : Prop where
  name : row.name = p.name
  description : row.description = some p.description
  rateLimitPerMinute : row.rateLimitPerMinute = p.rateLimitPerMinute
  dailyTokenQuota : row.dailyTokenQuota = p.dailyTokenQuota
  monthlyTokenQuota : row.monthlyTokenQuota = p.monthlyTokenQuota
  maxOutputTokens : row.maxOutputTokens = p.maxOutputTokens
  allowStreaming : row.allowStreaming = p.allowStreaming

/-- A client is created only while the default plans have the columns of their entries. -/
def PlanCall.KeepsEdits (t : Plans) (c : PlanCall) : Prop :=
  (∃ id, c.operation = .createClient id) → (∃ t', c.attempt t = .ok t') →
    ∀ p ∈ defaultBillingPlans, ∀ id row, t.rows.lookup id = some row → row.code = p.code → p.Describes row

theorem DefaultPlan.update_eq_self_iff {p : DefaultPlan} {row : PlanRow} (hcode : row.code = p.code) :
    p.update row = row ↔ p.Describes row := by
  obtain ⟨⟨code, allowed⟩, name, description, rate, daily, monthly, output, streaming, active⟩ := row
  constructor
  · intro h
    simp only [DefaultPlan.update, PlanRow.mk.injEq] at h
    obtain ⟨-, h₁, h₂, h₃, h₄, h₅, h₆, h₇, -⟩ := h
    exact ⟨h₁.symm, h₂.symm, h₃.symm, h₄.symm, h₅.symm, h₆.symm, h₇.symm⟩
  · rintro ⟨h₁, h₂, h₃, h₄, h₅, h₆, h₇⟩
    dsimp only at hcode h₁ h₂ h₃ h₄ h₅ h₆ h₇
    simp only [DefaultPlan.update, ← hcode, ← h₁, ← h₂, ← h₃, ← h₄, ← h₅, ← h₆, ← h₇]

/-- Seeding changes no plan that is there just if the default ones have the columns of their entries. -/
theorem view_seeds_iff {t t' : Plans} (h : planSeeder.Seeds defaultBillingPlans t.rows t'.rows) :
    (t'.view = fun id => (t.view id).or (t'.view id)) ↔
      ∀ p ∈ defaultBillingPlans, ∀ id row, t.rows.lookup id = some row → row.code = p.code → p.Describes row := by
  have hnodup : (defaultBillingPlans.map planSeeder.name).Nodup := by decide
  constructor
  · intro he p hp id row hrow hcode
    have hid := congrFun he id
    simp only [Plans.view, hrow, h.kept id row hrow, Option.some_or, Option.some.injEq] at hid
    rw [Seeder.seeded_of_mem hnodup hp hcode] at hid
    exact (DefaultPlan.update_eq_self_iff hcode).mp hid
  · intro hdescribes
    funext id
    simp only [Plans.view]
    cases hrow : t.rows.lookup id with
    | none => rfl
    | some row =>
      rw [h.kept id row hrow, Option.some_or]
      by_cases hcode : row.code ∈ defaultBillingPlans.map planSeeder.name
      · obtain ⟨p, hp, hpcode⟩ := List.mem_map.mp hcode
        rw [Seeder.seeded_of_mem hnodup hp hpcode.symm]
        exact congrArg some ((DefaultPlan.update_eq_self_iff hpcode.symm).mpr (hdescribes p hp id row hrow hpcode.symm))
      · rw [Seeder.seeded_of_not_mem hcode]

/-- A call changes the plans just as it is asked to, if it meets the condition, and else does not. -/
theorem PlanCall.keepsEdits_iff (t : Plans) (c : PlanCall) :
    c.KeepsEdits t ↔ ∀ t' ∈ planCommits t c, t'.view = c.gives t t' t.view := by
  simp only [mem_planCommits]
  by_cases hclient : ∃ id, c.operation = .createClient id
  · obtain ⟨id, hid⟩ := hclient
    obtain ⟨ids, op, stored⟩ := c
    obtain rfl : op = .createClient id := hid
    unfold PlanCall.KeepsEdits
    cases hattempt : PlanCall.attempt ⟨ids, .createClient id, stored⟩ t with
    | error e => simp
    | ok t' =>
      have hrows : t'.rows = ensureDefaultBillingPlans ids t.rows :=
        rows_of_createClient (PlanCall.write_of_attempt hattempt)
      have hseeds := ensureDefaultBillingPlans_seeds ids t
      rw [← hrows] at hseeds
      simp only [Except.ok.injEq, exists_eq', forall_eq', forall_const, PlanOperation.createClient.injEq]
      exact (view_seeds_iff hseeds).symm
  · refine iff_of_true (fun h => absurd h hclient) fun t' ht' => ?_
    exact view_of_attempt ht' fun id hid => hclient ⟨id, hid⟩

/-- **Edits of billing plans are durable** in just the runs that meet the condition: in every state committed each column
of each plan is what the last calls gave it. -/
theorem plan_edits_durable (t : Plans) (calls : List PlanCall) :
    Recorded planCommits PlanCall.gives Plans.view t calls ↔
      Along (commitStep planCommits) (fun t c => c.KeepsEdits t) t calls :=
  recorded_iff PlanCall.keepsEdits_iff

/-- The plans after the first start. -/
def startedPlans : Plans where
  rows := ensureDefaultBillingPlans Source.counter ∅
  codes := by decide
  names := by decide

/-- **A patched quota is lost**: the free plan gets a higher rate limit, and then a client is created. -/
theorem patched_quota_lost :
    ¬ Recorded planCommits PlanCall.gives Plans.view startedPlans
      [⟨Source.counter, .patchBillingPlan 1 { rateLimitPerMinute := some (some 30) }, true⟩,
        ⟨Source.counter, .createClient none, true⟩] := by
  intro h
  have hrate : ¬ ∀ x ∈ history (recording planCommits PlanCall.gives) (startedPlans, startedPlans.view)
      [⟨Source.counter, .patchBillingPlan 1 { rateLimitPerMinute := some (some 30) }, true⟩,
        ⟨Source.counter, .createClient none, true⟩],
      (x.1.view 1).map (·.rateLimitPerMinute) = (x.2 1).map (·.rateLimitPerMinute) := by
    decide +kernel
  exact hrate fun x hx => by rw [h x hx]

end LlmStore.Models
