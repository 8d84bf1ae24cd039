import LlmStore.Core.Floats
import LlmStore.Inference.Session
import LlmStore.Lib.Groups

/-!
# The summary by plan

`get_usage_summary` makes an entry for every client from its request logs and its quota counters, adds the entries up in
one bucket for each plan code, and adds all of them up in the totals. The buckets are those of the codes there are, each
the sum over the clients with its code (`plan_bucket_eq`), and the totals are the sums over the buckets and count every
request log once (`totals_eq`). The costs alone are another figure in the buckets and totals than in the entries: there
the invoice previews are added up, here the costs of the request logs (`clientEntry_cost`).
-/

namespace LlmStore.Reporting

open LlmStore.Calendar LlmStore.Floats LlmStore.Lib LlmStore.Usage LlmStore.Inference

/-! ## The entry of a client -/

/-- The plan of a client, with its active pricing rule. -/
structure SummaryPlan where
  code : String
  name : String
  rateLimitPerMinute : ℤ
  dailyTokenQuota : ℤ
  monthlyTokenQuota : ℤ
  maxOutputTokens : ℤ
  allowStreaming : Bool
  pricingRule : Option Billing.PricingRule

structure SummaryClient where
  id : ClientId
  name : String
  isBlocked : Bool
  billingStatus : Billing.BillingStatus
  plan : Option SummaryPlan

/-- What `resolve_effective_plan` makes of the stub of a client: without a plan, the limits that the stub is given. -/
def SummaryClient.effectivePlan (client : SummaryClient) : SummaryPlan :=
  match client.plan with
  | some plan => { plan with pricingRule := plan.pricingRule.filter (·.isActive) }
  | none => ⟨"legacy", "Legacy", 5, 20000, 300000, 2048, true, none⟩

/-- The terms of the plan that an invoice is made from. -/
def SummaryPlan.terms (plan : SummaryPlan) : Billing.EffectivePlan :=
  match plan.pricingRule with
  | some rule => ⟨plan.monthlyTokenQuota, rule.monthlyPrice, rule.overagePricePer1kTokens, rule.currency⟩
  | none => ⟨plan.monthlyTokenQuota, 0, 0, "USD"⟩

/-- `plan_limits`. -/
structure PlanLimits where
  rateLimitPerMinute : ℤ
  dailyTokenQuota : ℤ
  monthlyTokenQuota : ℤ
  maxOutputTokens : ℤ
  allowStreaming : Bool

structure ClientEntry where
  clientId : ClientId
  name : String
  isBlocked : Bool
  billingStatus : Billing.BillingStatus
  billingPlanCode : String
  billingPlanName : String
  planLimits : PlanLimits
  requestsTotal : ℕ
  tokensEstimatedTotal : ℤ
  estimatedCostUsd : ℚ
  promptTokensEstimated : ℤ
  completionTokensEstimated : ℤ
  errorsTotal : ℕ
  dailyUsedTokens : ℤ
  dailyRemainingTokens : ℤ
  monthlyUsedTokens : ℤ
  monthlyRemainingTokens : ℤ
  invoicePreview : Billing.InvoicePreview

/-- `invoice_preview["total_estimated"]`, a float. -/
def ClientEntry.totalEstimated (entry : ClientEntry) : ℚ := toFloat entry.invoicePreview.totalEstimated

/-- The rows that the summary is made from. -/
structure SummaryTables where
  clients : List SummaryClient
  requestLogs : List RequestLog
  usage : UsageTables

namespace SummaryTables

def logsOf (db : SummaryTables) (client : ClientId) : List RequestLog :=
  db.requestLogs.filter fun log => log.clientId = client

/-- `counters[period].used_tokens if counters[period] else 0`. -/
def usedTokens (db : SummaryTables) (client : ClientId) (today : Date) (period : PeriodType) : ℤ :=
  match db.usage.quotaCounters.lookup (periodKey client today period) with
  | some counter => counter.usedTokens
  | none => 0

/-- `case((RequestLog.http_status >= 400, 1), else_=0)`. -/
def isError (log : RequestLog) : Bool := 400 ≤ log.httpStatus

/-- `client_entry`. -/
def clientEntry (db : SummaryTables) (today : Date) (client : SummaryClient) : ClientEntry :=
  let plan := client.effectivePlan
  let logs := db.logsOf client.id
  let promptTokens := (logs.map RequestLog.promptTokensEstimated).sum
  let completionTokens := (logs.map RequestLog.completionTokensEstimated).sum
  let dailyUsed := db.usedTokens client.id today .daily
  let monthlyUsed := db.usedTokens client.id today .monthly
  { clientId := client.id
    name := client.name
    isBlocked := client.isBlocked
    billingStatus := client.billingStatus
    billingPlanCode := plan.code
    billingPlanName := plan.name
    planLimits := ⟨plan.rateLimitPerMinute, plan.dailyTokenQuota, plan.monthlyTokenQuota, plan.maxOutputTokens,
      plan.allowStreaming⟩
    requestsTotal := logs.length
    tokensEstimatedTotal := promptTokens + completionTokens
    estimatedCostUsd := roundFloat (toFloat (logs.map RequestLog.estimatedCostUsd).sum)
    promptTokensEstimated := promptTokens
    completionTokensEstimated := completionTokens
    errorsTotal := logs.countP isError
    dailyUsedTokens := dailyUsed
    dailyRemainingTokens := max (plan.dailyTokenQuota - dailyUsed) 0
    monthlyUsedTokens := monthlyUsed
    monthlyRemainingTokens := max (plan.monthlyTokenQuota - monthlyUsed) 0
    invoicePreview := Billing.buildInvoicePreview plan.terms monthlyUsed }

end SummaryTables

/-! ## The loop -/

structure PlanBucket where
  billingPlanCode : String
  billingPlanName : String
  clientsTotal : ℕ
  requestsTotal : ℕ
  tokensEstimatedTotal : ℤ
  errorsTotal : ℕ
  dailyUsedTokens : ℤ
  monthlyUsedTokens : ℤ
  estimatedCostUsd : ℚ

structure SummaryTotals where
  clientsTotal : ℕ
  requestsTotal : ℕ
  tokensEstimatedTotal : ℤ
  errorsTotal : ℕ
  estimatedCostUsd : ℚ

structure UsageSummary where
  totals : SummaryTotals
  plans : List PlanBucket
  clients : List ClientEntry

def PlanBucket.new (entry : ClientEntry) : PlanBucket :=
  ⟨entry.billingPlanCode, entry.billingPlanName, 0, 0, 0, 0, 0, 0, 0⟩

def PlanBucket.add (entry : ClientEntry) (bucket : PlanBucket) : PlanBucket :=
  { bucket with
    clientsTotal := bucket.clientsTotal + 1
    requestsTotal := bucket.requestsTotal + entry.requestsTotal
    tokensEstimatedTotal := bucket.tokensEstimatedTotal + entry.tokensEstimatedTotal
    errorsTotal := bucket.errorsTotal + entry.errorsTotal
    dailyUsedTokens := bucket.dailyUsedTokens + entry.dailyUsedTokens
    monthlyUsedTokens := bucket.monthlyUsedTokens + entry.monthlyUsedTokens
    estimatedCostUsd := addFloat bucket.estimatedCostUsd entry.totalEstimated }

def SummaryTotals.add (totals : SummaryTotals) (entry : ClientEntry) : SummaryTotals :=
  { totals with
    requestsTotal := totals.requestsTotal + entry.requestsTotal
    tokensEstimatedTotal := totals.tokensEstimatedTotal + entry.tokensEstimatedTotal
    errorsTotal := totals.errorsTotal + entry.errorsTotal
    estimatedCostUsd := addFloat totals.estimatedCostUsd entry.totalEstimated }

/-- The lists and dicts that the loop over the clients fills. -/
structure LoopState where
  clients : List ClientEntry
  byPlan : List (String × PlanBucket)
  totals : SummaryTotals

/-- The body of the loop. -/
def LoopState.step (s : LoopState) (entry : ClientEntry) : LoopState where
  clients := s.clients ++ [entry]
  byPlan := bump entry.billingPlanCode (.new entry) (.add entry) s.byPlan
  totals := s.totals.add entry

/-- `get_usage_summary`, without the latencies, the times and the totals of the usage records. -/
def getUsageSummary (db : SummaryTables) (today : Date) : UsageSummary :=
  let s := (db.clients.map (db.clientEntry today)).foldl LoopState.step ⟨[], [], ⟨db.clients.length, 0, 0, 0, 0⟩⟩
  { totals := { s.totals with estimatedCostUsd := roundFloat s.totals.estimatedCostUsd }
    plans := s.byPlan.map fun (_, bucket) => { bucket with estimatedCostUsd := roundFloat bucket.estimatedCostUsd }
    clients := s.clients }

/-! ## What the loop adds up -/

theorem foldl_step (entries : List ClientEntry) (s : LoopState) :
    entries.foldl LoopState.step s =
      ⟨s.clients ++ entries,
        entries.foldl (fun byPlan entry => bump entry.billingPlanCode (.new entry) (.add entry) byPlan) s.byPlan,
        entries.foldl SummaryTotals.add s.totals⟩ := by
  induction entries generalizing s with
  | nil => simp
  | cons entry entries ih => simp [ih, LoopState.step]

/-- The buckets before their costs are rounded. -/
def planBuckets (entries : List ClientEntry) : List (String × PlanBucket) :=
  group ClientEntry.billingPlanCode PlanBucket.new PlanBucket.add entries

theorem getUsageSummary_clients (db : SummaryTables) (today : Date) :
    (getUsageSummary db today).clients = db.clients.map (db.clientEntry today) := by
  simp [getUsageSummary, foldl_step]

theorem getUsageSummary_plans (db : SummaryTables) (today : Date) :
    (getUsageSummary db today).plans =
      (planBuckets (getUsageSummary db today).clients).map fun bucket =>
        { bucket.2 with estimatedCostUsd := roundFloat bucket.2.estimatedCostUsd } := by
  simp [getUsageSummary, foldl_step, planBuckets, group]

section Buckets

variable {M : Type} [AddCommMonoid M] {db : SummaryTables} {today : Date} {plan : PlanBucket}

/-- A figure of the buckets and the figure of the entries that it adds up. -/
structure Column (figure : PlanBucket → M) (amount : ClientEntry → M) : Prop where
  grows : Grows PlanBucket.new PlanBucket.add figure amount
  rounded : ∀ bucket : PlanBucket, figure { bucket with estimatedCostUsd := roundFloat bucket.estimatedCostUsd } =
    figure bucket

theorem column_clientsTotal : Column PlanBucket.clientsTotal fun _ => 1 :=
  ⟨⟨fun _ => rfl, fun _ _ => rfl⟩, fun _ => rfl⟩

theorem column_requestsTotal : Column PlanBucket.requestsTotal ClientEntry.requestsTotal :=
  ⟨⟨fun _ => rfl, fun _ _ => rfl⟩, fun _ => rfl⟩

theorem column_tokensEstimatedTotal : Column PlanBucket.tokensEstimatedTotal ClientEntry.tokensEstimatedTotal :=
  ⟨⟨fun _ => rfl, fun _ _ => rfl⟩, fun _ => rfl⟩

theorem column_errorsTotal : Column PlanBucket.errorsTotal ClientEntry.errorsTotal :=
  ⟨⟨fun _ => rfl, fun _ _ => rfl⟩, fun _ => rfl⟩

theorem column_dailyUsedTokens : Column PlanBucket.dailyUsedTokens ClientEntry.dailyUsedTokens :=
  ⟨⟨fun _ => rfl, fun _ _ => rfl⟩, fun _ => rfl⟩

theorem column_monthlyUsedTokens : Column PlanBucket.monthlyUsedTokens ClientEntry.monthlyUsedTokens :=
  ⟨⟨fun _ => rfl, fun _ _ => rfl⟩, fun _ => rfl⟩

theorem Column.sum_plans {figure : PlanBucket → M} {amount : ClientEntry → M} (h : Column figure amount)
    (db : SummaryTables) (today : Date) :
    ((getUsageSummary db today).plans.map figure).sum = ((getUsageSummary db today).clients.map amount).sum := by
  rw [getUsageSummary_plans, List.map_map, ← sum_group ClientEntry.billingPlanCode h.grows]
  congr 1
  exact List.map_congr_left fun bucket _ => h.rounded bucket.2

theorem code_of_mem_planBuckets {entries : List ClientEntry} :
    ∀ bucket ∈ planBuckets entries, bucket.2.billingPlanCode = bucket.1 := by
  have hnew : ∀ entry : ClientEntry, (PlanBucket.add entry (.new entry)).billingPlanCode = entry.billingPlanCode :=
    fun _ => rfl
  have hadd : ∀ (entry : ClientEntry) (bucket : PlanBucket), bucket.billingPlanCode = entry.billingPlanCode →
      (PlanBucket.add entry bucket).billingPlanCode = entry.billingPlanCode := fun _ _ h => h
  exact of_mem_group (P := fun (k : String) (bucket : PlanBucket) => bucket.billingPlanCode = k) hnew hadd entries

/-- A bucket of the summary is one of the loop, with its cost rounded. -/
theorem exists_of_mem_plans (hplan : plan ∈ (getUsageSummary db today).plans) :
    ∃ bucket, (plan.billingPlanCode, bucket) ∈ planBuckets (getUsageSummary db today).clients ∧
      plan = { bucket with estimatedCostUsd := roundFloat bucket.estimatedCostUsd } := by
  rw [getUsageSummary_plans] at hplan
  obtain ⟨⟨code, bucket⟩, hbucket, rfl⟩ := List.mem_map.mp hplan
  obtain rfl : bucket.billingPlanCode = code := code_of_mem_planBuckets _ hbucket
  exact ⟨bucket, hbucket, rfl⟩

theorem Column.bucket_eq {figure : PlanBucket → M} {amount : ClientEntry → M} (h : Column figure amount)
    (hplan : plan ∈ (getUsageSummary db today).plans) :
    figure plan = (((getUsageSummary db today).clients.filter fun entry =>
      entry.billingPlanCode = plan.billingPlanCode).map amount).sum := by
  obtain ⟨bucket, hbucket, hround⟩ := exists_of_mem_plans hplan
  rw [hround, h.rounded, ← hround]
  exact measure_of_mem_group h.grows hbucket

theorem bucket_cost_eq (hplan : plan ∈ (getUsageSummary db today).plans) :
    plan.estimatedCostUsd = roundFloat (addUp (((getUsageSummary db today).clients.filter fun entry =>
      entry.billingPlanCode = plan.billingPlanCode).map ClientEntry.totalEstimated)) := by
  obtain ⟨bucket, hbucket, hround⟩ := exists_of_mem_plans hplan
  have hnew : ∀ entry, (PlanBucket.new entry).estimatedCostUsd = 0 := fun _ => rfl
  have hadd : ∀ (entry : ClientEntry) (bucket : PlanBucket), (bucket.add entry).estimatedCostUsd =
      addFloat bucket.estimatedCostUsd entry.totalEstimated := fun _ _ => rfl
  have hcost := figure_of_mem_group PlanBucket.estimatedCostUsd
    (fun cost (entry : ClientEntry) => addFloat cost entry.totalEstimated) hnew hadd hbucket
  rw [addUp, List.foldl_map, ← hcost]
  exact congrArg PlanBucket.estimatedCostUsd hround

end Buckets

/-! ## Totals -/

/-- The totals after the loop. -/
theorem foldl_totals (entries : List ClientEntry) (totals : SummaryTotals) :
    let totals' := entries.foldl SummaryTotals.add totals
    totals'.clientsTotal = totals.clientsTotal ∧
      totals'.requestsTotal = totals.requestsTotal + (entries.map ClientEntry.requestsTotal).sum ∧
      totals'.tokensEstimatedTotal = totals.tokensEstimatedTotal + (entries.map ClientEntry.tokensEstimatedTotal).sum ∧
      totals'.errorsTotal = totals.errorsTotal + (entries.map ClientEntry.errorsTotal).sum ∧
      totals'.estimatedCostUsd = (entries.map ClientEntry.totalEstimated).foldl addFloat totals.estimatedCostUsd := by
  induction entries generalizing totals with
  | nil => simp
  | cons entry entries ih =>
    obtain ⟨hclients, hrequests, htokens, herrors, hcost⟩ := ih (totals.add entry)
    simp only [List.foldl_cons, List.map_cons, List.sum_cons]
    exact ⟨hclients, by rw [hrequests, ← add_assoc]; rfl, by rw [htokens, ← add_assoc]; rfl,
      by rw [herrors, ← add_assoc]; rfl, hcost⟩

section Logs

variable {db : SummaryTables} {today : Date}

/-- Figures of the logs of each client add up to the figure of all logs. -/
theorem sum_logsOf {M : Type} [AddCommMonoid M] (hclients : (db.clients.map SummaryClient.id).Nodup)
    (hlogs : ∀ log ∈ db.requestLogs, log.clientId ∈ db.clients.map SummaryClient.id) (amount : RequestLog → M) :
    (db.clients.map fun client => ((db.logsOf client.id).map amount).sum).sum = (db.requestLogs.map amount).sum := by
  have hsum := sum_over_keys hclients RequestLog.clientId amount db.requestLogs
  rw [List.map_map, List.filter_eq_self.mpr fun log hlog => decide_eq_true (hlogs log hlog)] at hsum
  exact hsum

theorem length_eq_sum {α : Type} (l : List α) : l.length = (l.map fun _ => 1).sum := by simp

theorem countP_eq_sum {α : Type} (p : α → Bool) (l : List α) : l.countP p = (l.map fun a => if p a then 1 else 0).sum := by
  induction l with
  | nil => rfl
  | cons a l ih => simp [List.countP_cons, ih, add_comm]

end Logs

/-! ## The summary -/

/-- The figures of a bucket are the sums over some entries, and its cost is that of their invoice previews. -/
structure PlanBucket.Sums (bucket : PlanBucket) (entries : List ClientEntry) : Prop where
  clientsTotal : bucket.clientsTotal = entries.length
  requestsTotal : bucket.requestsTotal = (entries.map ClientEntry.requestsTotal).sum
  tokensEstimatedTotal : bucket.tokensEstimatedTotal = (entries.map ClientEntry.tokensEstimatedTotal).sum
  errorsTotal : bucket.errorsTotal = (entries.map ClientEntry.errorsTotal).sum
  dailyUsedTokens : bucket.dailyUsedTokens = (entries.map ClientEntry.dailyUsedTokens).sum
  monthlyUsedTokens : bucket.monthlyUsedTokens = (entries.map ClientEntry.monthlyUsedTokens).sum
  estimatedCostUsd : bucket.estimatedCostUsd = roundFloat (addUp (entries.map ClientEntry.totalEstimated))

/-- The totals are the sums over some buckets, and count some logs; their cost is that of the invoice previews. -/
structure SummaryTotals.Sums (totals : SummaryTotals) (plans : List PlanBucket) (entries : List ClientEntry)
    (logs : List RequestLog) : Prop where
  clientsTotal : totals.clientsTotal = (plans.map PlanBucket.clientsTotal).sum
  requestsTotal : totals.requestsTotal = (plans.map PlanBucket.requestsTotal).sum
  tokensEstimatedTotal : totals.tokensEstimatedTotal = (plans.map PlanBucket.tokensEstimatedTotal).sum
  errorsTotal : totals.errorsTotal = (plans.map PlanBucket.errorsTotal).sum
  requests : totals.requestsTotal = logs.length
  tokens : totals.tokensEstimatedTotal =
    (logs.map fun log => log.promptTokensEstimated + log.completionTokensEstimated).sum
  errors : totals.errorsTotal = logs.countP fun log => 400 ≤ log.httpStatus
  estimatedCostUsd : totals.estimatedCostUsd = roundFloat (addUp (entries.map ClientEntry.totalEstimated))

theorem plan_bucket_eq (db : SummaryTables) (today : Date) {plan : PlanBucket}
    (hplan : plan ∈ (getUsageSummary db today).plans) :
    plan.Sums ((getUsageSummary db today).clients.filter fun entry => entry.billingPlanCode = plan.billingPlanCode) where
  clientsTotal := by rw [length_eq_sum, column_clientsTotal.bucket_eq hplan]
  requestsTotal := column_requestsTotal.bucket_eq hplan
  tokensEstimatedTotal := column_tokensEstimatedTotal.bucket_eq hplan
  errorsTotal := column_errorsTotal.bucket_eq hplan
  dailyUsedTokens := column_dailyUsedTokens.bucket_eq hplan
  monthlyUsedTokens := column_monthlyUsedTokens.bucket_eq hplan
  estimatedCostUsd := bucket_cost_eq hplan

/-- The totals count the entries. -/
theorem totals_of_entries (db : SummaryTables) (today : Date) :
    let s := getUsageSummary db today
    s.totals.clientsTotal = s.clients.length ∧
      s.totals.requestsTotal = (s.clients.map ClientEntry.requestsTotal).sum ∧
      s.totals.tokensEstimatedTotal = (s.clients.map ClientEntry.tokensEstimatedTotal).sum ∧
      s.totals.errorsTotal = (s.clients.map ClientEntry.errorsTotal).sum ∧
      s.totals.estimatedCostUsd = roundFloat (addUp (s.clients.map ClientEntry.totalEstimated)) := by
  obtain ⟨hclients, hrequests, htokens, herrors, hcost⟩ :=
    foldl_totals (db.clients.map (db.clientEntry today)) ⟨db.clients.length, 0, 0, 0, 0⟩
  simp only [zero_add] at hrequests htokens herrors
  intro s
  have hentries : s.clients = db.clients.map (db.clientEntry today) := getUsageSummary_clients db today
  set totals := (db.clients.map (db.clientEntry today)).foldl SummaryTotals.add ⟨db.clients.length, 0, 0, 0, 0⟩
  have htotals : s.totals = { totals with estimatedCostUsd := roundFloat totals.estimatedCostUsd } := by
    simp [s, totals, getUsageSummary, foldl_step]
  rw [htotals, hentries, List.length_map]
  exact ⟨hclients, hrequests, htokens, herrors, congrArg roundFloat hcost⟩

theorem totals_eq {db : SummaryTables} (today : Date) (hclients : (db.clients.map SummaryClient.id).Nodup)
    (hlogs : ∀ log ∈ db.requestLogs, log.clientId ∈ db.clients.map SummaryClient.id) :
    let s := getUsageSummary db today
    s.totals.Sums s.plans s.clients db.requestLogs := by
  intro s
  obtain ⟨htotal, hrequests, htokens, herrors, hcost⟩ := totals_of_entries db today
  have hfigure : ∀ {M : Type} [AddCommMonoid M] {figure : ClientEntry → M} {amount : RequestLog → M},
      (∀ client, figure (db.clientEntry today client) = ((db.logsOf client.id).map amount).sum) →
      (s.clients.map figure).sum = (db.requestLogs.map amount).sum := by
    intro M _ figure amount hamount
    rw [getUsageSummary_clients, List.map_map, ← sum_logsOf hclients hlogs]
    exact congrArg List.sum (List.map_congr_left fun client _ => hamount client)
  exact
    { clientsTotal := by rw [htotal, length_eq_sum, column_clientsTotal.sum_plans]
      requestsTotal := by rw [hrequests, column_requestsTotal.sum_plans]
      tokensEstimatedTotal := by rw [htokens, column_tokensEstimatedTotal.sum_plans]
      errorsTotal := by rw [herrors, column_errorsTotal.sum_plans]
      requests := by
        rw [hrequests, length_eq_sum]
        exact hfigure fun client => length_eq_sum _
      tokens := by
        rw [htokens]
        exact hfigure fun client => List.sum_map_add.symm
      errors := by
        rw [herrors, countP_eq_sum]
        exact hfigure fun client => countP_eq_sum _ _
      estimatedCostUsd := hcost }

/-- The cost of an entry is that of the request logs of its client. -/
theorem clientEntry_cost {db : SummaryTables} {today : Date} {entry : ClientEntry}
    (hentry : entry ∈ (getUsageSummary db today).clients) :
    entry.estimatedCostUsd = roundFloat (toFloat ((db.logsOf entry.clientId).map RequestLog.estimatedCostUsd).sum) := by
  rw [getUsageSummary_clients] at hentry
  obtain ⟨client, -, rfl⟩ := List.mem_map.mp hentry
  rfl

theorem nodup_codes (db : SummaryTables) (today : Date) :
    ((getUsageSummary db today).plans.map PlanBucket.billingPlanCode).Nodup := by
  have hcodes : (getUsageSummary db today).plans.map PlanBucket.billingPlanCode =
      (planBuckets (getUsageSummary db today).clients).map Prod.fst := by
    rw [getUsageSummary_plans, List.map_map]
    exact List.map_congr_left code_of_mem_planBuckets
  rw [hcodes]
  exact nodup_keys_group _

/-- The three levels of the summary agree: there is one bucket for each plan code, it adds up the clients with that code,
and the totals add up the buckets and count every request log, its tokens and its error once. The cost of an entry is that
of the client's request logs, and the costs of the buckets and totals are those of the clients' invoice previews. -/
theorem usage_summary_adds_up {db : SummaryTables} (today : Date) (hclients : (db.clients.map SummaryClient.id).Nodup)
    (hlogs : ∀ log ∈ db.requestLogs, log.clientId ∈ db.clients.map SummaryClient.id) :
    let s := getUsageSummary db today
    (s.plans.map PlanBucket.billingPlanCode).Nodup ∧
      (∀ plan ∈ s.plans, plan.Sums (s.clients.filter fun entry => entry.billingPlanCode = plan.billingPlanCode)) ∧
      s.totals.Sums s.plans s.clients db.requestLogs ∧
      ∀ entry ∈ s.clients, entry.estimatedCostUsd =
        roundFloat (toFloat ((db.logsOf entry.clientId).map RequestLog.estimatedCostUsd).sum) :=
  ⟨nodup_codes db today, fun _ hplan => plan_bucket_eq db today hplan, totals_eq today hclients hlogs,
    fun _ hentry => clientEntry_cost hentry⟩

def pro : SummaryPlan := ⟨"pro", "Pro", 45, 10, 20, 5, true, some ⟨true, 29, 1, "USD"⟩⟩

/-- Two clients on a plan at 29 dollars, one of whom has run up a tenth of a dollar behind its quota. -/
def threeRequests : SummaryTables where
  clients := [⟨1, "Ana", false, .active, none⟩, ⟨2, "Bruno", false, .active, some pro⟩, ⟨3, "Clara", true, .active, some pro⟩]
  requestLogs :=
    [⟨2, "m", "/v1/completions", 4, 3, 502, false, 0, none, 1, false, false, [], none⟩,
      ⟨3, "m", "/v1/completions", 60, 40, 200, false, 1 / 10, none, 1, false, false, [], none⟩,
      ⟨1, "m", "/v1/completions", 5, 5, 200, false, 0, none, 1, false, false, [], none⟩]
  usage := ⟨∅, ∅⟩

theorem firstOfMay_exists : (1 ≤ 5 ∧ 5 ≤ 12) ∧ 1 ≤ 1 ∧ 1 ≤ daysInMonth 2026 5 := by decide

def firstOfMay : Date := .ofExists firstOfMay_exists

theorem usage_summary_adds_up_threeRequests :
    let s := getUsageSummary threeRequests firstOfMay
    (s.plans.map PlanBucket.billingPlanCode).Nodup ∧
      (∀ plan ∈ s.plans, plan.Sums (s.clients.filter fun entry => entry.billingPlanCode = plan.billingPlanCode)) ∧
      s.totals.Sums s.plans s.clients threeRequests.requestLogs ∧
      ∀ entry ∈ s.clients, entry.estimatedCostUsd =
        roundFloat (toFloat ((threeRequests.logsOf entry.clientId).map RequestLog.estimatedCostUsd).sum) :=
  usage_summary_adds_up firstOfMay (by decide) (by simp [threeRequests])

end LlmStore.Reporting
