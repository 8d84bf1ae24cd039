import Mathlib.Data.Rat.Floor
import LlmStore.Usage.Consistency

/-!
# The usage summary

`get_usage_summary` adds up the usage records of a client. `record_usage` books every request on a daily and on a monthly
row, so the rows of either period type count each request once (`periodSum_run`), and the sum over all of them, which the
summary reports, counts it twice (`usage_summary_counts_twice`).
-/

namespace LlmStore.Usage

open LlmStore.Calendar LlmStore.Lib

/-! ## The query -/

/-- `func.sum` of a column over the rows of a client. -/
def clientSum (column : UsageRecord → ℤ) (clientId : ClientId) (db : UsageTables) : ℤ :=
  Table.total (fun k row => if k.clientId = clientId then column row else 0) db.usageRecords

structure UsageRow where
  usageRequestsTotal : ℤ
  usagePromptTokensTotal : ℤ
  usageCompletionTokensTotal : ℤ

/-- The row of a client in the result of `usage_query`; a client without usage records has none. -/
def usageRow (db : UsageTables) (clientId : ClientId) : Option UsageRow :=
  if db.usageRecords.keys.any fun k => k.clientId = clientId then
    some
      { usageRequestsTotal := clientSum UsageRecord.requestCount clientId db
        usagePromptTokensTotal := clientSum UsageRecord.promptTokens clientId db
        usageCompletionTokensTotal := clientSum UsageRecord.completionTokens clientId db }
  else none

/-- What the summary says of a client's usage records. -/
structure SummaryEntry where
  clientId : ClientId
  usageRecordRequestsTotal : ℤ
  usageRecordTokensTotal : ℤ

def summaryEntry (db : UsageTables) (clientId : ClientId) : SummaryEntry where
  clientId := clientId
  usageRecordRequestsTotal := match usageRow db clientId with
    | some row => row.usageRequestsTotal
    | none => 0
  usageRecordTokensTotal := match usageRow db clientId with
    | some row => row.usagePromptTokensTotal + row.usageCompletionTokensTotal
    | none => 0

/-- `get_usage_summary`, for the clients there are. -/
def getUsageSummary (clients : List ClientId) (db : UsageTables) : List SummaryEntry := clients.map (summaryEntry db)

/-! ## What has been recorded -/

/-- The calls of `record_usage` for a client since the last reset, with their tokens. -/
def UsageOperation.calls (clientId : ClientId) (before : List (ℤ × ℤ)) : UsageOperation → List (ℤ × ℤ)
  | .ensureQuota .. => before
  | .recordUsage client _ promptTokens completionTokens =>
    if client = clientId then before ++ [(promptTokens, completionTokens)] else before
  | .resetClientUsage testToolsEnabled publicExposure known client =>
    if client = clientId ∧ testToolsEnabled = true ∧ publicExposure = false ∧ known = true then [] else before

def callsSinceReset (clientId : ClientId) (ops : List UsageOperation) : List (ℤ × ℤ) :=
  ops.foldl (UsageOperation.calls clientId) []

/-! ## Sums over one period type -/

/-- The sum of a column over the rows of a client with one period type. -/
def periodSum (column : UsageRecord → ℤ) (pt : PeriodType) (clientId : ClientId) (db : UsageTables) : ℤ :=
  Table.total (fun k row => if k.clientId = clientId ∧ k.periodType = pt then column row else 0) db.usageRecords

/-- The two period types share out the rows. -/
theorem clientSum_eq (column : UsageRecord → ℤ) (clientId : ClientId) (db : UsageTables) :
    clientSum column clientId db = periodSum column .daily clientId db + periodSum column .monthly clientId db := by
  unfold clientSum periodSum Table.total
  rw [← List.sum_map_add]
  congr 1
  apply List.map_congr_left
  intro e _
  by_cases hc : e.1.clientId = clientId
  · cases hp : e.1.periodType <;> simp [hc, hp]
  · simp [hc]

section Rows

variable {f : PeriodKey → UsageRecord → ℤ}

/-- Making a row of zeros adds nothing to a sum. -/
theorem total_getOrCreateUsageRecord (hf : ∀ k, f k {} = 0) (db : UsageTables) (k : PeriodKey) :
    Table.total f (getOrCreateUsageRecord db k).2.usageRecords = Table.total f db.usageRecords := by
  unfold getOrCreateUsageRecord
  cases hk : db.usageRecords.lookup k with
  | some record => rfl
  | none =>
    have h := Table.total_insert f db.usageRecords k {}
    rw [hf, add_zero, Table.part, hk] at h
    simpa using h

/-- Booking on one key changes a sum by the part of that key. -/
theorem total_records_recordPeriod (hf : ∀ k, f k {} = 0) (db : UsageTables) (k : PeriodKey) (p c : ℤ) :
    Table.total f (recordPeriod db k p c).usageRecords + f k (db.record k) =
      Table.total f db.usageRecords + f k ((db.record k).book p c) := by
  let db₁ : UsageTables := { (getOrCreateCounter db k).2 with
    quotaCounters := (getOrCreateCounter db k).2.quotaCounters.insert k ((getOrCreateCounter db k).1.book (p + c)) }
  have hrecords : db₁.usageRecords = db.usageRecords := getOrCreateCounter_records db k
  have hrecord : db₁.record k = db.record k := by rw [UsageTables.record, hrecords, UsageTables.record]
  have hold : f k (db.record k) = Table.part f (getOrCreateUsageRecord db₁ k).2.usageRecords k := by
    rw [Table.part_eq_getD _ (hf k), ← hrecord]
    exact congrArg (f k) (getOrCreateUsageRecord_record db₁ k k).symm
  have hsum : Table.total f (getOrCreateUsageRecord db₁ k).2.usageRecords = Table.total f db.usageRecords := by
    rw [total_getOrCreateUsageRecord hf, hrecords]
  have hinsert := Table.total_insert f (getOrCreateUsageRecord db₁ k).2.usageRecords k
    ((getOrCreateUsageRecord db₁ k).1.book p c)
  rw [← hold, hsum, getOrCreateUsageRecord_fst, hrecord] at hinsert
  show Table.total f ((getOrCreateUsageRecord db₁ k).2.usageRecords.insert k
    ((getOrCreateUsageRecord db₁ k).1.book p c)) + _ = _
  rw [getOrCreateUsageRecord_fst, hrecord]
  exact hinsert

end Rows

/-- A column that every call raises by an amount of its own, from zero. -/
structure Booked (column : UsageRecord → ℤ) (amount : ℤ × ℤ → ℤ) : Prop where
  zero : column {} = 0
  book : ∀ r p c, column (r.book p c) = column r + amount (p, c)

theorem booked_requestCount : Booked UsageRecord.requestCount fun _ => 1 := ⟨rfl, fun _ _ _ => rfl⟩

theorem booked_promptTokens : Booked UsageRecord.promptTokens Prod.fst := ⟨rfl, fun _ _ _ => rfl⟩

theorem booked_completionTokens : Booked UsageRecord.completionTokens Prod.snd := ⟨rfl, fun _ _ _ => rfl⟩

namespace Booked

variable {column : UsageRecord → ℤ} {amount : ℤ × ℤ → ℤ} {db : UsageTables} {clientId : ClientId} {pt : PeriodType}

theorem periodSum_recordPeriod (h : Booked column amount) (k : PeriodKey) (p c : ℤ) :
    periodSum column pt clientId (recordPeriod db k p c) =
      periodSum column pt clientId db + if k.clientId = clientId ∧ k.periodType = pt then amount (p, c) else 0 := by
  have htotal := total_records_recordPeriod
    (f := fun k row => if k.clientId = clientId ∧ k.periodType = pt then column row else 0)
    (fun k => by simp [h.zero]) db k p c
  have hbook := h.book (db.record k) p c
  unfold periodSum
  split_ifs at htotal ⊢ <;> omega

/-- A call is booked on one row of each period type. -/
theorem periodSum_recordUsage (h : Booked column amount) (client : ClientId) (today : Date) (p c : ℤ) :
    periodSum column pt clientId (recordUsage db client today p c) =
      periodSum column pt clientId db + if client = clientId then amount (p, c) else 0 := by
  unfold recordUsage
  rw [h.periodSum_recordPeriod, h.periodSum_recordPeriod]
  cases pt <;> simp [periodKey]

end Booked

theorem periodSum_deleteRows (column : UsageRecord → ℤ) (pt : PeriodType) (client clientId : ClientId)
    (db : UsageTables) : periodSum column pt clientId (db.deleteRows client) =
      if client = clientId then 0 else periodSum column pt clientId db := by
  unfold periodSum UsageTables.deleteRows
  rw [Table.total_deleteWhere]
  split_ifs with hc
  · subst hc
    apply List.sum_eq_zero
    intro x hx
    obtain ⟨e, -, rfl⟩ := List.mem_map.mp hx
    by_cases he : e.1.clientId = client <;> simp [he]
  · congr 1
    funext k row
    by_cases hk : k.clientId = client
    · simp [hk, hc]
    · simp [hk]

/-- What an operation adds to the sums is what it adds to the calls. -/
theorem Booked.periodSum_apply {column : UsageRecord → ℤ} {amount : ℤ × ℤ → ℤ} (h : Booked column amount)
    {db : UsageTables} {clientId : ClientId} {before : List (ℤ × ℤ)} {pt : PeriodType}
    (hdb : periodSum column pt clientId db = (before.map amount).sum) (op : UsageOperation) :
    periodSum column pt clientId (op.apply db) = ((op.calls clientId before).map amount).sum := by
  cases op with
  | ensureQuota client today dl ml n =>
    rw [periodSum, UsageOperation.apply, ensureQuota_records]
    exact hdb
  | recordUsage client today p c =>
    rw [UsageOperation.apply, h.periodSum_recordUsage, hdb, UsageOperation.calls]
    split_ifs
    · simp
    · simp
  | resetClientUsage testTools exposed known client =>
    by_cases hok : testTools = true ∧ exposed = false ∧ known = true
    · obtain ⟨rfl, rfl, rfl⟩ := hok
      have happly : UsageOperation.apply db (.resetClientUsage true false true client) = db.deleteRows client := rfl
      rw [happly, periodSum_deleteRows, UsageOperation.calls]
      by_cases hc : client = clientId
      · simp [hc]
      · simpa [hc] using hdb
    · have happly : UsageOperation.apply db (.resetClientUsage testTools exposed known client) = db := by
        cases testTools <;> cases exposed <;> cases known <;>
          simp [UsageOperation.apply, resetClientUsage] at hok ⊢
      rw [happly, UsageOperation.calls, if_neg fun hc => hok hc.2]
      exact hdb

/-- The rows of either period type count every call since the last reset once. -/
theorem Booked.periodSum_run {column : UsageRecord → ℤ} {amount : ℤ × ℤ → ℤ} (h : Booked column amount)
    (pt : PeriodType) (clientId : ClientId) (ops : List UsageOperation) :
    periodSum column pt clientId (ops.foldl UsageOperation.apply .empty) =
      ((callsSinceReset clientId ops).map amount).sum := by
  have hrun : ∀ (db : UsageTables) (before : List (ℤ × ℤ)),
      periodSum column pt clientId db = (before.map amount).sum →
      periodSum column pt clientId (ops.foldl UsageOperation.apply db) =
        ((ops.foldl (UsageOperation.calls clientId) before).map amount).sum := by
    induction ops with
    | nil =>
      intro db before hdb
      exact hdb
    | cons op ops ih =>
      intro db before hdb
      rw [List.foldl_cons, List.foldl_cons]
      apply ih
      exact h.periodSum_apply hdb op
  exact hrun .empty [] rfl

/-! ## The summary -/

/-- A client without rows has nothing to add up. -/
theorem clientSum_of_no_row {column : UsageRecord → ℤ} {clientId : ClientId} {db : UsageTables}
    (h : ¬ (db.usageRecords.keys.any fun k => k.clientId = clientId) = true) : clientSum column clientId db = 0 := by
  unfold clientSum Table.total
  apply List.sum_eq_zero
  intro x hx
  obtain ⟨e, he, rfl⟩ := List.mem_map.mp hx
  have hkey : e.1 ∈ db.usageRecords.keys := List.mem_map.mpr ⟨e, he, rfl⟩
  by_cases hc : e.1.clientId = clientId
  · exact absurd (List.any_eq_true.mpr ⟨e.1, hkey, by simpa using hc⟩) h
  · exact if_neg hc

theorem summaryEntry_requests (db : UsageTables) (clientId : ClientId) :
    (summaryEntry db clientId).usageRecordRequestsTotal = clientSum UsageRecord.requestCount clientId db := by
  unfold summaryEntry usageRow
  by_cases h : (db.usageRecords.keys.any fun k => k.clientId = clientId) = true
  · simp only [h, if_true]
  · simp only [h, if_false, Bool.false_eq_true, clientSum_of_no_row h]

theorem summaryEntry_tokens (db : UsageTables) (clientId : ClientId) :
    (summaryEntry db clientId).usageRecordTokensTotal =
      clientSum UsageRecord.promptTokens clientId db + clientSum UsageRecord.completionTokens clientId db := by
  unfold summaryEntry usageRow
  by_cases h : (db.usageRecords.keys.any fun k => k.clientId = clientId) = true
  · simp only [h, if_true]
  · simp only [h, if_false, Bool.false_eq_true, clientSum_of_no_row h, add_zero]

/-- The prompt and completion tokens of some calls. -/
def tokensOf (calls : List (ℤ × ℤ)) : ℤ := (calls.map fun call => call.1 + call.2).sum

/-- The summary counts each call twice: on the row of its day and on the row of its month. -/
theorem usage_summary_counts_twice (ops : List UsageOperation) (clientId : ClientId) :
    summaryEntry (ops.foldl UsageOperation.apply .empty) clientId =
      { clientId := clientId
        usageRecordRequestsTotal := 2 * (callsSinceReset clientId ops).length
        usageRecordTokensTotal := 2 * tokensOf (callsSinceReset clientId ops) } := by
  have hrequests : (summaryEntry (ops.foldl UsageOperation.apply .empty) clientId).usageRecordRequestsTotal =
      2 * (callsSinceReset clientId ops).length := by
    rw [summaryEntry_requests, clientSum_eq, booked_requestCount.periodSum_run, booked_requestCount.periodSum_run]
    simp
    omega
  have htokens : (summaryEntry (ops.foldl UsageOperation.apply .empty) clientId).usageRecordTokensTotal =
      2 * tokensOf (callsSinceReset clientId ops) := by
    have hsplit : tokensOf (callsSinceReset clientId ops) = ((callsSinceReset clientId ops).map Prod.fst).sum +
        ((callsSinceReset clientId ops).map Prod.snd).sum := List.sum_map_add
    rw [summaryEntry_tokens, clientSum_eq, clientSum_eq, booked_promptTokens.periodSum_run,
      booked_promptTokens.periodSum_run, booked_completionTokens.periodSum_run,
      booked_completionTokens.periodSum_run, hsplit]
    omega
  rw [← hrequests, ← htokens]
  rfl

/-- **The summary counts each request once just for clients without a request since their last reset**, whatever
operations are run one after another. -/
theorem usage_summary_counts_once_iff (ops : List UsageOperation) (clients : List ClientId) :
    (∀ entry ∈ getUsageSummary clients (ops.foldl UsageOperation.apply .empty),
      entry.usageRecordRequestsTotal = (callsSinceReset entry.clientId ops).length ∧
        entry.usageRecordTokensTotal = tokensOf (callsSinceReset entry.clientId ops)) ↔
      ∀ clientId ∈ clients, callsSinceReset clientId ops = [] := by
  simp only [getUsageSummary, List.mem_map, forall_exists_index, and_imp, forall_apply_eq_imp_iff₂,
    usage_summary_counts_twice]
  apply forall₂_congr
  intro clientId _
  constructor
  · rintro ⟨hrequests, -⟩
    apply List.eq_nil_of_length_eq_zero
    omega
  · intro hnil
    simp [hnil, tokensOf]

/-- One request is reported as two. -/
theorem usage_summary_doubles : ¬ ∀ (ops : List UsageOperation) (clients : List ClientId),
    ∀ entry ∈ getUsageSummary clients (ops.foldl UsageOperation.apply .empty),
      entry.usageRecordRequestsTotal = (callsSinceReset entry.clientId ops).length ∧
        entry.usageRecordTokensTotal = tokensOf (callsSinceReset entry.clientId ops) := by
  intro h
  have hone := (h [.recordUsage 1 { year := 2026, month := 5, day := 2 } 10 5] [1] _ (List.mem_singleton.mpr rfl)).1
  rw [usage_summary_counts_twice] at hone
  revert hone
  decide

end LlmStore.Usage
