import Mathlib.Algebra.Group.Prod
import LlmStore.Inference.Handlers

/-!
# The accounts of a client

The rows of the audit log with a status of success and the daily quota counters keep the same account of a client:
`Balanced`. Inside a transaction the log may lag behind the counters; `gap` says how far, and what a change of either
ledger does to it.
-/

namespace LlmStore.Inference

open LlmStore.Calendar LlmStore.Lib LlmStore.Usage

/-! ## The two accounts -/

variable (c : ClientId)

/-- The client's rows of the audit log with a status in 200..299. -/
def answeredRows (rows : List RequestLog) : List RequestLog :=
  rows.filter fun row => row.clientId = c ∧ isSuccess row.httpStatus

def loggedTokens (rows : List RequestLog) : ℤ :=
  ((answeredRows c rows).map fun row => row.promptTokensEstimated + row.completionTokensEstimated).sum

def loggedRequests (rows : List RequestLog) : ℤ := (answeredRows c rows).length

/-- The sum of a column over the client's daily counters. -/
def dailyTotal (column : QuotaCounter → ℤ) (usage : UsageTables) : ℤ :=
  Table.total (fun k counter => if k.clientId = c ∧ k.periodType = .daily then column counter else 0)
    usage.quotaCounters

def bookedTokens (usage : UsageTables) : ℤ := dailyTotal c (·.usedTokens) usage

def bookedRequests (usage : UsageTables) : ℤ := dailyTotal c (·.usedRequests) usage

/-- The two ledgers agree about the client. -/
structure Balanced (db : Database) : Prop where
  tokens : loggedTokens c db.requestLogs = bookedTokens c db.usage
  requests : loggedRequests c db.requestLogs = bookedRequests c db.usage

/-- What the log is ahead of the counters: tokens and requests. -/
def gap (db : Database) : ℤ × ℤ :=
  (loggedTokens c db.requestLogs - bookedTokens c db.usage,
    loggedRequests c db.requestLogs - bookedRequests c db.usage)

theorem balanced_iff (db : Database) : Balanced c db ↔ gap c db = 0 := by
  constructor
  · intro ⟨ht, hr⟩
    rw [gap, ht, hr, sub_self, sub_self]
    rfl
  · intro h
    exact ⟨sub_eq_zero.mp (congrArg Prod.fst h), sub_eq_zero.mp (congrArg Prod.snd h)⟩

/-! ## The counters -/

variable {c}
variable {column : QuotaCounter → ℤ}

theorem dailyTotal_insert (hz : column {} = 0) (db : UsageTables) (k : PeriodKey) (v : QuotaCounter) :
    dailyTotal c column { db with quotaCounters := db.quotaCounters.insert k v } =
      dailyTotal c column db + if k.clientId = c ∧ k.periodType = .daily then column v - column (db.counter k) else 0 := by
  have h := Table.total_insert (fun k counter => if k.clientId = c ∧ k.periodType = .daily then column counter else 0)
    db.quotaCounters k v
  have hpart : Table.part (fun (k : PeriodKey) counter =>
      if k.clientId = c ∧ k.periodType = .daily then column counter else 0) db.quotaCounters k =
      if k.clientId = c ∧ k.periodType = .daily then column (db.counter k) else 0 := by
    unfold Table.part UsageTables.counter Table.getD
    cases db.quotaCounters.lookup k with
    | none => simp [hz]
    | some v => rfl
  rw [hpart] at h
  unfold dailyTotal
  simp only at h ⊢
  split_ifs at h ⊢ <;> omega

theorem dailyTotal_getOrCreateCounter (hz : column {} = 0) (db : UsageTables) (k : PeriodKey) :
    dailyTotal c column (getOrCreateCounter db k).2 = dailyTotal c column db := by
  unfold getOrCreateCounter
  cases h : db.quotaCounters.lookup k with
  | some v => rfl
  | none =>
    have hk : db.counter k = {} := by simp [UsageTables.counter, Table.getD, h]
    simp only
    rw [dailyTotal_insert hz, hk, sub_self, ite_self, add_zero]

/-- Admission books nothing. -/
theorem dailyTotal_ensureQuota (hz : column {} = 0) (db : UsageTables) (clientId : ClientId) (today : Date)
    (dl ml n : ℤ) : dailyTotal c column (Usage.ensureQuota db clientId today dl ml n).2 = dailyTotal c column db := by
  simp only [Usage.ensureQuota]
  split_ifs <;> simp only [dailyTotal_getOrCreateCounter hz]

theorem dailyTotal_recordPeriod (hz : column {} = 0) (db : UsageTables) (k : PeriodKey) (p q : ℤ) :
    dailyTotal c column (recordPeriod db k p q) = dailyTotal c column db +
      if k.clientId = c ∧ k.periodType = .daily then column ((db.counter k).book (p + q)) - column (db.counter k)
      else 0 := by
  have hq : dailyTotal c column (recordPeriod db k p q) = dailyTotal c column
      { (getOrCreateCounter db k).2 with
        quotaCounters := (getOrCreateCounter db k).2.quotaCounters.insert k ((db.counter k).book (p + q)) } := by
    simp only [recordPeriod, dailyTotal, getOrCreateUsageRecord_counters, getOrCreateCounter_fst]
  rw [hq, dailyTotal_insert hz, dailyTotal_getOrCreateCounter hz, getOrCreateCounter_counter]

/-- What a request adds to an account: its tokens and itself, if it is the client's own. -/
def share (own : Prop) [Decidable own] (tokens : ℤ) : ℤ × ℤ := if own then (tokens, 1) else 0

theorem gap_recordPeriod (db : Database) (k : PeriodKey) (p q : ℤ) :
    gap c { db with usage := recordPeriod db.usage k p q } =
      gap c db - share (k.clientId = c ∧ k.periodType = .daily) (p + q) := by
  unfold gap bookedTokens bookedRequests share
  rw [dailyTotal_recordPeriod rfl, dailyTotal_recordPeriod rfl]
  split_ifs <;> ext <;> simp [QuotaCounter.book] <;> omega

theorem gap_ensureQuota (db : Database) (clientId : ClientId) (today : Date) (dl ml n : ℤ) :
    gap c { db with usage := (Usage.ensureQuota db.usage clientId today dl ml n).2 } = gap c db := by
  unfold gap bookedTokens bookedRequests
  rw [dailyTotal_ensureQuota rfl, dailyTotal_ensureQuota rfl]

/-! ## The log -/

theorem answeredRows_append (rows : List RequestLog) (row : RequestLog) :
    answeredRows c (rows ++ [row]) =
      answeredRows c rows ++ if row.clientId = c ∧ isSuccess row.httpStatus then [row] else [] := by
  unfold answeredRows
  rw [List.filter_append]
  by_cases h : row.clientId = c ∧ isSuccess row.httpStatus = true
  · simp [h]
  · rw [if_neg h, List.filter_cons_of_neg (by simpa using h), List.filter_nil]

theorem gap_log (db : Database) (row : RequestLog) :
    gap c { db with requestLogs := db.requestLogs ++ [row] } = gap c db +
      share (row.clientId = c ∧ isSuccess row.httpStatus) (row.promptTokensEstimated + row.completionTokensEstimated) := by
  unfold gap loggedTokens loggedRequests share
  rw [answeredRows_append]
  split_ifs <;> ext <;> simp <;> ring

end LlmStore.Inference
