import LlmStore.Core.Calendar
import LlmStore.Lib.Table

/-!
# Quota counters and usage records

`services/quota.py` keeps two ledgers of a client's usage: `quota_counters`, against which requests are admitted, and
`usage_records`. Each has one row per client, period type and first day of the period (the unique constraints of the
initial migration), made when it is first needed. `ensureQuota` admits a request, `recordUsage` books it.
-/

namespace LlmStore.Usage

open LlmStore.Calendar LlmStore.Lib

abbrev ClientId := ℕ

inductive PeriodType where
  | daily
  | monthly
  deriving DecidableEq, Repr

/-- The unique key of both ledgers. -/
structure PeriodKey where
  clientId : ClientId
  periodStart : Date
  periodType : PeriodType
  deriving DecidableEq

structure QuotaCounter where
  usedTokens : ℤ := 0
  usedRequests : ℤ := 0
  deriving DecidableEq

structure UsageRecord where
  requestCount : ℤ := 0
  promptTokens : ℤ := 0
  completionTokens : ℤ := 0
  deriving DecidableEq

structure UsageTables where
  quotaCounters : Table PeriodKey QuotaCounter
  usageRecords : Table PeriodKey UsageRecord

inductive QuotaExceeded where
  | daily
  | monthly
  deriving DecidableEq

/-- `str(exc)`. -/
def QuotaExceeded.message : QuotaExceeded → String
  | .daily => "daily token quota exceeded"
  | .monthly => "monthly token quota exceeded"

def monthStart (today : Date) : Date := today.firstDay

/-- The key of the day's counter or of its month's. -/
def periodKey (clientId : ClientId) (today : Date) : PeriodType → PeriodKey
  | .daily => ⟨clientId, today, .daily⟩
  | .monthly => ⟨clientId, monthStart today, .monthly⟩

def getOrCreateCounter (db : UsageTables) (k : PeriodKey) : QuotaCounter × UsageTables :=
  match db.quotaCounters.lookup k with
  | some counter => (counter, db)
  | none => ({}, { db with quotaCounters := db.quotaCounters.insert k {} })

def getOrCreateUsageRecord (db : UsageTables) (k : PeriodKey) : UsageRecord × UsageTables :=
  match db.usageRecords.lookup k with
  | some record => (record, db)
  | none => ({}, { db with usageRecords := db.usageRecords.insert k {} })

/-- Both counters are made even for a request that is then refused. -/
def ensureQuota (db : UsageTables) (clientId : ClientId) (today : Date) (dailyLimit monthlyLimit incomingTokens : ℤ) :
    Except QuotaExceeded Unit × UsageTables :=
  let (daily, db) := getOrCreateCounter db (periodKey clientId today .daily)
  let (monthly, db) := getOrCreateCounter db (periodKey clientId today .monthly)
  if daily.usedTokens + incomingTokens > dailyLimit then (.error .daily, db)
  else if monthly.usedTokens + incomingTokens > monthlyLimit then (.error .monthly, db)
  else (.ok (), db)

/-- `counter.used_tokens += total; counter.used_requests += 1`. -/
def QuotaCounter.book (c : QuotaCounter) (total : ℤ) : QuotaCounter :=
  { usedTokens := c.usedTokens + total, usedRequests := c.usedRequests + 1 }

/-- The three `+=` on the usage record. -/
def UsageRecord.book (r : UsageRecord) (promptTokens completionTokens : ℤ) : UsageRecord :=
  { requestCount := r.requestCount + 1
    promptTokens := r.promptTokens + promptTokens
    completionTokens := r.completionTokens + completionTokens }

/-- The body of the loop of `record_usage`, for the rows of key `k`. -/
def recordPeriod (db : UsageTables) (k : PeriodKey) (promptTokens completionTokens : ℤ) : UsageTables :=
  let (counter, db) := getOrCreateCounter db k
  let db := { db with quotaCounters := db.quotaCounters.insert k (counter.book (promptTokens + completionTokens)) }
  let (record, db) := getOrCreateUsageRecord db k
  { db with usageRecords := db.usageRecords.insert k (record.book promptTokens completionTokens) }

def recordUsage (db : UsageTables) (clientId : ClientId) (today : Date) (promptTokens completionTokens : ℤ) :
    UsageTables :=
  let db := recordPeriod db (periodKey clientId today .daily) promptTokens completionTokens
  recordPeriod db (periodKey clientId today .monthly) promptTokens completionTokens

/-! ## Rows after the operations -/

/-- The counter of a key; an absent row counts as zero. -/
def UsageTables.counter (db : UsageTables) (k : PeriodKey) : QuotaCounter := db.quotaCounters.getD k {}

def UsageTables.record (db : UsageTables) (k : PeriodKey) : UsageRecord := db.usageRecords.getD k {}

@[simp] theorem getOrCreateCounter_fst (db : UsageTables) (k : PeriodKey) :
    (getOrCreateCounter db k).1 = db.counter k := by
  unfold getOrCreateCounter UsageTables.counter Table.getD
  cases db.quotaCounters.lookup k <;> rfl

@[simp] theorem getOrCreateCounter_counter (db : UsageTables) (k k' : PeriodKey) :
    (getOrCreateCounter db k).2.counter k' = db.counter k' := by
  unfold getOrCreateCounter UsageTables.counter
  cases h : db.quotaCounters.lookup k with
  | some c => rfl
  | none =>
    by_cases hk : k' = k
    · subst hk; simp [Table.getD, h]
    · exact Table.getD_insert_ne hk _ _

@[simp] theorem getOrCreateCounter_records (db : UsageTables) (k : PeriodKey) :
    (getOrCreateCounter db k).2.usageRecords = db.usageRecords := by
  unfold getOrCreateCounter
  cases db.quotaCounters.lookup k <;> rfl

@[simp] theorem getOrCreateUsageRecord_fst (db : UsageTables) (k : PeriodKey) :
    (getOrCreateUsageRecord db k).1 = db.record k := by
  unfold getOrCreateUsageRecord UsageTables.record Table.getD
  cases db.usageRecords.lookup k <;> rfl

@[simp] theorem getOrCreateUsageRecord_counters (db : UsageTables) (k : PeriodKey) :
    (getOrCreateUsageRecord db k).2.quotaCounters = db.quotaCounters := by
  unfold getOrCreateUsageRecord
  cases db.usageRecords.lookup k <;> rfl

theorem getOrCreateUsageRecord_record (db : UsageTables) (k k' : PeriodKey) :
    (getOrCreateUsageRecord db k).2.record k' = db.record k' := by
  unfold getOrCreateUsageRecord UsageTables.record
  cases h : db.usageRecords.lookup k with
  | some c => rfl
  | none =>
    by_cases hk : k' = k
    · subst hk; simp [Table.getD, h]
    · exact Table.getD_insert_ne hk _ _

/-- Admission changes no counter. -/
theorem ensureQuota_counter (db : UsageTables) (clientId : ClientId) (today : Date) (dl ml n : ℤ) (k : PeriodKey) :
    (ensureQuota db clientId today dl ml n).2.counter k = db.counter k := by
  simp only [ensureQuota]
  split_ifs <;> simp

/-- A request is admitted just if both counters have room for it. -/
theorem ensureQuota_ok_iff {db : UsageTables} {clientId : ClientId} {today : Date} {dl ml n : ℤ} :
    (ensureQuota db clientId today dl ml n).1 = .ok () ↔
      (db.counter (periodKey clientId today .daily)).usedTokens + n ≤ dl ∧
        (db.counter (periodKey clientId today .monthly)).usedTokens + n ≤ ml := by
  simp only [ensureQuota, getOrCreateCounter_fst, getOrCreateCounter_counter]
  split_ifs with hd hm
  · exact iff_of_false (by simp) fun h => absurd h.1 (not_le.mpr hd)
  · exact iff_of_false (by simp) fun h => absurd h.2 (not_le.mpr hm)
  · exact iff_of_true rfl ⟨not_lt.mp hd, not_lt.mp hm⟩

theorem recordPeriod_counter (db : UsageTables) (k k' : PeriodKey) (p c : ℤ) :
    (recordPeriod db k p c).counter k' = if k' = k then (db.counter k).book (p + c) else db.counter k' := by
  have hframe := getOrCreateCounter_counter db k k'
  simp only [recordPeriod, UsageTables.counter, getOrCreateUsageRecord_counters, getOrCreateCounter_fst] at *
  by_cases hk : k' = k
  · subst hk; simp
  · rw [if_neg hk, Table.getD_insert_ne hk, hframe]

theorem recordPeriod_record (db : UsageTables) (k k' : PeriodKey) (p c : ℤ) :
    (recordPeriod db k p c).record k' = if k' = k then (db.record k).book p c else db.record k' := by
  let db₁ : UsageTables := { (getOrCreateCounter db k).2 with
    quotaCounters := (getOrCreateCounter db k).2.quotaCounters.insert k ((getOrCreateCounter db k).1.book (p + c)) }
  -- the counter's update touches no usage record
  have hrec : ∀ k'', db₁.record k'' = db.record k'' := fun k'' => by simp [db₁, UsageTables.record]
  show UsageTables.record { (getOrCreateUsageRecord db₁ k).2 with
    usageRecords := (getOrCreateUsageRecord db₁ k).2.usageRecords.insert k
      ((getOrCreateUsageRecord db₁ k).1.book p c) } k' = _
  rw [getOrCreateUsageRecord_fst, hrec]
  by_cases hk : k' = k
  · subst hk; simp [UsageTables.record]
  · rw [if_neg hk]
    exact (Table.getD_insert_ne hk _ _).trans ((getOrCreateUsageRecord_record db₁ k k').trans (hrec k'))

theorem periodKey_injective (clientId : ClientId) (today : Date) :
    Function.Injective (periodKey clientId today) := by
  intro p q h
  cases p <;> cases q <;> simp_all [periodKey]

/-- `record_usage` books the request on the counters of its day and month and on no other. -/
theorem recordUsage_counter_eq (db : UsageTables) (clientId : ClientId) (today : Date) (p c : ℤ) (k : PeriodKey) :
    (recordUsage db clientId today p c).counter k =
      if k = periodKey clientId today .daily ∨ k = periodKey clientId today .monthly then (db.counter k).book (p + c)
      else db.counter k := by
  have hne : periodKey clientId today .daily ≠ periodKey clientId today .monthly :=
    fun h => by cases periodKey_injective clientId today h
  simp only [recordUsage, recordPeriod_counter]
  by_cases hd : k = periodKey clientId today .daily
  · subst hd
    simp [hne]
  · by_cases hm : k = periodKey clientId today .monthly
    · subst hm
      simp [hne.symm]
    · simp [hd, hm]

theorem recordUsage_record_eq (db : UsageTables) (clientId : ClientId) (today : Date) (p c : ℤ) (k : PeriodKey) :
    (recordUsage db clientId today p c).record k =
      if k = periodKey clientId today .daily ∨ k = periodKey clientId today .monthly then (db.record k).book p c
      else db.record k := by
  have hne : periodKey clientId today .daily ≠ periodKey clientId today .monthly :=
    fun h => by cases periodKey_injective clientId today h
  simp only [recordUsage, recordPeriod_record]
  by_cases hd : k = periodKey clientId today .daily
  · subst hd
    simp [hne]
  · by_cases hm : k = periodKey clientId today .monthly
    · subst hm
      simp [hne.symm]
    · simp [hd, hm]

theorem recordUsage_counter (db : UsageTables) (clientId : ClientId) (today : Date) (p c : ℤ) (pt : PeriodType) :
    (recordUsage db clientId today p c).counter (periodKey clientId today pt) =
      (db.counter (periodKey clientId today pt)).book (p + c) := by
  rw [recordUsage_counter_eq]
  cases pt <;> simp

theorem recordUsage_record (db : UsageTables) (clientId : ClientId) (today : Date) (p c : ℤ) (pt : PeriodType) :
    (recordUsage db clientId today p c).record (periodKey clientId today pt) =
      (db.record (periodKey clientId today pt)).book p c := by
  rw [recordUsage_record_eq]
  cases pt <;> simp

end LlmStore.Usage
