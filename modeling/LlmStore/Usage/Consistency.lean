import LlmStore.Core.Http
import LlmStore.Usage.Quota

/-!
# The ledgers agree

A month's counter is the sum of the counters of its days, and every counter says what the usage record of its key says.
Rows are made when they are first needed, so a row that is not there counts as zero throughout. Booking changes one day
and its month by the same amount, admission makes rows of zeros, and a reset deletes all rows of a client, so the
agreement holds in every reachable state (`ledgers_consistent`).
-/

namespace LlmStore.Usage

open LlmStore.Calendar LlmStore.Lib

/-! ## Resetting -/

/-- `delete(QuotaCounter)` and `delete(UsageRecord)` for a client. -/
def UsageTables.deleteRows (db : UsageTables) (clientId : ClientId) : UsageTables where
  quotaCounters := db.quotaCounters.deleteWhere fun k => k.clientId = clientId
  usageRecords := db.usageRecords.deleteWhere fun k => k.clientId = clientId

/-- `reset_client_usage`; `known` says that the client exists. -/
def resetClientUsage (testToolsEnabled publicExposure known : Bool) (clientId : ClientId) (db : UsageTables) :
    Except HTTPException UsageTables :=
  if !testToolsEnabled || publicExposure then .error ⟨403, "test tools disabled"⟩
  else if !known then .error ⟨404, "client not found"⟩
  else .ok (db.deleteRows clientId)

/-- An operation, run alone and committed. -/
inductive UsageOperation where
  | ensureQuota (clientId : ClientId) (today : Date) (dailyLimit monthlyLimit incomingTokens : ℤ)
  | recordUsage (clientId : ClientId) (today : Date) (promptTokens completionTokens : ℤ)
  | resetClientUsage (testToolsEnabled publicExposure known : Bool) (clientId : ClientId)

/-- The tables after an operation; a refused reset leaves them as they are. -/
def UsageOperation.apply (db : UsageTables) : UsageOperation → UsageTables
  | .ensureQuota clientId today dailyLimit monthlyLimit incomingTokens =>
    (Usage.ensureQuota db clientId today dailyLimit monthlyLimit incomingTokens).2
  | .recordUsage clientId today promptTokens completionTokens =>
    Usage.recordUsage db clientId today promptTokens completionTokens
  | .resetClientUsage testToolsEnabled publicExposure known clientId =>
    match Usage.resetClientUsage testToolsEnabled publicExposure known clientId db with
    | .ok db' => db'
    | .error _ => db

/-! ## Agreement -/

/-- Sums a column over the daily counters of a client on the days of the month of `m`. -/
def overDays (column : QuotaCounter → ℤ) (clientId : ClientId) (m : Date) (db : UsageTables) : ℤ :=
  Table.total (fun k row =>
    if k.clientId = clientId ∧ k.periodType = .daily ∧ monthStart k.periodStart = monthStart m then column row else 0)
    db.quotaCounters

/-- The four ledgers agree; an absent row counts as zero. -/
structure Consistent (db : UsageTables) : Prop where
  tokens : ∀ clientId m, (db.counter (periodKey clientId m .monthly)).usedTokens =
    overDays QuotaCounter.usedTokens clientId m db
  requests : ∀ clientId m, (db.counter (periodKey clientId m .monthly)).usedRequests =
    overDays QuotaCounter.usedRequests clientId m db
  recordTokens : ∀ k, (db.counter k).usedTokens = (db.record k).promptTokens + (db.record k).completionTokens
  recordRequests : ∀ k, (db.counter k).usedRequests = (db.record k).requestCount

/-! ## Sums over the counters -/

section Sums

variable {db : UsageTables}

/-- Making a row of zeros adds nothing to a sum. -/
theorem total_getOrCreateCounter {f : PeriodKey → QuotaCounter → ℤ} (hf : ∀ k, f k {} = 0) (db : UsageTables)
    (k : PeriodKey) : Table.total f (getOrCreateCounter db k).2.quotaCounters = Table.total f db.quotaCounters := by
  unfold getOrCreateCounter
  cases hk : db.quotaCounters.lookup k with
  | some counter => rfl
  | none =>
    have h := Table.total_insert f db.quotaCounters k {}
    rw [hf, add_zero, Table.part, hk] at h
    simpa using h

/-- Booking on one key changes a sum by the part of that key. -/
theorem total_recordPeriod {f : PeriodKey → QuotaCounter → ℤ} (hf : ∀ k, f k {} = 0) (db : UsageTables)
    (k : PeriodKey) (p c : ℤ) :
    Table.total f (recordPeriod db k p c).quotaCounters + f k (db.counter k) =
      Table.total f db.quotaCounters + f k ((db.counter k).book (p + c)) := by
  have hold : f k (db.counter k) = Table.part f (getOrCreateCounter db k).2.quotaCounters k := by
    rw [Table.part_eq_getD _ (hf k)]
    exact congrArg (f k) (getOrCreateCounter_counter db k k).symm
  rw [← total_getOrCreateCounter hf db k, hold]
  simp only [recordPeriod, getOrCreateUsageRecord_counters, getOrCreateCounter_fst]
  exact Table.total_insert f _ k _

theorem overDays_recordPeriod {column : QuotaCounter → ℤ} (h0 : column {} = 0) (db : UsageTables) (clientId : ClientId)
    (m : Date) (k : PeriodKey) (p c : ℤ) :
    overDays column clientId m (recordPeriod db k p c) =
      overDays column clientId m db +
        if k.clientId = clientId ∧ k.periodType = .daily ∧ monthStart k.periodStart = monthStart m then
          column ((db.counter k).book (p + c)) - column (db.counter k) else 0 := by
  have h := total_recordPeriod (f := fun k row => if k.clientId = clientId ∧ k.periodType = .daily ∧
    monthStart k.periodStart = monthStart m then column row else 0) (fun k => by simp [h0]) db k p c
  unfold overDays
  split_ifs at h ⊢ <;> omega

/-- A request is booked on its day, which counts for its month only. -/
theorem overDays_recordUsage {column : QuotaCounter → ℤ} (h0 : column {} = 0) (db : UsageTables)
    (clientId clientId' : ClientId) (today m : Date) (p c : ℤ) :
    overDays column clientId' m (recordUsage db clientId today p c) =
      overDays column clientId' m db +
        if clientId = clientId' ∧ monthStart today = monthStart m then
          column ((db.counter (periodKey clientId today .daily)).book (p + c)) -
            column (db.counter (periodKey clientId today .daily)) else 0 := by
  unfold recordUsage
  rw [overDays_recordPeriod h0, overDays_recordPeriod h0]
  simp [periodKey]

theorem overDays_ensureQuota {column : QuotaCounter → ℤ} (h0 : column {} = 0) (db : UsageTables)
    (clientId clientId' : ClientId) (today m : Date) (dl ml n : ℤ) :
    overDays column clientId' m (ensureQuota db clientId today dl ml n).2 = overDays column clientId' m db := by
  have hf : ∀ k : PeriodKey, (if k.clientId = clientId' ∧ k.periodType = .daily ∧
      monthStart k.periodStart = monthStart m then column {} else 0) = 0 := fun k => by simp [h0]
  have htables : (ensureQuota db clientId today dl ml n).2.quotaCounters =
      (getOrCreateCounter (getOrCreateCounter db (periodKey clientId today .daily)).2
        (periodKey clientId today .monthly)).2.quotaCounters := by
    simp only [ensureQuota]
    split_ifs <;> rfl
  unfold overDays
  rw [htables, total_getOrCreateCounter hf, total_getOrCreateCounter hf]

/-- After a reset the client's days sum up to nothing, and those of other clients to what they did. -/
theorem overDays_deleteRows (column : QuotaCounter → ℤ) (clientId clientId' : ClientId) (m : Date) :
    overDays column clientId' m (db.deleteRows clientId) =
      if clientId' = clientId then 0 else overDays column clientId' m db := by
  unfold overDays UsageTables.deleteRows
  rw [Table.total_deleteWhere]
  split_ifs with hc
  · subst hc
    unfold Table.total
    refine List.sum_eq_zero fun x hx => ?_
    obtain ⟨e, -, rfl⟩ := List.mem_map.mp hx
    by_cases he : e.1.clientId = clientId' <;> simp [he]
  · congr 1
    funext k row
    by_cases hk : k.clientId = clientId
    · have hk' : ¬ clientId = clientId' := fun h => hc h.symm
      simp [hk, hk']
    · simp [hk]

theorem counter_deleteRows (db : UsageTables) (clientId : ClientId) (k : PeriodKey) :
    (db.deleteRows clientId).counter k = if k.clientId = clientId then {} else db.counter k := by
  simp only [UsageTables.counter, UsageTables.deleteRows, Table.getD, Table.lookup_deleteWhere, decide_eq_true_eq]
  split_ifs <;> rfl

theorem record_deleteRows (db : UsageTables) (clientId : ClientId) (k : PeriodKey) :
    (db.deleteRows clientId).record k = if k.clientId = clientId then {} else db.record k := by
  simp only [UsageTables.record, UsageTables.deleteRows, Table.getD, Table.lookup_deleteWhere, decide_eq_true_eq]
  split_ifs <;> rfl

end Sums

/-! ## Operations -/

section Operations

variable {db : UsageTables}

theorem periodKey_monthly_iff {c c' : ClientId} {today m : Date} :
    periodKey c' m .monthly = periodKey c today .daily ∨ periodKey c' m .monthly = periodKey c today .monthly ↔
      c = c' ∧ monthStart today = monthStart m := by
  simp only [periodKey, PeriodKey.mk.injEq, reduceCtorEq, and_false, false_or, and_true]
  exact and_congr eq_comm eq_comm

theorem Consistent.recordUsage (h : Consistent db) (clientId : ClientId) (today : Date) (p c : ℤ) :
    Consistent (Usage.recordUsage db clientId today p c) where
  tokens clientId' m := by
    rw [overDays_recordUsage rfl, ← h.tokens clientId' m, recordUsage_counter_eq]
    simp only [periodKey_monthly_iff]
    split_ifs
    · simp only [QuotaCounter.book]
      omega
    · omega
  requests clientId' m := by
    rw [overDays_recordUsage rfl, ← h.requests clientId' m, recordUsage_counter_eq]
    simp only [periodKey_monthly_iff]
    split_ifs
    · simp only [QuotaCounter.book]
      omega
    · omega
  recordTokens k := by
    have hk := h.recordTokens k
    rw [recordUsage_counter_eq, recordUsage_record_eq]
    split_ifs
    · simp only [QuotaCounter.book, UsageRecord.book]
      omega
    · exact hk
  recordRequests k := by
    have hk := h.recordRequests k
    rw [recordUsage_counter_eq, recordUsage_record_eq]
    split_ifs
    · simp only [QuotaCounter.book, UsageRecord.book]
      omega
    · exact hk

theorem ensureQuota_records (db : UsageTables) (clientId : ClientId) (today : Date) (dl ml n : ℤ) :
    (ensureQuota db clientId today dl ml n).2.usageRecords = db.usageRecords := by
  simp only [ensureQuota]
  split_ifs <;> simp

theorem Consistent.ensureQuota (h : Consistent db) (clientId : ClientId) (today : Date) (dl ml n : ℤ) :
    Consistent (Usage.ensureQuota db clientId today dl ml n).2 := by
  have hrecord : ∀ k, (Usage.ensureQuota db clientId today dl ml n).2.record k = db.record k := by
    intro k
    rw [UsageTables.record, ensureQuota_records, UsageTables.record]
  constructor
  · intro clientId' m
    rw [ensureQuota_counter, overDays_ensureQuota rfl, h.tokens clientId' m]
  · intro clientId' m
    rw [ensureQuota_counter, overDays_ensureQuota rfl, h.requests clientId' m]
  · intro k
    rw [ensureQuota_counter, hrecord, h.recordTokens k]
  · intro k
    rw [ensureQuota_counter, hrecord, h.recordRequests k]

theorem Consistent.resetClientUsage (h : Consistent db) (testToolsEnabled publicExposure known : Bool)
    (clientId : ClientId) :
    Consistent (UsageOperation.apply db (.resetClientUsage testToolsEnabled publicExposure known clientId)) := by
  simp only [UsageOperation.apply, Usage.resetClientUsage]
  split_ifs
  · exact h
  · exact h
  · constructor
    · intro clientId' m
      rw [overDays_deleteRows, counter_deleteRows, ← h.tokens clientId' m, periodKey]
      split_ifs <;> rfl
    · intro clientId' m
      rw [overDays_deleteRows, counter_deleteRows, ← h.requests clientId' m, periodKey]
      split_ifs <;> rfl
    · intro k
      rw [counter_deleteRows, record_deleteRows]
      split_ifs
      · rfl
      · exact h.recordTokens k
    · intro k
      rw [counter_deleteRows, record_deleteRows]
      split_ifs
      · rfl
      · exact h.recordRequests k

/-- Every operation keeps the ledgers in agreement. -/
theorem Consistent.apply (h : Consistent db) (op : UsageOperation) : Consistent (op.apply db) := by
  cases op with
  | ensureQuota clientId today dl ml n => exact h.ensureQuota clientId today dl ml n
  | recordUsage clientId today p c => exact h.recordUsage clientId today p c
  | resetClientUsage testTools exposed known clientId => exact h.resetClientUsage testTools exposed known clientId

end Operations

/-! ## Runs -/

/-- The empty tables of a new installation. -/
def UsageTables.empty : UsageTables := { quotaCounters := ∅, usageRecords := ∅ }

theorem consistent_empty : Consistent .empty :=
  ⟨fun _ _ => rfl, fun _ _ => rfl, fun _ => rfl, fun _ => rfl⟩

theorem Consistent.foldl : ∀ {ops : List UsageOperation} {db : UsageTables}, Consistent db →
    Consistent (ops.foldl UsageOperation.apply db)
  | [], _, h => h
  | op :: _, _, h => (h.apply op).foldl

/-- **The four ledgers agree in every reachable state**: whatever operations are run one after another, for any clients
and on any dates, each month's counter is the sum of its days' counters, and each counter says what its usage record
says. -/
theorem ledgers_consistent (ops : List UsageOperation) : Consistent (ops.foldl UsageOperation.apply .empty) :=
  consistent_empty.foldl

end LlmStore.Usage
