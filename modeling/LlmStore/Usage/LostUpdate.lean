import Mathlib.Data.Fintype.BigOperators
import LlmStore.Usage.Quota
import LlmStore.Lib.ReadModifyWrite

/-!
# Concurrent transactions that record usage

Transactions of one client on one day meet in four rows: the day's and the month's `QuotaCounter` and `UsageRecord`.
Each selects them without a row lock, adds its tokens in Python and writes the sums at its commit, so it is a
read-modify-write transaction (`program`). Its rows are in its session from the first select on, which in
`chat_completions` and `portal_test_chat` is the usage snapshot taken before the backend is called.

A row that the session has changed and flushed stays locked until the commit. The lock makes the later of two such
transactions wait, but it does not make it select the row again, so it only excludes some of the interleavings here.

The counters keep every update exactly if each commit finds both counters as its session has loaded them
(`usageKept_iff`). The order of the selects is that of the source: alone, a transaction does what `recordUsage` does
(`solo_recordUsage`).
-/

namespace LlmStore.Usage

open LlmStore.Calendar LlmStore.Lib LlmStore.Lib.ReadModifyWrite

/-- The four rows of a client's day. -/
inductive Row where
  | counter (p : PeriodType)
  | record (p : PeriodType)
  deriving DecidableEq

abbrev RowValue : Row → Type
  | .counter _ => QuotaCounter
  | .record _ => UsageRecord

/-- The handlers that call `record_usage`. -/
inductive Handler where
  | chatCompletions
  | completions
  | portalTestChat
  | processGenerationJob
  deriving DecidableEq

/-- The rows a handler holds in its session when it calls `record_usage`: those of its `usage_snapshot`. -/
def Handler.snapshot : Handler → List Row
  | .chatCompletions | .completions | .portalTestChat => [.counter .daily, .counter .monthly]
  | .processGenerationJob => []

/-- The selects of `record_usage`. -/
def recordUsageReads : List Row := [.counter .daily, .record .daily, .counter .monthly, .record .monthly]

structure Transaction where
  handler : Handler
  promptTokens : ℤ
  completionTokens : ℤ

def Transaction.total (x : Transaction) : ℤ := x.promptTokens + x.completionTokens

/-- The value a transaction writes for a row. -/
def Transaction.book (x : Transaction) : (r : Row) → RowValue r → RowValue r
  | .counter _, c => c.book (x.promptTokens + x.completionTokens)
  | .record _, u => u.book x.promptTokens x.completionTokens

def Transaction.program (x : Transaction) : Program Row RowValue :=
  { reads := x.handler.snapshot ++ recordUsageReads, upd := x.book }

theorem mem_reads (x : Transaction) (r : Row) : r ∈ x.program.reads := by
  refine List.mem_append_right _ ?_
  rcases r with p | p <;> cases p <;> simp [recordUsageReads]

/-- The rows of a client's day in the tables. -/
def dayRows (db : UsageTables) (clientId : ClientId) (today : Date) : (r : Row) → RowValue r
  | .counter p => db.counter (periodKey clientId today p)
  | .record p => db.record (periodKey clientId today p)

section Concurrent

variable {τ : Type*} [DecidableEq τ] (tx : τ → Transaction)

abbrev usageStep : State τ RowValue → Action τ → Option (State τ RowValue) := step fun t => (tx t).program

abbrev usageInit (store : (r : Row) → RowValue r) : State τ RowValue := init (fun t => (tx t).program) store

/-- Alone, a transaction books what `recordUsage` books. -/
theorem solo_recordUsage (db : UsageTables) (clientId : ClientId) (today : Date) (t : τ) :
    ∃ s', run (usageStep tx) (usageInit tx (dayRows db clientId today)) (solo t (tx t).program.reads) = some s' ∧
      s'.store = dayRows (recordUsage db clientId today (tx t).promptTokens (tx t).completionTokens) clientId today := by
  obtain ⟨s', hrun, hs⟩ := run_solo (fun t => (tx t).program) (dayRows db clientId today) t
  refine ⟨s', hrun, funext fun r => ?_⟩
  rw [hs r, if_pos (mem_reads (tx t) r)]
  cases r with
  | counter p => exact (recordUsage_counter db clientId today _ _ p).symm
  | record p => exact (recordUsage_record db clientId today _ _ p).symm

/-- Both counters have grown by the tokens and by the number of all transactions. -/
def UsageKept [Fintype τ] (before after : (r : Row) → RowValue r) : Prop :=
  ∀ p : PeriodType,
    QuotaCounter.usedTokens (after (.counter p)) =
        QuotaCounter.usedTokens (before (.counter p)) + ∑ t, (tx t).total ∧
      QuotaCounter.usedRequests (after (.counter p)) =
        QuotaCounter.usedRequests (before (.counter p)) + Fintype.card τ

/-- A commit finds the two counters as its session has loaded them. -/
def CountersFresh (s : State τ RowValue) (a : Action τ) : Prop := ∀ p, Fresh (.counter p) s a

variable {tx}

/-- On a run that is fresh for one counter its tokens and requests add up. -/
theorem counter_of_fresh [Fintype τ] {store : (r : Row) → RowValue r} {acts : List (Action τ)}
    {s' : State τ RowValue} (h : run (usageStep tx) (usageInit tx store) acts = some s')
    (hall : ∀ t, (s'.session t).done = true) {p : PeriodType}
    (hf : Along (usageStep tx) (Fresh (.counter p)) (usageInit tx store) acts) :
    QuotaCounter.usedTokens (s'.store (.counter p)) =
        QuotaCounter.usedTokens (store (.counter p)) + ∑ t, (tx t).total ∧
      QuotaCounter.usedRequests (s'.store (.counter p)) =
        QuotaCounter.usedRequests (store (.counter p)) + Fintype.card τ := by
  have hcov := covers_init (fun t => (tx t).program) store fun t => mem_reads (tx t) (.counter p)
  have hserial := run_fresh hcov h hf
  have hperm := commits_perm h hall
  constructor
  · have hsum := foldl_add (fun t => (tx t).program) (r := Row.counter p) QuotaCounter.usedTokens
      (fun t => (tx t).total) (fun _ _ => rfl) (commits acts) (store (.counter p))
    rw [(hperm.map _).sum_eq, Finset.sum_map_toList] at hsum
    rw [hserial]
    exact hsum
  · have hcount := foldl_add (fun t => (tx t).program) (r := Row.counter p) QuotaCounter.usedRequests
      (fun _ => 1) (fun _ _ => rfl) (commits acts) (store (.counter p))
    rw [(hperm.map _).sum_eq, Finset.sum_map_toList] at hcount
    rw [hserial]
    exact hcount.trans (by simp)

/-- The request count of a counter is right only on a run that is fresh for it. -/
theorem fresh_of_requests [Fintype τ] {store : (r : Row) → RowValue r} {acts : List (Action τ)}
    {s' : State τ RowValue} (h : run (usageStep tx) (usageInit tx store) acts = some s')
    (hall : ∀ t, (s'.session t).done = true) {p : PeriodType}
    (he : QuotaCounter.usedRequests (s'.store (.counter p)) =
      QuotaCounter.usedRequests (store (.counter p)) + Fintype.card τ) :
    Along (usageStep tx) (Fresh (.counter p)) (usageInit tx store) acts := by
  refine (fresh_iff (r := Row.counter p) (m := QuotaCounter.usedRequests) (fun _ _ => rfl)
    (fun t => mem_reads (tx t) _) h).mp ?_
  rw [he, (commits_perm h hall).length_eq]
  simp

/-- **Usage is kept exactly if no transaction commits over a counter that has changed since it was loaded.** -/
theorem usageKept_iff [Fintype τ] (tx : τ → Transaction) (store : (r : Row) → RowValue r) (acts : List (Action τ))
    (s' : State τ RowValue) (h : run (usageStep tx) (usageInit tx store) acts = some s')
    (hall : ∀ t, (s'.session t).done = true) :
    UsageKept tx store s'.store ↔ Along (usageStep tx) CountersFresh (usageInit tx store) acts := by
  constructor
  · intro hk
    have hd := fresh_of_requests h hall (hk .daily).2
    have hm := fresh_of_requests h hall (hk .monthly).2
    refine (along_and.mpr ⟨hd, hm⟩).mono fun s a hs p => ?_
    cases p
    · exact hs.1
    · exact hs.2
  · intro hf p
    exact counter_of_fresh h hall (hf.mono fun s a hs => hs p)

end Concurrent

/-! ## Two chat requests at once -/

/-- Two chat requests of five prompt and seven completion tokens each. -/
def twoChats : Fin 2 → Transaction := fun _ => ⟨.chatCompletions, 5, 7⟩

/-- The second request takes its usage snapshot, waits for its backend while the first one is handled from beginning
to end, and then records its own usage. -/
def overlapping : List (Action (Fin 2)) :=
  List.replicate 2 (.select 1) ++ List.replicate 6 (.select 0) ++ .commit 0 ::
    List.replicate 4 (.select 1) ++ [.commit 1]

/-- One after the other. -/
def oneAfterTheOther : List (Action (Fin 2)) :=
  List.replicate 6 (.select 0) ++ .commit 0 :: List.replicate 6 (.select 1) ++ [.commit 1]

def emptyDay : (r : Row) → RowValue r
  | .counter _ => {}
  | .record _ => {}

/-- Two overlapping requests leave the counters at the usage of one of them. -/
theorem usage_lost : ∃ s', run (usageStep twoChats) (usageInit twoChats emptyDay) overlapping = some s' ∧
    (∀ t, (s'.session t).done = true) ∧ ¬ UsageKept twoChats emptyDay s'.store := by
  refine ⟨_, rfl, by decide, fun h => ?_⟩
  exact absurd (h .daily).2 (by decide)

theorem usageKept_one_after_the_other :
    ∃ s', run (usageStep twoChats) (usageInit twoChats emptyDay) oneAfterTheOther = some s' ∧
      (UsageKept twoChats emptyDay s'.store ↔
        Along (usageStep twoChats) CountersFresh (usageInit twoChats emptyDay) oneAfterTheOther) :=
  ⟨_, rfl, usageKept_iff twoChats emptyDay oneAfterTheOther _ rfl (by decide)⟩

end LlmStore.Usage
