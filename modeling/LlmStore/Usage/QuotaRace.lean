import LlmStore.Usage.LostUpdate

/-!
# Admission under concurrency

`ensure_quota` selects the two counters of a client's day and compares them with the limits; the tokens of the request
are added after the whole generation, and nothing is reserved in between. So requests that overlap are admitted against
the same counters. What this costs is exact: the limits hold in all interleavings just if they leave room for all
requests together that would each be admitted alone (`limits_kept_iff`).
-/

namespace LlmStore.Usage

open LlmStore.Calendar LlmStore.Lib LlmStore.Lib.ReadModifyWrite

/-! ## Requests -/

/-- The comparisons of `ensure_quota`, for the values of the two counters. -/
def checkQuota (limits : PeriodType → ℤ) (incomingTokens daily monthly : ℤ) : Except QuotaExceeded Unit :=
  if daily + incomingTokens > limits .daily then .error .daily
  else if monthly + incomingTokens > limits .monthly then .error .monthly
  else .ok ()

theorem ensureQuota_check (db : UsageTables) (clientId : ClientId) (today : Date) (limits : PeriodType → ℤ) (n : ℤ) :
    (ensureQuota db clientId today (limits .daily) (limits .monthly) n).1 =
      checkQuota limits n (db.counter (periodKey clientId today .daily)).usedTokens
        (db.counter (periodKey clientId today .monthly)).usedTokens := by
  simp only [ensureQuota, checkQuota, getOrCreateCounter_fst, getOrCreateCounter_counter]
  split_ifs <;> rfl

theorem checkQuota_ok_iff {limits : PeriodType → ℤ} {n daily monthly : ℤ} :
    checkQuota limits n daily monthly = .ok () ↔ daily + n ≤ limits .daily ∧ monthly + n ≤ limits .monthly := by
  unfold checkQuota
  split_ifs <;> simp <;> omega

/-- A request: the tokens it is admitted with, and what it adds in the end. -/
structure QuotaRequest extends Transaction where
  incomingTokens : ℤ
  total_nonneg : 0 ≤ promptTokens + completionTokens
  total_le : promptTokens + completionTokens ≤ incomingTokens

/-- How far a request has got with `ensure_quota`. -/
inductive Admission where
  | waiting
  /-- The day's counter is selected. -/
  | selected (daily : ℤ)
  | admitted
  | refused (reason : QuotaExceeded)
  deriving DecidableEq

def Admission.decided : Except QuotaExceeded Unit → Admission
  | .ok () => .admitted
  | .error reason => .refused reason

structure QuotaState (τ : Type*) where
  usage : State τ RowValue
  admission : τ → Admission

inductive QuotaAction (τ : Type*) where
  /-- The first select of `ensure_quota`. -/
  | selectDaily (t : τ)
  /-- The second select, and the comparisons. -/
  | selectMonthly (t : τ)
  /-- A select or the commit of an admitted request on its way through `record_usage`. -/
  | usage (a : Action τ)

/-- The transaction that takes the action. -/
def actor {τ : Type*} : Action τ → τ
  | .select t => t
  | .commit t => t

/-- The tokens of a counter. -/
def used (store : (r : Row) → RowValue r) (p : PeriodType) : ℤ := QuotaCounter.usedTokens (store (.counter p))

section Race

variable {τ : Type*} [DecidableEq τ] (limits : PeriodType → ℤ) (req : τ → QuotaRequest)

abbrev requestStep : State τ RowValue → Action τ → Option (State τ RowValue) := usageStep fun t => (req t).toTransaction

/-- The state after request `t` has got on with `ensure_quota`. -/
def QuotaState.advance (s : QuotaState τ) (t : τ) (a : Admission) : QuotaState τ :=
  { s with admission := Function.update s.admission t a }

def quotaStep (s : QuotaState τ) : QuotaAction τ → Option (QuotaState τ)
  | .selectDaily t =>
    match s.admission t with
    | .waiting => some (s.advance t (.selected (used s.usage.store .daily)))
    | _ => none
  | .selectMonthly t =>
    match s.admission t with
    | .selected daily =>
      some (s.advance t (.decided (checkQuota limits (req t).incomingTokens daily (used s.usage.store .monthly))))
    | _ => none
  | .usage a =>
    if s.admission (actor a) = .admitted then (requestStep req s.usage a).map fun u => { s with usage := u } else none

/-- All requests before `ensure_quota`. -/
def quotaInit (store : (r : Row) → RowValue r) : QuotaState τ :=
  { usage := usageInit (fun t => (req t).toTransaction) store, admission := fun _ => .waiting }

/-- The request would be admitted alone. -/
def AdmittedAlone (store : (r : Row) → RowValue r) (t : τ) : Prop :=
  checkQuota limits (req t).incomingTokens (used store .daily) (used store .monthly) = .ok ()

instance (store : (r : Row) → RowValue r) (t : τ) : Decidable (AdmittedAlone limits req store t) :=
  decidable_of_iff _ checkQuota_ok_iff.symm

/-- The counters are within the limits. -/
def WithinLimits (store : (r : Row) → RowValue r) : Prop := ∀ p, used store p ≤ limits p

/-! ## Every run -/

variable {limits req}

/-- What a step does: one select of `ensure_quota` or one action of an admitted request. -/
theorem quotaStep_cases {s s' : QuotaState τ} {a : QuotaAction τ} (h : quotaStep limits req s a = some s') :
    (∃ t, a = .selectDaily t ∧ s.admission t = .waiting ∧
      s' = s.advance t (.selected (used s.usage.store .daily))) ∨
    (∃ t daily, a = .selectMonthly t ∧ s.admission t = .selected daily ∧
      s' = s.advance t
        (.decided (checkQuota limits (req t).incomingTokens daily (used s.usage.store .monthly)))) ∨
    ∃ b u, a = .usage b ∧ s.admission (actor b) = .admitted ∧ requestStep req s.usage b = some u ∧
      s' = { s with usage := u } := by
  cases a with
  | selectDaily t =>
    cases ht : s.admission t with
    | waiting => exact .inl ⟨t, rfl, ht, by simpa [quotaStep, ht] using h.symm⟩
    | _ => simp [quotaStep, ht] at h
  | selectMonthly t =>
    cases ht : s.admission t with
    | selected daily => exact .inr (.inl ⟨t, daily, rfl, ht, by simpa [quotaStep, ht] using h.symm⟩)
    | _ => simp [quotaStep, ht] at h
  | usage b =>
    simp only [quotaStep] at h
    split_ifs at h with ha
    obtain ⟨u, hu, rfl⟩ := Option.map_eq_some_iff.mp h
    exact .inr (.inr ⟨b, u, rfl, ha, hu, rfl⟩)

theorem admission_advance (s : QuotaState τ) (t : τ) (a : Admission) (t' : τ) :
    (s.advance t a).admission t' = if t' = t then a else s.admission t' := by
  simp only [QuotaState.advance, Function.update_apply]

variable [Fintype τ] {store : (r : Row) → RowValue r}

/-- What holds in every state of a run: counters and their loaded values lie between the first value and that with the
tokens of the requests that have committed, and a request that has committed, or was admitted, would be admitted
alone. -/
structure QuotaInv (limits : PeriodType → ℤ) (req : τ → QuotaRequest) (store : (r : Row) → RowValue r)
    (s : QuotaState τ) : Prop where
  between : ∀ p, Between (r := Row.counter p) QuotaCounter.usedTokens (used store p) (fun t => (req t).total) s.usage
  done : ∀ t, (s.usage.session t).done = true → s.admission t = .admitted
  selected : ∀ t daily, s.admission t = .selected daily → used store .daily ≤ daily
  admitted : ∀ t, s.admission t = .admitted → AdmittedAlone limits req store t

omit [DecidableEq τ] in
theorem quotaInv_init (limits : PeriodType → ℤ) (req : τ → QuotaRequest) (store : (r : Row) → RowValue r) :
    QuotaInv limits req store (quotaInit req store) where
  between p := between_init (r := Row.counter p) _ _ _ store
  done _ h := nomatch h
  selected _ _ h := nomatch h
  admitted _ h := nomatch h

theorem quotaInv_step {s s' : QuotaState τ} {a : QuotaAction τ} (hi : QuotaInv limits req store s)
    (h : quotaStep limits req s a = some s') : QuotaInv limits req store s' := by
  rcases quotaStep_cases h with ⟨t, -, ht, rfl⟩ | ⟨t, daily, -, ht, rfl⟩ | ⟨b, u, -, ht, hu, rfl⟩
  · -- the day's counter is not below its first value
    refine ⟨hi.between, fun t' hd => ?_, fun t' d hsel => ?_, fun t' ha => ?_⟩
    · have hadm := hi.done t' hd
      rw [admission_advance, if_neg fun e => by rw [e, ht] at hadm; cases hadm]
      exact hadm
    · rw [admission_advance] at hsel
      split_ifs at hsel
      · cases hsel
        exact (hi.between .daily).store.1
      · exact hi.selected t' d hsel
    · rw [admission_advance] at ha
      split_ifs at ha
      exact hi.admitted t' ha
  · -- the request is admitted against values that are not below the first ones
    have hmonthly : used store .monthly ≤ used s.usage.store .monthly := (hi.between .monthly).store.1
    have hdaily := hi.selected t daily ht
    refine ⟨hi.between, fun t' hd => ?_, fun t' d hsel => ?_, fun t' ha => ?_⟩
    · have hadm := hi.done t' hd
      rw [admission_advance, if_neg fun e => by rw [e, ht] at hadm; cases hadm]
      exact hadm
    · rw [admission_advance] at hsel
      split_ifs at hsel
      · revert hsel
        cases checkQuota limits (req t).incomingTokens daily (used s.usage.store .monthly) <;> simp [Admission.decided]
      · exact hi.selected t' d hsel
    · rw [admission_advance] at ha
      split_ifs at ha with he
      · subst he
        cases hc : checkQuota limits (req t').incomingTokens daily (used s.usage.store .monthly) with
        | error reason =>
          rw [hc] at ha
          cases ha
        | ok =>
          obtain ⟨hd, hm⟩ := checkQuota_ok_iff.mp hc
          exact checkQuota_ok_iff.mpr ⟨by omega, by omega⟩
      · exact hi.admitted t' ha
  · refine ⟨fun p => ?_, fun t' hd => ?_, hi.selected, hi.admitted⟩
    · exact step_between (r := Row.counter p) (fun t => (req t).total_nonneg) (fun _ _ => rfl) (hi.between p) hu
    · have hrun : run (requestStep req) s.usage [b] = some u := run_cons_iff.mpr ⟨u, hu, rfl⟩
      rcases (done_iff hrun t').mp hd with hd | hmem
      · exact hi.done t' hd
      · cases b with
        | select t => simp [commits] at hmem
        | commit t =>
          obtain rfl : t' = t := by simpa [commits] using hmem
          exact ht

omit [DecidableEq τ] in
/-- The counters never exceed the first values and the tokens of the requests that would be admitted alone. -/
theorem used_le {s : QuotaState τ} (hi : QuotaInv limits req store s) (p : PeriodType) :
    used s.usage.store p ≤ used store p + ∑ t with AdmittedAlone limits req store t, (req t).total := by
  have hle : spent (fun t => (req t).total) s.usage ≤ ∑ t with AdmittedAlone limits req store t, (req t).total := by
    rw [Finset.sum_filter]
    refine Finset.sum_le_sum fun t _ => ?_
    have hnonneg : 0 ≤ (req t).total := (req t).total_nonneg
    show (if (s.usage.session t).done then (req t).total else 0) ≤ _
    by_cases hd : (s.usage.session t).done = true
    · rw [if_pos hd, if_pos (hi.admitted t (hi.done t hd))]
    · rw [if_neg hd]
      split_ifs <;> omega
  have := (hi.between p).store.2
  unfold used at *
  omega

/-! ## The worst run -/

/-- All requests of a list call `ensure_quota` before any other one goes on. -/
def checks (ts : List τ) : List (QuotaAction τ) := ts.flatMap fun t => [.selectDaily t, .selectMonthly t]

omit [Fintype τ] in
theorem run_checks (limits : PeriodType → ℤ) (req : τ → QuotaRequest) (ts : List τ) (s : QuotaState τ) (hnd : ts.Nodup)
    (hw : ∀ t ∈ ts, s.admission t = .waiting) :
    ∃ s', run (quotaStep limits req) s (checks ts) = some s' ∧ s'.usage = s.usage ∧
      (∀ t ∈ ts, s'.admission t = .decided (checkQuota limits (req t).incomingTokens (used s.usage.store .daily)
        (used s.usage.store .monthly))) ∧ ∀ t ∉ ts, s'.admission t = s.admission t := by
  induction ts generalizing s with
  | nil => exact ⟨s, rfl, rfl, by simp, fun _ _ => rfl⟩
  | cons t ts ih =>
    obtain ⟨hnot, hnd⟩ := List.nodup_cons.mp hnd
    have ht := hw t List.mem_cons_self
    let u := (s.advance t (.selected (used s.usage.store .daily))).advance t
      (.decided (checkQuota limits (req t).incomingTokens (used s.usage.store .daily) (used s.usage.store .monthly)))
    have hu : run (quotaStep limits req) s [.selectDaily t, .selectMonthly t] = some u := by
      simp [run, quotaStep, ht, u, QuotaState.advance]
    have hadm : ∀ t', t' ≠ t → u.admission t' = s.admission t' := by
      intro t' ht'
      simp only [u, admission_advance, if_neg ht']
    obtain ⟨s', hs', husage, hdec, hother⟩ := ih u hnd fun t' ht' => by
      rw [hadm t' fun e => hnot (e ▸ ht')]
      exact hw t' (List.mem_cons_of_mem _ ht')
    refine ⟨s', run_append_iff.mpr ⟨u, hu, hs'⟩, husage, fun t' ht' => ?_, fun t' ht' => ?_⟩
    · rcases List.mem_cons.mp ht' with rfl | ht'
      · rw [hother t' hnot]
        simp only [u, admission_advance, if_true]
      · exact hdec t' ht'
    · rw [List.mem_cons, not_or] at ht'
      rw [hother t' ht'.2, hadm t' ht'.1]

omit [Fintype τ] in
/-- Admitted requests go on as in `record_usage`. -/
theorem run_usage {acts : List (Action τ)} {s : QuotaState τ} {u : State τ RowValue}
    (ha : ∀ b ∈ acts, s.admission (actor b) = .admitted) (h : run (requestStep req) s.usage acts = some u) :
    run (quotaStep limits req) s (acts.map .usage) = some { s with usage := u } := by
  induction acts generalizing s with
  | nil =>
    cases h
    rfl
  | cons b acts ih =>
    obtain ⟨v, hv, h⟩ := run_cons_iff.mp h
    refine run_cons_iff.mpr ⟨{ s with usage := v }, ?_, ?_⟩
    · simp only [quotaStep, if_pos (ha b List.mem_cons_self), hv, Option.map_some]
    · exact ih (fun b' hb' => ha b' (List.mem_cons_of_mem _ hb')) h

omit [DecidableEq τ] [Fintype τ] in
theorem actor_solo {t : τ} {rows : List Row} {b : Action τ} (h : b ∈ solo t rows) : actor b = t := by
  rcases List.mem_append.mp h with h | h
  · obtain ⟨r, -, rfl⟩ := List.mem_map.mp h
    rfl
  · rw [List.mem_singleton.mp h]
    rfl

/-- A run in which all requests that would be admitted alone are admitted and add their tokens. -/
theorem exists_worst (limits : PeriodType → ℤ) (req : τ → QuotaRequest) (store : (r : Row) → RowValue r)
    (p : PeriodType) :
    ∃ acts s, run (quotaStep limits req) (quotaInit req store) acts = some s ∧
      used s.usage.store p = used store p + ∑ t with AdmittedAlone limits req store t, (req t).total := by
  have hmem : ∀ t ∈ (Finset.univ.filter (AdmittedAlone limits req store)).toList, AdmittedAlone limits req store t :=
    fun t ht => (Finset.mem_filter.mp (Finset.mem_toList.mp ht)).2
  obtain ⟨s, hs, husage, hdec, -⟩ := run_checks limits req Finset.univ.toList
    (quotaInit req store) (Finset.nodup_toList _) fun _ _ => rfl
  have hadm : ∀ t, AdmittedAlone limits req store t → s.admission t = .admitted := by
    intro t ht
    rw [hdec t (by simp)]
    exact congrArg Admission.decided ht
  obtain ⟨u, hu, hfold⟩ := run_turns (fun t => (req t).program) (r := Row.counter p)
    (fun t => mem_reads (req t).toTransaction _) (Finset.univ.filter (AdmittedAlone limits req store)).toList s.usage
    (Finset.nodup_toList _) (fun t _ => by rw [husage]; rfl)
  refine ⟨_, _, run_append_iff.mpr ⟨s, hs, run_usage (fun b hb => ?_) hu⟩, ?_⟩
  · obtain ⟨t, ht, hb⟩ := List.mem_flatMap.mp hb
    rw [actor_solo hb]
    exact hadm t (hmem t ht)
  · have hsum := foldl_add (fun t => (req t).program) (r := Row.counter p) QuotaCounter.usedTokens
      (fun t => (req t).total) (fun _ _ => rfl) (Finset.univ.filter (AdmittedAlone limits req store)).toList
      (s.usage.store (.counter p))
    rw [Finset.sum_map_toList, husage] at hsum
    rw [husage] at hfold
    simp only [used, hfold]
    exact hsum

/-- **The quota holds in all interleavings exactly if it has room for all requests together that would each be admitted
alone.** -/
theorem limits_kept_iff (limits : PeriodType → ℤ) (req : τ → QuotaRequest) (store : (r : Row) → RowValue r) :
    (∀ acts s, run (quotaStep limits req) (quotaInit req store) acts = some s → WithinLimits limits s.usage.store) ↔
      ∀ p, used store p + ∑ t with AdmittedAlone limits req store t, (req t).total ≤ limits p := by
  constructor
  · intro h p
    obtain ⟨acts, s, hs, he⟩ := exists_worst limits req store p
    rw [← he]
    exact h acts s hs p
  · intro h acts s hs p
    have hinv := run_inv (fun _ _ _ => quotaInv_step) (quotaInv_init limits req store) hs
    exact (used_le hinv p).trans (h p)

end Race

/-! ## Two requests for one allowance -/

/-- Two chat requests of five prompt tokens that may take seven more each, and do. -/
def twoRequests : Fin 2 → QuotaRequest := fun _ =>
  { handler := .chatCompletions, promptTokens := 5, completionTokens := 7, incomingTokens := 12,
    total_nonneg := by decide, total_le := by decide }

/-- Twenty tokens a day and a thousand a month. -/
def smallPlan : PeriodType → ℤ
  | .daily => 20
  | .monthly => 1000

/-- **Both requests are admitted to an allowance that covers one of them**: they are checked before either is booked, and
the day ends with 24 of 20 tokens used. -/
theorem limit_overrun : WithinLimits smallPlan emptyDay ∧
    ∃ s, run (quotaStep smallPlan twoRequests) (quotaInit twoRequests emptyDay)
        (checks [0, 1] ++ oneAfterTheOther.map .usage) = some s ∧ used s.usage.store .daily = 24 ∧
      ¬ WithinLimits smallPlan s.usage.store := by
  refine ⟨fun p => by cases p <;> decide, _, rfl, by decide, fun h => ?_⟩
  exact absurd (h .daily) (by decide)

end LlmStore.Usage
