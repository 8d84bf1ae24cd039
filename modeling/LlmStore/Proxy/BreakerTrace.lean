import Mathlib.Data.List.Induction
import LlmStore.Proxy.CircuitBreaker

/-!
# What the circuit breaker remembers

`services/circuit_breaker.py` keeps a counter and the time of the opening, where 0 stands for a closed breaker. This
module reads both off the history of its four methods: `sinceClearing` are the entries after the last one that cleared
the breaker, the counter is the number of the failures among them, and `opened_at` is the time of the one that reached
the threshold (`Remembers`). So a call is refused just if enough failures were recorded since the breaker was last
cleared and the recovery time after the one that reached the threshold has not passed (`before_call_refused_iff`).
-/

namespace LlmStore.Breaker.Trace

open LlmStore.Lib

/-- The methods of the breaker. -/
inductive Operation where
  | beforeCall
  | recordSuccess
  | recordFailure
  | reset
  deriving DecidableEq

/-- A method and the value of the clock, `time.monotonic()`, at its time. -/
structure Entry where
  now : ℚ
  operation : Operation
  deriving DecidableEq

section

variable (settings : Settings)

def Entry.apply (e : Entry) (b : CircuitBreaker) : CircuitBreaker :=
  match e.operation with
  | .beforeCall => (b.beforeCall settings e.now).2
  | .recordSuccess => b.recordSuccess
  | .recordFailure => b.recordFailure settings e.now
  | .reset => .closed

/-- The breaker after a history. -/
def after (entries : List Entry) : CircuitBreaker := entries.foldl (fun b e => e.apply settings b) .closed

/-- The times at which failures were recorded, first one first. -/
def failureTimes (entries : List Entry) : List ℚ := (entries.filter (·.operation = .recordFailure)).map Entry.now

/-- The time of the failure that reached the threshold, if there are so many. -/
def reachedAt (entries : List Entry) : Option ℚ := (failureTimes entries)[settings.failureThreshold - 1]?

/-- An entry that clears the breaker: a success, a reset, or a call that finds the recovery time elapsed. The `rest` is
what was recorded since the breaker was last cleared. -/
def Clears (rest : List Entry) (e : Entry) : Prop :=
  e.operation = .recordSuccess ∨ e.operation = .reset ∨
    e.operation = .beforeCall ∧ ∃ t ∈ reachedAt settings rest, settings.recoverySeconds ≤ e.now - t

instance (rest : List Entry) (e : Entry) : Decidable (Clears settings rest e) := by
  unfold Clears
  have : Decidable (∃ t ∈ reachedAt settings rest, settings.recoverySeconds ≤ e.now - t) :=
    match h : reachedAt settings rest with
    | none => .isFalse (by simp)
    | some t => decidable_of_iff (settings.recoverySeconds ≤ e.now - t) (by simp)
  infer_instance

/-- The entries of a history since the last one that cleared the breaker. -/
def sinceClearing (entries : List Entry) : List Entry :=
  entries.foldl (fun rest e => if Clears settings rest e then [] else rest ++ [e]) []

variable {settings} {entries rest : List Entry} {e : Entry} {b : CircuitBreaker}

@[simp] theorem after_nil : after settings [] = .closed := rfl

@[simp] theorem after_snoc : after settings (entries ++ [e]) = e.apply settings (after settings entries) := by
  simp [after]

@[simp] theorem failureTimes_nil : failureTimes [] = [] := rfl

theorem failureTimes_snoc : failureTimes (rest ++ [e]) =
    failureTimes rest ++ if e.operation = .recordFailure then [e.now] else [] := by
  unfold failureTimes
  rw [List.filter_append, List.map_append]
  by_cases h : e.operation = .recordFailure <;> simp [h]

theorem failureTimes_snoc_of_ne (h : e.operation ≠ .recordFailure) : failureTimes (rest ++ [e]) = failureTimes rest := by
  rw [failureTimes_snoc, if_neg h, List.append_nil]

theorem mem_failureTimes {t : ℚ} (h : t ∈ failureTimes entries) : ∃ e ∈ entries, e.now = t := by
  obtain ⟨e, he, rfl⟩ := List.mem_map.mp h
  exact ⟨e, (List.mem_filter.mp he).1, rfl⟩

@[simp] theorem sinceClearing_nil : sinceClearing settings [] = [] := rfl

theorem sinceClearing_snoc : sinceClearing settings (entries ++ [e]) =
    if Clears settings (sinceClearing settings entries) e then [] else sinceClearing settings entries ++ [e] := by
  unfold sinceClearing
  rw [List.foldl_append]
  rfl

/-! ## The last clearing entry -/

/-- `rest` is what follows the last entry of the history that cleared the breaker, or all of it when none did. -/
theorem sinceClearing_split (entries : List Entry) :
    ∃ cleared, entries = cleared ++ sinceClearing settings entries ∧
      (cleared = [] ∨ ∃ before e, cleared = before ++ [e] ∧ Clears settings (sinceClearing settings before) e) ∧
      ∀ middle e after, sinceClearing settings entries = middle ++ e :: after → ¬ Clears settings middle e := by
  induction entries using List.reverseRecOn with
  | nil => exact ⟨[], rfl, .inl rfl, fun middle e after h => by simp at h⟩
  | append_singleton entries e ih =>
    obtain ⟨cleared, hentries, hcleared, hrest⟩ := ih
    rw [sinceClearing_snoc]
    by_cases hclears : Clears settings (sinceClearing settings entries) e
    · rw [if_pos hclears]
      exact ⟨entries ++ [e], (List.append_nil _).symm, .inr ⟨entries, e, rfl, hclears⟩, fun middle d after h => by
        simp at h⟩
    · rw [if_neg hclears]
      refine ⟨cleared, ?_, hcleared, fun middle d after h => ?_⟩
      · rw [← List.append_assoc, ← hentries]
      · rcases List.eq_nil_or_concat after with rfl | ⟨after, c, rfl⟩
        · obtain ⟨rfl, rfl⟩ := List.append_singleton_inj.mp h
          exact hclears
        · rw [List.concat_eq_append, ← List.cons_append, ← List.append_assoc] at h
          obtain ⟨hmiddle, -⟩ := List.append_singleton_inj.mp h
          exact hrest middle d after hmiddle

/-- What was recorded since the breaker was cleared is part of the history. -/
theorem mem_of_mem_sinceClearing (h : e ∈ sinceClearing settings entries) : e ∈ entries := by
  obtain ⟨cleared, hentries, -⟩ := @sinceClearing_split settings entries
  rw [hentries]
  exact List.mem_append_right _ h

/-! ## The state of the breaker -/

/-- The counter and the time of the opening are those of the failures in `rest`. -/
structure Remembers (settings : Settings) (b : CircuitBreaker) (rest : List Entry) : Prop where
  failures : b.failures = (failureTimes rest).length
  openedAt : b.openedAt = (reachedAt settings rest).getD 0

theorem Remembers.closed : Remembers settings .closed [] where
  failures := rfl
  openedAt := rfl

theorem reachedAt_eq_none_iff (hthreshold : 1 ≤ settings.failureThreshold) :
    reachedAt settings rest = none ↔ (failureTimes rest).length < settings.failureThreshold := by
  rw [reachedAt, List.getElem?_eq_none_iff]
  omega

theorem reachedAt_pos (hpositive : ∀ e ∈ rest, 0 < e.now) {t : ℚ} (ht : reachedAt settings rest = some t) : 0 < t := by
  obtain ⟨e, he, rfl⟩ := mem_failureTimes (List.mem_of_getElem? ht)
  exact hpositive e he

/-- While 0 is no time of a failure, the sentinel says whether the threshold was reached. -/
theorem Remembers.openedAt_eq_zero_iff (h : Remembers settings b rest) (hpositive : ∀ e ∈ rest, 0 < e.now) :
    b.openedAt = 0 ↔ reachedAt settings rest = none := by
  rw [h.openedAt]
  cases ht : reachedAt settings rest with
  | none => simp
  | some t => simpa using (reachedAt_pos hpositive ht).ne'

/-- A call is refused just if the threshold was reached and the recovery time since then has not passed. -/
theorem Remembers.beforeCall_eq_false_iff (h : Remembers settings b rest) (hthreshold : 1 ≤ settings.failureThreshold)
    {now : ℚ} : (b.beforeCall settings now).1 = false ↔
      ∃ t ∈ reachedAt settings rest, now - t < settings.recoverySeconds := by
  rw [CircuitBreaker.beforeCall_eq_false_iff, h.failures, h.openedAt]
  cases ht : reachedAt settings rest with
  | none =>
    have := (reachedAt_eq_none_iff hthreshold).mp ht
    simp only [Option.mem_def, reduceCtorEq, false_and, exists_false, iff_false, not_and]
    omega
  | some t =>
    have hreached : ¬ (failureTimes rest).length < settings.failureThreshold := by
      rw [← reachedAt_eq_none_iff hthreshold, ht]
      exact Option.some_ne_none t
    simp only [Option.getD_some, Option.mem_def, Option.some.injEq, exists_eq_left', and_iff_right_iff_imp]
    omega

/-- A call that is let through leaves the breaker as it is, unless it finds the recovery time elapsed. -/
theorem Remembers.beforeCall (h : Remembers settings b rest) (hthreshold : 1 ≤ settings.failureThreshold) {now : ℚ} :
    (b.beforeCall settings now).2 =
      if Clears settings rest ⟨now, .beforeCall⟩ then CircuitBreaker.closed else b := by
  have hclears : Clears settings rest ⟨now, .beforeCall⟩ ↔
      ¬ b.failures < settings.failureThreshold ∧ settings.recoverySeconds ≤ now - b.openedAt := by
    simp only [Clears, reduceCtorEq, true_and, false_or, h.failures, h.openedAt,
      ← reachedAt_eq_none_iff hthreshold]
    cases reachedAt settings rest <;> simp
  unfold CircuitBreaker.beforeCall
  by_cases hfailures : b.failures < settings.failureThreshold
  · rw [if_pos hfailures, if_neg fun hc => (hclears.mp hc).1 hfailures]
  · rw [if_neg hfailures]
    by_cases hrecovered : now - b.openedAt ≥ settings.recoverySeconds
    · rw [if_pos hrecovered, if_pos (hclears.mpr ⟨hfailures, hrecovered⟩)]
    · rw [if_neg hrecovered, if_neg fun hc => hrecovered (hclears.mp hc).2]

/-- One more failure: it is the one that opens the breaker if it reaches the threshold. Failures that arrive while the
breaker is open are counted and leave the time of the opening as it is. -/
theorem Remembers.recordFailure (h : Remembers settings b rest) (hthreshold : 1 ≤ settings.failureThreshold)
    (hpositive : ∀ e ∈ rest, 0 < e.now) {now : ℚ} :
    Remembers settings (b.recordFailure settings now) (rest ++ [⟨now, .recordFailure⟩]) := by
  have htimes : failureTimes (rest ++ [⟨now, .recordFailure⟩]) = failureTimes rest ++ [now] := by
    rw [failureTimes_snoc, if_pos rfl]
  have hopens : b.Opens settings ↔ (failureTimes rest).length = settings.failureThreshold - 1 := by
    unfold CircuitBreaker.Opens
    rw [h.openedAt_eq_zero_iff hpositive, reachedAt_eq_none_iff hthreshold, h.failures]
    omega
  refine ⟨by simp [CircuitBreaker.recordFailure, h.failures, htimes], ?_⟩
  simp only [CircuitBreaker.recordFailure, reachedAt, htimes, h.openedAt]
  by_cases ho : b.Opens settings
  · rw [if_pos ho, List.getElem?_append_right (hopens.mp ho).le, hopens.mp ho]
    simp
  · rw [if_neg ho]
    rcases Nat.lt_or_gt_of_ne (mt hopens.mpr ho) with hlt | hgt
    · -- the threshold is still ahead
      rw [List.getElem?_eq_none hlt.le, List.getElem?_eq_none]
      simp only [List.length_append, List.length_singleton]
      omega
    · rw [List.getElem?_append_left hgt]

/-- What the breaker remembers after one more entry. -/
theorem Remembers.apply (h : Remembers settings b rest) (hthreshold : 1 ≤ settings.failureThreshold)
    (hpositive : ∀ e ∈ rest, 0 < e.now) (e : Entry) :
    Remembers settings (e.apply settings b) (if Clears settings rest e then [] else rest ++ [e]) := by
  obtain ⟨now, operation⟩ := e
  cases operation with
  | beforeCall =>
    simp only [Entry.apply]
    rw [h.beforeCall hthreshold]
    by_cases hclears : Clears settings rest ⟨now, .beforeCall⟩
    · rw [if_pos hclears, if_pos hclears]
      exact .closed
    · rw [if_neg hclears, if_neg hclears]
      have htimes : failureTimes (rest ++ [⟨now, .beforeCall⟩]) = failureTimes rest :=
        failureTimes_snoc_of_ne (by simp)
      exact ⟨by rw [htimes, h.failures], by rw [reachedAt, htimes, h.openedAt, reachedAt]⟩
  | recordSuccess =>
    rw [if_pos (.inl rfl)]
    exact .closed
  | recordFailure =>
    rw [if_neg (by simp [Clears])]
    exact h.recordFailure hthreshold hpositive
  | reset =>
    rw [if_pos (.inr (.inl rfl))]
    exact .closed

/-- After every history the breaker remembers the failures since it was last cleared. -/
theorem remembers_after (hthreshold : 1 ≤ settings.failureThreshold) {entries : List Entry}
    (hpositive : ∀ e ∈ entries, 0 < e.now) :
    Remembers settings (after settings entries) (sinceClearing settings entries) := by
  induction entries using List.reverseRecOn with
  | nil => exact .closed
  | append_singleton entries e ih =>
    have hbefore : ∀ d ∈ entries, 0 < d.now := fun d hd => hpositive d (List.mem_append_left _ hd)
    rw [after_snoc, sinceClearing_snoc]
    exact (ih hbefore).apply hthreshold (fun d hd => hbefore d (mem_of_mem_sinceClearing hd)) e

/-- **The breaker follows its trace specification.** After a history with positive times, a call at the time `now` is
refused just if the threshold was reached since the breaker was last cleared and the recovery time since then has not
passed; and the counter is at the threshold just if `opened_at` is set. That the times do not decrease is not needed. -/
theorem before_call_refused_iff (hthreshold : 1 ≤ settings.failureThreshold) (entries : List Entry)
    (hpositive : ∀ e ∈ entries, 0 < e.now) :
    (∀ now, ((after settings entries).beforeCall settings now).1 = false ↔
      ∃ t ∈ reachedAt settings (sinceClearing settings entries), now - t < settings.recoverySeconds) ∧
    (settings.failureThreshold ≤ (after settings entries).failures ↔ (after settings entries).openedAt ≠ 0) := by
  have h := remembers_after hthreshold hpositive
  refine ⟨fun now => h.beforeCall_eq_false_iff hthreshold, ?_⟩
  rw [ne_eq, h.openedAt_eq_zero_iff fun e he => hpositive e (mem_of_mem_sinceClearing he),
    reachedAt_eq_none_iff hthreshold, h.failures, not_lt]

/-- Three failures open the breaker at 3, a fourth one is counted and changes nothing; a call at 22 is refused. -/
def openedEntries : List Entry :=
  [⟨1, .recordFailure⟩, ⟨2, .recordFailure⟩, ⟨2, .beforeCall⟩, ⟨3, .recordFailure⟩, ⟨9, .recordFailure⟩]

theorem before_call_refused_iff_opened : (∀ e ∈ openedEntries, 0 < e.now) ∧
    ((after defaultSettings openedEntries).beforeCall defaultSettings 22).1 = false ∧
    ((∀ now, ((after defaultSettings openedEntries).beforeCall defaultSettings now).1 = false ↔
      ∃ t ∈ reachedAt defaultSettings (sinceClearing defaultSettings openedEntries),
        now - t < defaultSettings.recoverySeconds) ∧
    (defaultSettings.failureThreshold ≤ (after defaultSettings openedEntries).failures ↔
      (after defaultSettings openedEntries).openedAt ≠ 0)) := by
  have hpositive : ∀ e ∈ openedEntries, 0 < e.now := by
    simp [openedEntries]
  exact ⟨hpositive, by decide +kernel, before_call_refused_iff (by decide) openedEntries hpositive⟩

end

/-! ## Calls -/

section Calls

variable {κ : Type*}

/-- The method that an action of a call is, except that a call may end without a report. -/
def operation : Action κ → Option Operation
  | .beforeCall _ => some .beforeCall
  | .recordSuccess _ => some .recordSuccess
  | .recordFailure _ => some .recordFailure
  | .leave _ => none
  | .reset => some .reset

/-- The history of the breaker in a run of calls. -/
def history (events : List (Event κ)) : List Entry :=
  events.filterMap fun e => (operation e.action).map (Entry.mk e.now)

@[simp] theorem history_append (events events' : List (Event κ)) :
    history (events ++ events') = history events ++ history events' :=
  List.filterMap_append

variable [DecidableEq κ] {settings : Settings} {s s' : State κ} {e : Event κ} {events : List (Event κ)}

theorem breaker_of_step (h : step settings s e = some s') :
    s'.breaker = (history [e]).foldl (fun b d => d.apply settings b) s.breaker := by
  obtain ⟨now, action⟩ := e
  unfold step at h
  split_ifs at h
  cases action with
  | reset =>
    cases h
    rfl
  | _ =>
    simp only [act] at h
    split_ifs at h
    all_goals
      cases h
      rfl

/-- The breaker that calls reach together is the one after its history. -/
theorem breaker_of_run {clock : ℚ} (h : run (step settings) (init clock) events = some s') :
    s'.breaker = after settings (history events) := by
  induction events using List.reverseRecOn generalizing s' with
  | nil =>
    cases h
    rfl
  | append_singleton events e ih =>
    obtain ⟨t, ht, hstep⟩ := run_snoc_iff.mp h
    rw [breaker_of_step hstep, ih ht, history_append, after, after, List.foldl_append]

/-- The clock of a run does not go back. -/
theorem clock_of_step (h : step settings s e = some s') : s.clock ≤ e.now ∧ s'.clock = e.now := by
  obtain ⟨now, action⟩ := e
  unfold step at h
  split_ifs at h with hclock
  refine ⟨hclock, ?_⟩
  cases action with
  | reset =>
    cases h
    rfl
  | _ =>
    simp only [act] at h
    split_ifs at h
    all_goals
      cases h
      rfl

/-- The times of a run that starts at a positive time are positive. -/
theorem history_pos {clock : ℚ} (hclock : 0 < clock) (h : run (step settings) (init clock) events = some s') :
    0 < s'.clock ∧ ∀ d ∈ history events, 0 < d.now := by
  induction events using List.reverseRecOn generalizing s' with
  | nil =>
    cases h
    exact ⟨hclock, fun d hd => nomatch hd⟩
  | append_singleton events e ih =>
    obtain ⟨t, ht, hstep⟩ := run_snoc_iff.mp h
    obtain ⟨hpos, hhistory⟩ := ih ht
    obtain ⟨hle, hnow⟩ := clock_of_step hstep
    have he : 0 < e.now := lt_of_lt_of_le hpos hle
    refine ⟨hnow ▸ he, fun d hd => ?_⟩
    rw [history_append] at hd
    rcases List.mem_append.mp hd with hbefore | hlast
    · exact hhistory d hbefore
    · obtain ⟨e', he', hentry⟩ := List.mem_filterMap.mp hlast
      obtain rfl := List.mem_singleton.mp he'
      obtain ⟨o, -, rfl⟩ := Option.map_eq_some_iff.mp hentry
      exact he

/-- Whether the next call is refused, in every state that calls reach together. -/
theorem run_refused_iff (hthreshold : 1 ≤ settings.failureThreshold) {clock : ℚ} (hclock : 0 < clock)
    (h : run (step settings) (init clock) events = some s) (now : ℚ) : (s.breaker.beforeCall settings now).1 = false ↔
      ∃ t ∈ reachedAt settings (sinceClearing settings (history events)), now - t < settings.recoverySeconds := by
  rw [breaker_of_run h]
  exact (remembers_after hthreshold (history_pos hclock h).2).beforeCall_eq_false_iff hthreshold

end Calls

end LlmStore.Breaker.Trace
