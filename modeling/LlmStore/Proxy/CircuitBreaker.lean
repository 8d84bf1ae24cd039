import Mathlib.Algebra.Order.Ring.Rat
import Mathlib.Tactic.Linarith
import LlmStore.Lib.Run

/-!
# The circuit breaker

`services/circuit_breaker.py`: one breaker for all calls of the process. It opens when enough failures are recorded in a
row, and `before_call` refuses calls until the recovery time has passed.

`step` is one locked operation of any number of calls, each a `before_call` and perhaps a report after it. A call that
was admitted before the breaker opened may report its success afterwards, and that closes the breaker at once
(`early_success`). `open_stays_open` is the exact condition on runs.
-/

namespace LlmStore.Breaker

open LlmStore.Lib

/-- `CIRCUIT_BREAKER_FAILURE_THRESHOLD` and `CIRCUIT_BREAKER_RECOVERY_SECONDS`. -/
structure Settings where
  failureThreshold : ℕ
  recoverySeconds : ℚ

/-- The defaults of `core/config.py`. -/
def defaultSettings : Settings where
  failureThreshold := 3
  recoverySeconds := 20

structure CircuitBreaker where
  failures : ℕ
  openedAt : ℚ
  deriving DecidableEq

namespace CircuitBreaker

/-- `__init__`, and `reset`. -/
def closed : CircuitBreaker where
  failures := 0
  openedAt := 0

variable (settings : Settings)

/-- `before_call` at the time `now`: whether the call is admitted, and the breaker afterwards. -/
def beforeCall (now : ℚ) (b : CircuitBreaker) : Bool × CircuitBreaker :=
  if b.failures < settings.failureThreshold then (true, b)
  else if now - b.openedAt ≥ settings.recoverySeconds then (true, closed)
  else (false, b)

/-- `record_success`. -/
def recordSuccess (_ : CircuitBreaker) : CircuitBreaker := closed

/-- The condition under which `record_failure` sets `opened_at`. -/
def Opens (b : CircuitBreaker) : Prop := b.failures + 1 ≥ settings.failureThreshold ∧ b.openedAt = 0

instance (b : CircuitBreaker) : Decidable (b.Opens settings) := by unfold Opens; infer_instance

/-- `record_failure` at the time `now`. -/
def recordFailure (now : ℚ) (b : CircuitBreaker) : CircuitBreaker :=
  { failures := b.failures + 1
    openedAt := if b.Opens settings then now else b.openedAt }

variable {settings} {b : CircuitBreaker} {now : ℚ}

/-- A call is refused just if the breaker is open and the recovery time has not passed. -/
theorem beforeCall_eq_false_iff : (beforeCall settings now b).1 = false ↔
    settings.failureThreshold ≤ b.failures ∧ now - b.openedAt < settings.recoverySeconds := by
  unfold beforeCall
  split_ifs with hfailures hrecovered
  · simp [hfailures]
  · simpa using fun _ => hrecovered
  · exact iff_of_true rfl ⟨not_lt.mp hfailures, not_le.mp hrecovered⟩

/-- A refused call leaves the breaker as it is. -/
theorem beforeCall_of_refused (h : (beforeCall settings now b).1 = false) : (beforeCall settings now b).2 = b := by
  unfold beforeCall at h ⊢
  split_ifs at h ⊢
  rfl

end CircuitBreaker

/-! ## Calls -/

inductive Phase where
  | idle
  /-- `before_call` has returned. -/
  | admitted
  | ended
  deriving DecidableEq

/-- Calls are named by `κ`. -/
structure State (κ : Type*) where
  breaker : CircuitBreaker
  clock : ℚ
  phase : κ → Phase
  /-- The times at which the breaker has opened since the last `reset`. -/
  openings : List ℚ

inductive Action (κ : Type*) where
  | beforeCall (c : κ)
  | recordSuccess (c : κ)
  | recordFailure (c : κ)
  /-- The call ends without a report. -/
  | leave (c : κ)
  /-- `reset`, by an administrator. -/
  | reset

/-- An action and the clock at its time. -/
structure Event (κ : Type*) where
  now : ℚ
  action : Action κ

section Step

variable {κ : Type*} [DecidableEq κ]

/-- A fresh breaker. -/
def init (clock : ℚ) : State κ where
  breaker := .closed
  clock
  phase := fun _ => .idle
  openings := []

def State.setPhase (s : State κ) (c : κ) (p : Phase) : State κ := { s with phase := Function.update s.phase c p }

variable (settings : Settings)

/-- One action, when the clock has come to its time. -/
def act (s : State κ) (now : ℚ) : Action κ → Option (State κ)
  | .beforeCall c =>
    if s.phase c = .idle then
      some ({ s with breaker := (s.breaker.beforeCall settings now).2 }.setPhase c
        (if (s.breaker.beforeCall settings now).1 then .admitted else .ended))
    else none
  | .recordSuccess c =>
    if s.phase c = .admitted then some ({ s with breaker := s.breaker.recordSuccess }.setPhase c .ended) else none
  | .recordFailure c =>
    if s.phase c = .admitted then
      some ({ s with
        breaker := s.breaker.recordFailure settings now
        openings := if s.breaker.Opens settings then now :: s.openings else s.openings }.setPhase c .ended)
    else none
  | .leave c => if s.phase c = .admitted then some (s.setPhase c .ended) else none
  | .reset => some { s with breaker := .closed, openings := [] }

def step (s : State κ) (e : Event κ) : Option (State κ) :=
  if s.clock ≤ e.now then act settings { s with clock := e.now } e.now e.action else none

/-- No call would be admitted within the recovery time of an opening. -/
def State.Shut (s : State κ) : Prop :=
  ∀ t ∈ s.openings, ∀ now, s.clock ≤ now → now < t + settings.recoverySeconds →
    (s.breaker.beforeCall settings now).1 = false

/-- A success is recorded only when the recovery time of every opening has passed. -/
def KeepsOpen (s : State κ) (e : Event κ) : Prop :=
  (∃ c, e.action = .recordSuccess c) → ∀ t ∈ s.openings, t + settings.recoverySeconds ≤ e.now

/-- Within the recovery time of an opening the breaker is open, since then or later. -/
def State.Open (s : State κ) : Prop :=
  ∀ t ∈ s.openings, t ≤ s.clock ∧ (s.clock < t + settings.recoverySeconds →
    settings.failureThreshold ≤ s.breaker.failures ∧ t ≤ s.breaker.openedAt)

variable {settings} {s s' : State κ} {e : Event κ}

omit [DecidableEq κ] in
theorem State.Open.shut (h : s.Open settings) : s.Shut settings := by
  intro t ht now hclock hnow
  obtain ⟨hfailures, hopened⟩ := (h t ht).2 (by linarith)
  rw [CircuitBreaker.beforeCall_eq_false_iff]
  exact ⟨hfailures, by linarith⟩

/-- One step under the condition keeps the breaker open. -/
theorem State.Open.step (h : s.Open settings) (hkeeps : KeepsOpen settings s e)
    (hstep : Breaker.step settings s e = some s') : s'.Open settings := by
  obtain ⟨now, action⟩ := e
  unfold Breaker.step at hstep
  split_ifs at hstep with hclock
  dsimp only at hclock
  -- the clock alone
  have hnow : State.Open settings { s with clock := now } := fun t ht =>
    ⟨(h t ht).1.trans hclock, fun hlt => (h t ht).2 (lt_of_le_of_lt hclock hlt)⟩
  cases action with
  | beforeCall c =>
    simp only [act] at hstep
    split_ifs at hstep
    all_goals
      cases hstep
      intro t ht
      refine ⟨(hnow t ht).1, fun hlt => ?_⟩
      have hshut := hnow.shut t ht now le_rfl hlt
      have hsame := CircuitBreaker.beforeCall_of_refused hshut
      simp only [State.setPhase, hsame]
      exact (hnow t ht).2 hlt
  | recordSuccess c =>
    simp only [act] at hstep
    split_ifs at hstep
    cases hstep
    intro t ht
    have hpassed := hkeeps ⟨c, rfl⟩ t ht
    exact ⟨(hnow t ht).1, fun hlt => absurd hlt (not_lt.mpr hpassed)⟩
  | recordFailure c =>
    simp only [act] at hstep
    by_cases hphase : s.phase c = .admitted
    · rw [if_pos hphase] at hstep
      cases hstep
      intro t ht
      simp only [State.setPhase, CircuitBreaker.recordFailure] at ht ⊢
      by_cases hopens : s.breaker.Opens settings
      · rw [if_pos hopens] at ht ⊢
        rcases List.mem_cons.mp ht with rfl | ht
        · exact ⟨le_rfl, fun _ => ⟨hopens.1, le_rfl⟩⟩
        · exact ⟨(hnow t ht).1, fun _ => ⟨hopens.1, (hnow t ht).1⟩⟩
      · rw [if_neg hopens] at ht ⊢
        refine ⟨(hnow t ht).1, fun hlt => ?_⟩
        obtain ⟨hfailures, hopened⟩ := (hnow t ht).2 hlt
        exact ⟨hfailures.trans (Nat.le_succ _), hopened⟩
    · rw [if_neg hphase] at hstep
      cases hstep
  | leave c =>
    simp only [act] at hstep
    split_ifs at hstep
    cases hstep
    exact hnow
  | reset =>
    cases hstep
    exact fun t ht => nomatch ht

/-- A success that is recorded too early leaves a breaker that admits calls. -/
theorem not_shut_of_success (hthreshold : 1 ≤ settings.failureThreshold) (hkeeps : ¬ KeepsOpen settings s e)
    (hstep : step settings s e = some s') : ¬ s'.Shut settings := by
  obtain ⟨now, action⟩ := e
  unfold KeepsOpen at hkeeps
  push Not at hkeeps
  obtain ⟨⟨c, hc⟩, t, ht, hlt⟩ := hkeeps
  dsimp only at hc hlt
  subst hc
  unfold Breaker.step at hstep
  simp only [act] at hstep
  split_ifs at hstep
  cases hstep
  intro hshut
  have hrefused := hshut t ht now le_rfl hlt
  rw [CircuitBreaker.beforeCall_eq_false_iff] at hrefused
  exact absurd hrefused.1 (by
    show ¬ settings.failureThreshold ≤ 0
    omega)

/-- **An open circuit stays open for the recovery time** in just the runs that meet the condition. -/
theorem open_stays_open (hthreshold : 1 ≤ settings.failureThreshold) (clock : ℚ) {events : List (Event κ)}
    (h : run (step settings) (init clock) events = some s') :
    (∀ before after s, events = before ++ after → run (step settings) (init clock) before = some s →
        s.Shut settings) ↔ Along (step settings) (KeepsOpen settings) (init clock) events := by
  constructor
  · intro hshut
    refine along_of_at h fun before e after s hevents hs => ?_
    by_contra hkeeps
    rw [hevents] at h
    obtain ⟨t, ht, h⟩ := run_append_iff.mp h
    obtain rfl := Option.some.inj (hs.symm.trans ht)
    obtain ⟨u, hu, -⟩ := run_cons_iff.mp h
    refine not_shut_of_success hthreshold hkeeps hu (hshut (before ++ [e]) after u (by simp [hevents]) ?_)
    exact run_snoc_iff.mpr ⟨s, hs, hu⟩
  · rintro hkeeps before after s rfl hs
    have hopen : s.Open settings := run_inv_along (I := State.Open settings)
      (fun _ _ _ hi hp hstep => hi.step hp hstep) (fun t ht => (List.not_mem_nil ht).elim)
      ((along_append hs).mp hkeeps).1 hs
    exact hopen.shut

end Step

/-- Three calls of four fail, and the circuit opens. -/
def openingEvents : List (Event ℕ) :=
  [⟨1, .beforeCall 0⟩, ⟨1, .beforeCall 1⟩, ⟨1, .beforeCall 2⟩, ⟨1, .beforeCall 3⟩, ⟨2, .recordFailure 0⟩,
    ⟨2, .recordFailure 1⟩, ⟨2, .recordFailure 2⟩]

theorem open_stays_open_first :
    (run (step defaultSettings) (init 0) openingEvents).isSome = true ∧ ∀ s',
      run (step defaultSettings) (init 0) openingEvents = some s' →
        ((∀ before after s, openingEvents = before ++ after → run (step defaultSettings) (init 0) before = some s →
            s.Shut defaultSettings) ↔ Along (step defaultSettings) (KeepsOpen defaultSettings) (init 0) openingEvents) :=
  ⟨by decide +kernel, fun _ h => open_stays_open (by decide) 0 h⟩

/-- **An early success closes an open circuit**: the fourth call was admitted before, and is answered a second after the
opening; a call at that time is admitted. -/
theorem early_success : ¬ ∀ (events : List (Event ℕ)) s, run (step defaultSettings) (init 0) events = some s →
    s.Shut defaultSettings := by
  intro h
  have hopenings : (run (step defaultSettings) (init 0) (openingEvents ++ [⟨3, .recordSuccess 3⟩])).map
      (fun s => (s.openings, s.clock, (s.breaker.beforeCall defaultSettings 3).1)) = some ([2], 3, true) := by
    decide +kernel
  obtain ⟨s, hs, hstate⟩ := Option.map_eq_some_iff.mp hopenings
  obtain ⟨hopening, hclock, hadmitted⟩ : s.openings = [2] ∧ s.clock = 3 ∧
      (s.breaker.beforeCall defaultSettings 3).1 = true := by simpa using hstate
  have hshut := h _ s hs 2 (by rw [hopening]; exact List.mem_singleton_self 2) 3 hclock.le (by decide +kernel)
  rw [hadmitted] at hshut
  cases hshut

end LlmStore.Breaker
