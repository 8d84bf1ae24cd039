import Mathlib.Data.Finset.Card
import LlmStore.Inference.Forward
import LlmStore.Proxy.CircuitBreaker

/-!
# Fallback with one circuit breaker

A model with two routes, of which the backend of the first answers every post with an error on its side and that of the
second every post with a response. `step` is one step of any number of `_chat_with_fallback` calls (`api/client.py`);
all of them use one circuit breaker. Each failure of the first backend is followed by a success of the second one, which
resets the breaker, but not before other calls have reported their failures. The calls are served in every order just if
so few are in flight at a time that their failures cannot open the breaker (`fallback_serves`).
-/

namespace LlmStore.Breaker.Fallback

open LlmStore.Lib LlmStore.Inference

inductive Route where
  | first
  | second
  deriving DecidableEq

/-- Where a call is. -/
inductive Phase where
  /-- Before `before_call` for the route. -/
  | before (r : Route)
  /-- `_json_forward` or `_streaming_forward`, to the backend of the route. -/
  | posting (r : Route)
  /-- The call has returned the response of the second backend. -/
  | returned
  | raised (statusCode : ℕ)
  deriving DecidableEq

namespace Phase

def inFlight : Phase → Bool
  | .posting _ | .before .second => true
  | _ => false

/-- The call has recorded the failure of the first backend and not yet the success of the second. -/
def failed : Phase → Bool
  | .before .second | .posting .second => true
  | _ => false

/-- The steps up to the return. -/
def rank : Phase → ℕ
  | .posting .first => 3
  | .before .second => 2
  | .posting .second => 1
  | _ => 0

end Phase

/-- `except HTTPException` of `_chat_with_fallback`: the next route, unless the error is not retryable or there is none. -/
def afterError (r : Route) (statusCode : ℕ) : Phase :=
  match r with
  | .first => if isRetryable statusCode then .before .second else .raised statusCode
  | .second => .raised statusCode

/-- Calls are named by `κ`. -/
structure State (κ : Type*) where
  breaker : CircuitBreaker
  clock : ℚ
  phase : κ → Phase

inductive Action (κ : Type*) where
  | beforeCall (c : κ)
  /-- The first backend fails, with its last error. -/
  | fail (c : κ) (e : PostError)
  /-- The second backend answers. -/
  | succeed (c : κ)

def Action.call {κ : Type*} : Action κ → κ
  | .beforeCall c => c
  | .fail c _ => c
  | .succeed c => c

structure Event (κ : Type*) where
  now : ℚ
  action : Action κ

section Step

variable {κ : Type*} [DecidableEq κ]

def init (clock : ℚ) : State κ where
  breaker := .closed
  clock
  phase := fun _ => .before .first

def State.move (s : State κ) (breaker : CircuitBreaker) (c : κ) (p : Phase) : State κ :=
  { s with breaker, phase := Function.update s.phase c p }

@[simp] theorem State.move_phase_self (s : State κ) (b : CircuitBreaker) (c : κ) (p : Phase) :
    (s.move b c p).phase c = p := Function.update_self _ _ _

theorem State.move_phase_ne (s : State κ) (b : CircuitBreaker) {c c' : κ} (h : c' ≠ c) (p : Phase) :
    (s.move b c p).phase c' = s.phase c' := Function.update_of_ne h _ _

variable (settings : Settings)

/-- One action, when the clock has come to its time. -/
def act (s : State κ) (now : ℚ) : Action κ → Option (State κ)
  | .beforeCall c =>
    match s.phase c with
    | .before r =>
      some (s.move (s.breaker.beforeCall settings now).2 c
        (if (s.breaker.beforeCall settings now).1 then .posting r else afterError r 503))
    | _ => none
  | .fail c e =>
    match s.phase c, e.toExc.httpError with
    | .posting .first, some err =>
      if e.onBackendSide then some (s.move (s.breaker.recordFailure settings now) c (afterError .first err.statusCode))
      else none
    | _, _ => none
  | .succeed c =>
    match s.phase c with
    | .posting .second => some (s.move s.breaker.recordSuccess c .returned)
    | _ => none

def step (s : State κ) (e : Event κ) : Option (State κ) :=
  if s.clock ≤ e.now then act settings { s with clock := e.now } e.now e.action else none

omit [DecidableEq κ] in
/-- At most `m` calls are in flight. -/
def State.AtMost (m : ℕ) (s : State κ) : Prop :=
  ∀ calls : Finset κ, (∀ c ∈ calls, (s.phase c).inFlight = true) → calls.card ≤ m

/-- No call has raised, and every call in flight can go on to its return. -/
def State.Serves (s : State κ) : Prop :=
  ∀ c, (∀ statusCode, s.phase c ≠ .raised statusCode) ∧
    ((s.phase c).inFlight = true → ∃ events t, run (step settings) s events = some t ∧ t.phase c = .returned)

/-! ## What a step does -/

variable {settings} {s t : State κ} {e : Event κ}

/-- An error on the backend's side is answered with 503. -/
theorem httpError_of_onBackendSide {e : PostError} (h : e.onBackendSide = true) :
    ∃ err, e.toExc.httpError = some err ∧ err.statusCode = 503 := by
  cases e with
  | transport => exact ⟨_, rfl, rfl⟩
  | httpStatus statusCode shown =>
    have hge : ¬ statusCode < 500 := by simpa [PostError.onBackendSide] using h
    refine ⟨⟨503, "data plane unavailable", []⟩, ?_, rfl⟩
    rw [PostError.toExc, if_neg hge]
    rfl

/-- All that a step can do. -/
inductive Effect (settings : Settings) (s : State κ) (now : ℚ) : State κ → Prop
  | admitted (c : κ) (r : Route) (hphase : s.phase c = .before r)
      (h : (s.breaker.beforeCall settings now).1 = true) :
      Effect settings s now
        ({ s with clock := now }.move (s.breaker.beforeCall settings now).2 c (.posting r))
  | refused (c : κ) (r : Route) (hphase : s.phase c = .before r)
      (h : (s.breaker.beforeCall settings now).1 = false) :
      Effect settings s now ({ s with clock := now }.move s.breaker c (afterError r 503))
  | failed (c : κ) (hphase : s.phase c = .posting .first) :
      Effect settings s now
        ({ s with clock := now }.move (s.breaker.recordFailure settings now) c (.before .second))
  | succeeded (c : κ) (hphase : s.phase c = .posting .second) :
      Effect settings s now ({ s with clock := now }.move .closed c .returned)

theorem effect_of_step (h : step settings s e = some t) : s.clock ≤ e.now ∧ Effect settings s e.now t := by
  obtain ⟨now, action⟩ := e
  unfold step at h
  split_ifs at h with hclock
  refine ⟨hclock, ?_⟩
  cases action with
  | beforeCall c =>
    simp only [act] at h
    split at h
    · rename_i r hphase
      cases h
      by_cases hadmitted : (s.breaker.beforeCall settings now).1 = true
      · rw [if_pos hadmitted]
        exact .admitted c r hphase hadmitted
      · rw [if_neg hadmitted]
        have hrefused : (s.breaker.beforeCall settings now).1 = false := by simpa using hadmitted
        have hsame := CircuitBreaker.beforeCall_of_refused hrefused
        simp only [hsame]
        exact .refused c r hphase hrefused
    · cases h
  | fail c e =>
    simp only [act] at h
    split at h
    · rename_i err hphase herr
      split_ifs at h with hside
      cases h
      obtain ⟨err', herr', hstatus⟩ := httpError_of_onBackendSide hside
      obtain rfl := Option.some.inj (herr.symm.trans herr')
      rw [hstatus]
      exact .failed c hphase
    · cases h
  | succeed c =>
    simp only [act] at h
    split at h
    · rename_i hphase
      cases h
      exact .succeeded c hphase
    · cases h

/-- The other calls are where they were. -/
theorem phase_of_step (h : step settings s e = some t) {c : κ} (hc : c ≠ e.action.call) : t.phase c = s.phase c := by
  obtain ⟨now, action⟩ := e
  unfold step at h
  split_ifs at h
  cases action <;> simp only [act] at h <;> split at h <;> first | cases h | skip
  · exact Function.update_of_ne hc _ _
  · split_ifs at h
    cases h
    exact Function.update_of_ne hc _ _
  · exact Function.update_of_ne hc _ _

omit [DecidableEq κ] in
/-- Fewer calls are in flight. -/
theorem State.AtMost.mono {m : ℕ} (h : s.AtMost m)
    (hphase : ∀ c, (t.phase c).inFlight = true → (s.phase c).inFlight = true) : t.AtMost m :=
  fun calls hcalls => h calls fun c hc => hphase c (hcalls c hc)

/-! ## Few calls -/

/-- The recorded failures are those of calls that have not yet recorded a success. -/
def State.Counted (s : State κ) : Prop :=
  ∃ calls : Finset κ, (∀ c ∈ calls, (s.phase c).failed = true) ∧ s.breaker.failures ≤ calls.card

theorem Phase.inFlight_of_failed {p : Phase} (h : p.failed = true) : p.inFlight = true := by
  unfold failed at h
  unfold inFlight
  split at h <;> first | rfl | cases h

omit [DecidableEq κ] in
/-- With fewer calls in flight than failures that open the breaker, calls are admitted. -/
theorem State.Counted.admits {m : ℕ} (h : s.Counted) (hm : s.AtMost m) (hlt : m < settings.failureThreshold) (now : ℚ) :
    s.breaker.beforeCall settings now = (true, s.breaker) := by
  obtain ⟨calls, hcalls, hfailures⟩ := h
  have hcard := hm calls fun c hc => Phase.inFlight_of_failed (hcalls c hc)
  rw [CircuitBreaker.beforeCall, if_pos (by omega)]

/-! ## What every run keeps -/

def State.Unraised (s : State κ) : Prop := ∀ c statusCode, s.phase c ≠ .raised statusCode

/-- Calls are admitted from now on. -/
def State.Admits (settings : Settings) (s : State κ) : Prop :=
  ∀ now, s.clock ≤ now → (s.breaker.beforeCall settings now).1 = true

theorem State.Unraised.move (h : s.Unraised) (b : CircuitBreaker) (now : ℚ) (c : κ) {p : Phase}
    (hp : ∀ statusCode, p ≠ .raised statusCode) : (State.move { s with clock := now } b c p).Unraised := by
  intro c' statusCode
  by_cases hc : c' = c
  · subst hc
    rw [State.move_phase_self]
    exact hp statusCode
  · rw [State.move_phase_ne _ _ hc]
    exact h c' statusCode

/-- While calls are admitted, none raises. -/
theorem State.Unraised.step (h : s.Unraised) (hadmits : s.Admits settings)
    (hstep : Fallback.step settings s e = some t) : t.Unraised := by
  obtain ⟨hclock, heffect⟩ := effect_of_step hstep
  cases heffect with
  | admitted c r hphase hadmitted => exact h.move _ _ c fun _ hp => nomatch hp
  | refused c r hphase hrefused =>
    rw [hadmits e.now hclock] at hrefused
    cases hrefused
  | failed c hphase => exact h.move _ _ c fun _ hp => nomatch hp
  | succeeded c hphase => exact h.move _ _ c fun _ hp => nomatch hp

/-- A step of a call in flight brings no other call into flight. -/
theorem State.AtMost.step {m : ℕ} (h : s.AtMost m) (hstep : Fallback.step settings s e = some t)
    (hcall : (s.phase e.action.call).inFlight = true) : t.AtMost m := by
  refine h.mono fun c hc => ?_
  by_cases he : c = e.action.call
  · rwa [he]
  · rwa [phase_of_step hstep he] at hc

/-- One step keeps the count. -/
theorem State.Counted.step (h : s.Counted) (hadmits : s.Admits settings)
    (hstep : Fallback.step settings s e = some t) : t.Counted := by
  obtain ⟨hclock, heffect⟩ := effect_of_step hstep
  obtain ⟨calls, hcalls, hfailures⟩ := h
  have hother : ∀ (b : CircuitBreaker) (c : κ) (p : Phase), c ∉ calls → ∀ c' ∈ calls,
      ((State.move { s with clock := e.now } b c p).phase c').failed = true := by
    intro b c p hc c' hc'
    have hne : c' ≠ c := fun he => hc (he ▸ hc')
    rw [State.move_phase_ne _ _ hne]
    exact hcalls c' hc'
  cases heffect with
  | admitted c r hphase hadmitted =>
    have hle : (s.breaker.beforeCall settings e.now).2.failures ≤ calls.card := by
      unfold CircuitBreaker.beforeCall
      split_ifs
      · exact hfailures
      · exact Nat.zero_le _
      · exact hfailures
    by_cases hc : c ∈ calls
    · refine ⟨calls, fun c' hc' => ?_, hle⟩
      by_cases he : c' = c
      · subst he
        have hfailed := hcalls c' hc'
        rw [hphase] at hfailed
        rw [State.move_phase_self]
        cases r with
        | first => cases hfailed
        | second => rfl
      · rw [State.move_phase_ne _ _ he]
        exact hcalls c' hc'
    · exact ⟨calls, hother _ c _ hc, hle⟩
  | refused c r hphase hrefused =>
    rw [hadmits e.now hclock] at hrefused
    cases hrefused
  | failed c hphase =>
    have hc : c ∉ calls := by
      intro hc
      have hfailed := hcalls c hc
      rw [hphase] at hfailed
      cases hfailed
    refine ⟨insert c calls, fun c' hc' => ?_, ?_⟩
    · rcases Finset.mem_insert.mp hc' with rfl | hc'
      · rw [State.move_phase_self]
        rfl
      · exact hother _ c _ hc c' hc'
    · rw [Finset.card_insert_of_notMem hc]
      exact Nat.succ_le_succ hfailures
  | succeeded c hphase => exact ⟨∅, fun c' hc' => (Finset.notMem_empty c' hc').elim, Nat.zero_le _⟩

/-! ## No recovery time -/

/-- An open breaker has opened before now. -/
def State.Elapsed (settings : Settings) (s : State κ) : Prop :=
  settings.failureThreshold ≤ s.breaker.failures ∨ s.breaker.openedAt ≠ 0 → s.breaker.openedAt ≤ s.clock

omit [DecidableEq κ] in
/-- Without a recovery time every call is admitted. -/
theorem State.Elapsed.admits (h : s.Elapsed settings) (hrecovery : settings.recoverySeconds ≤ 0) :
    s.Admits settings := by
  intro now hclock
  by_contra hrefused
  rw [Bool.not_eq_true, CircuitBreaker.beforeCall_eq_false_iff] at hrefused
  have hopened := h (.inl hrefused.1)
  linarith [hrefused.2]

theorem State.Elapsed.step (h : s.Elapsed settings) (hthreshold : 0 < settings.failureThreshold)
    (hstep : Fallback.step settings s e = some t) : t.Elapsed settings := by
  obtain ⟨hclock, heffect⟩ := effect_of_step hstep
  have hclosed : ∀ s' : State κ, s'.breaker = .closed → s'.Elapsed settings := by
    rintro s' hs' (hopen | hopen)
    · rw [hs'] at hopen
      exact absurd hopen (Nat.not_le.mpr hthreshold)
    · rw [hs'] at hopen
      exact absurd rfl hopen
  cases heffect with
  | admitted c r hphase hadmitted =>
    unfold CircuitBreaker.beforeCall at hadmitted ⊢
    split_ifs at hadmitted ⊢
    · exact fun hopen => (h hopen).trans hclock
    · exact hclosed _ rfl
  | refused c r hphase hrefused => exact fun hopen => (h hopen).trans hclock
  | failed c hphase =>
    intro hopen
    simp only [State.move, CircuitBreaker.recordFailure] at hopen ⊢
    by_cases hopens : s.breaker.Opens settings
    · rw [if_pos hopens]
    · rw [if_neg hopens] at hopen ⊢
      refine (h ?_).trans hclock
      by_contra hnot
      rw [not_or, not_not] at hnot
      exact hopens ⟨hopen.resolve_right (not_not.mpr hnot.2), hnot.2⟩
  | succeeded c hphase => exact hclosed _ rfl

/-! ## Going on -/

/-- A call in flight goes on to its return if its own steps keep calls admitted. -/
theorem returns_of_inv {I : State κ → Prop} (hadmits : ∀ s, I s → s.Admits settings)
    (hstep : ∀ s e t, I s → (s.phase e.action.call).inFlight = true → step settings s e = some t → I t) {c : κ} :
    ∀ (n : ℕ) (s : State κ), (s.phase c).rank = n → (s.phase c).inFlight = true → I s →
      ∃ events t, run (step settings) s events = some t ∧ t.phase c = .returned := by
  intro n
  induction n using Nat.strong_induction_on with
  | _ n ih =>
    intro s hrank hflight hI
    -- one more step, to a smaller rank
    have hgo : ∀ (a : Action κ) (b : CircuitBreaker) (p : Phase), a.call = c →
        act settings s s.clock a = some (s.move b c p) → p.rank < n → p.inFlight = true →
        ∃ events t, run (step settings) s events = some t ∧ t.phase c = .returned := by
      intro a b p hcall hact hlt hp
      have he : step settings s ⟨s.clock, a⟩ = some (s.move b c p) := by
        rw [step, if_pos le_rfl]
        exact hact
      have hphase : (s.move b c p).phase c = p := s.move_phase_self b c p
      obtain ⟨events, t, hrun, ht⟩ := ih p.rank hlt (s.move b c p) (by rw [hphase]) (by rw [hphase, hp])
        (hstep s _ _ hI (by rw [hcall]; exact hflight) he)
      exact ⟨_ :: events, t, run_cons_iff.mpr ⟨_, he, hrun⟩, ht⟩
    match hphase : s.phase c with
    | .posting .first =>
      rw [hphase] at hrank
      refine hgo (.fail c .transport) (s.breaker.recordFailure settings s.clock) (.before .second) rfl ?_
        (hrank ▸ by decide) rfl
      rw [act, hphase]
      rfl
    | .before .second =>
      rw [hphase] at hrank
      refine hgo (.beforeCall c) (s.breaker.beforeCall settings s.clock).2 (.posting .second) rfl ?_
        (hrank ▸ by decide) rfl
      rw [act, hphase]
      dsimp only
      rw [if_pos (hadmits s hI s.clock le_rfl)]
    | .posting .second =>
      refine ⟨[⟨s.clock, .succeed c⟩], s.move .closed c .returned, ?_, s.move_phase_self _ _ _⟩
      rw [run_cons_iff]
      refine ⟨_, ?_, rfl⟩
      rw [step, if_pos le_rfl, act, hphase]
      rfl
    | .before .first =>
      rw [hphase] at hflight
      cases hflight
    | .returned =>
      rw [hphase] at hflight
      cases hflight
    | .raised statusCode =>
      rw [hphase] at hflight
      cases hflight

/-! ## Runs -/

/-- After the step at most `m` calls are in flight. -/
def KeepsTo (settings : Settings) (m : ℕ) (s : State κ) (e : Event κ) : Prop :=
  ∀ t, step settings s e = some t → t.AtMost m

omit [DecidableEq κ] in
theorem counted_init (clock : ℚ) : (init clock : State κ).Counted :=
  ⟨∅, fun c hc => (Finset.notMem_empty c hc).elim, Nat.zero_le _⟩

omit [DecidableEq κ] in
theorem unraised_init (clock : ℚ) : (init clock : State κ).Unraised := fun _ _ h => nomatch h

omit [DecidableEq κ] in
theorem atMost_init (clock : ℚ) (m : ℕ) : (init clock : State κ).AtMost m := by
  intro calls hcalls
  have hempty : calls = ∅ := Finset.eq_empty_of_forall_notMem fun c hc => nomatch hcalls c hc
  rw [hempty]
  exact Nat.zero_le m

/-- With fewer calls in flight than failures that open the breaker, all are served. -/
theorem serves_of_few {m : ℕ} (hlt : m < settings.failureThreshold) {clock : ℚ} {events : List (Event κ)}
    (hfew : Along (step settings) (KeepsTo settings m) (init clock) events)
    (h : run (step settings) (init clock) events = some s) : s.Serves settings := by
  let I : State κ → Prop := fun s => s.Counted ∧ s.AtMost m ∧ s.Unraised
  have hadmits : ∀ s, I s → s.Admits settings := fun s hI now _ => by rw [hI.1.admits hI.2.1 hlt now]
  have hstep : ∀ s e t, I s → t.AtMost m → step settings s e = some t → I t := fun s e t hI hm hst =>
    ⟨hI.1.step (hadmits s hI) hst, hm, hI.2.2.step (hadmits s hI) hst⟩
  have hs : I s := run_inv_along (fun s e t hI hkeeps hst => hstep s e t hI (hkeeps t hst) hst)
    ⟨counted_init clock, atMost_init clock m, unraised_init clock⟩ hfew h
  refine fun c => ⟨hs.2.2 c, fun hflight => ?_⟩
  exact returns_of_inv hadmits (fun s e t hI hcall hst => hstep s e t hI (hI.2.1.step hst hcall) hst) _ s rfl hflight hs

/-- Without a recovery time all calls are served. -/
theorem serves_of_no_recovery (hthreshold : 0 < settings.failureThreshold) (hrecovery : settings.recoverySeconds ≤ 0)
    {clock : ℚ} {events : List (Event κ)} (h : run (step settings) (init clock) events = some s) :
    s.Serves settings := by
  let I : State κ → Prop := fun s => s.Elapsed settings ∧ s.Unraised
  have hadmits : ∀ s, I s → s.Admits settings := fun s hI => hI.1.admits hrecovery
  have hstep : ∀ s e t, I s → step settings s e = some t → I t := fun s e t hI hst =>
    ⟨hI.1.step hthreshold hst, hI.2.step (hadmits s hI) hst⟩
  have hinit : (init clock : State κ).Elapsed settings := by
    rintro (hopen | hopen)
    · exact absurd hopen (Nat.not_le.mpr hthreshold)
    · exact absurd rfl hopen
  have hs : I s := run_inv hstep ⟨hinit, unraised_init clock⟩ h
  refine fun c => ⟨hs.2 c, fun hflight => ?_⟩
  exact returns_of_inv hadmits (fun s e t hI _ hst => hstep s e t hI hst) _ s rfl hflight hs

end Step

/-! ## Too many calls -/

section Crowd

variable {settings : Settings}

/-- So many calls have posted to the first backend, and the first `failed` of them have recorded its failure. -/
def crowd (settings : Settings) (posted failed : ℕ) : State ℕ where
  breaker := { failures := failed, openedAt := if settings.failureThreshold ≤ failed then 1 else 0 }
  clock := 1
  phase c := if c < failed then .before .second else if c < posted then .posting .first else .before .first

def postAll (n : ℕ) : List (Event ℕ) := (List.range n).map fun c => ⟨1, .beforeCall c⟩

def failAll (n : ℕ) : List (Event ℕ) := (List.range n).map fun c => ⟨1, .fail c .transport⟩

theorem step_crowd (posted failed : ℕ) (a : Action ℕ) :
    step settings (crowd settings posted failed) ⟨1, a⟩ = act settings (crowd settings posted failed) 1 a := by
  show (if (1 : ℚ) ≤ 1 then act settings (crowd settings posted failed) 1 a else none) = _
  rw [if_pos le_rfl]

theorem run_postAll (hthreshold : 0 < settings.failureThreshold) (n : ℕ) :
    run (step settings) (init 1) (postAll n) = some (crowd settings n 0) := by
  induction n with
  | zero =>
    show some _ = some _
    rw [crowd, init, if_neg (by omega)]
    rfl
  | succ n ih =>
    rw [postAll, List.range_succ, List.map_append, List.map_singleton, run_snoc_iff]
    refine ⟨_, ih, ?_⟩
    have hphase : (crowd settings n 0).phase n = .before .first := by simp [crowd]
    have hadmitted : (crowd settings n 0).breaker.beforeCall settings 1 = (true, (crowd settings n 0).breaker) := by
      rw [CircuitBreaker.beforeCall, if_pos (show (crowd settings n 0).breaker.failures < _ from hthreshold)]
    rw [step_crowd, act, hphase]
    simp only [hadmitted, if_true]
    simp only [State.move, crowd, Option.some.injEq, State.mk.injEq, true_and]
    funext c
    by_cases hc : c = n
    · subst hc
      simp
    · rw [Function.update_of_ne hc]
      simp only [Nat.not_lt_zero, if_false]
      have : c < n + 1 ↔ c < n := by omega
      simp only [this]

theorem run_failAll {posted : ℕ} (n : ℕ) (hn : n ≤ posted)
    (hle : n ≤ settings.failureThreshold) :
    run (step settings) (crowd settings posted 0) (failAll n) = some (crowd settings posted n) := by
  induction n with
  | zero => rfl
  | succ n ih =>
    rw [failAll, List.range_succ, List.map_append, List.map_singleton, run_snoc_iff]
    refine ⟨_, ih (by omega) (by omega), ?_⟩
    have hphase : (crowd settings posted n).phase n = .posting .first := by
      simp only [crowd, lt_irrefl, if_false]
      rw [if_pos (by omega)]
    have hopens : (crowd settings posted n).breaker.Opens settings ↔ settings.failureThreshold ≤ n + 1 := by
      simp only [CircuitBreaker.Opens, crowd]
      rw [if_neg (by omega)]
      simp
    have hzero : (crowd settings posted n).breaker.openedAt = 0 := by
      simp only [crowd]
      rw [if_neg (by omega)]
    rw [step_crowd, act, hphase]
    simp only [PostError.toExc, Exc.httpError, PostError.onBackendSide, if_true, Option.some.injEq]
    rw [State.move, CircuitBreaker.recordFailure, hzero]
    simp only [hopens]
    simp only [crowd, State.mk.injEq, true_and]
    funext c
    by_cases hc : c = n
    · subst hc
      simp [afterError, isRetryable]
    · rw [Function.update_of_ne hc]
      have : c < n + 1 ↔ c < n := by omega
      simp only [this]

/-- The run that opens the breaker, and the first call's search for the second backend. -/
def crowdEvents (settings : Settings) : List (Event ℕ) :=
  postAll settings.failureThreshold ++ failAll settings.failureThreshold ++ [⟨1, .beforeCall 0⟩]

/-- **A call is refused the healthy backend.** -/
theorem run_crowdEvents (hthreshold : 0 < settings.failureThreshold) (hrecovery : 0 < settings.recoverySeconds) :
    ∃ s, run (step settings) (init 1) (crowdEvents settings) = some s ∧ s.phase 0 = .raised 503 := by
  have hcrowd : run (step settings) (init 1)
      (postAll settings.failureThreshold ++ failAll settings.failureThreshold) =
      some (crowd settings settings.failureThreshold settings.failureThreshold) :=
    run_append_iff.mpr ⟨_, run_postAll hthreshold _, run_failAll _ le_rfl le_rfl⟩
  let full := crowd settings settings.failureThreshold settings.failureThreshold
  refine ⟨full.move full.breaker 0 (.raised 503), run_snoc_iff.mpr ⟨full, hcrowd, ?_⟩, full.move_phase_self _ _ _⟩
  have hphase : (crowd settings settings.failureThreshold settings.failureThreshold).phase 0 = .before .second := by
    simp only [crowd]
    rw [if_pos hthreshold]
  have hrefused : ((crowd settings settings.failureThreshold settings.failureThreshold).breaker.beforeCall
      settings 1).1 = false := by
    rw [CircuitBreaker.beforeCall_eq_false_iff]
    refine ⟨le_rfl, ?_⟩
    simp only [crowd, le_refl, if_true, sub_self]
    exact hrecovery
  have hsame := CircuitBreaker.beforeCall_of_refused hrefused
  rw [step_crowd, act, hphase]
  simp only [hrefused, hsame]
  rfl

/-- In that run only so many calls are in flight. -/
theorem crowdEvents_keepsTo {m : ℕ} (hm : settings.failureThreshold ≤ m) (hthreshold : 0 < settings.failureThreshold)
    {s : State ℕ} (h : run (step settings) (init 1) (crowdEvents settings) = some s) :
    Along (step settings) (KeepsTo settings m) (init 1) (crowdEvents settings) := by
  have hcalls : ∀ e ∈ crowdEvents settings, e.action.call < settings.failureThreshold := by
    intro e he
    simp only [crowdEvents, postAll, failAll, List.mem_append, List.mem_map, List.mem_range, List.mem_singleton] at he
    rcases he with (⟨c, hc, rfl⟩ | ⟨c, hc, rfl⟩) | rfl
    · exact hc
    · exact hc
    · exact hthreshold
  -- the other calls have not started
  have hidle : ∀ (events : List (Event ℕ)) (s t : State ℕ), (∀ e ∈ events, e.action.call < settings.failureThreshold) →
      (∀ c, settings.failureThreshold ≤ c → s.phase c = .before .first) → run (step settings) s events = some t →
      ∀ c, settings.failureThreshold ≤ c → t.phase c = .before .first := by
    intro events
    induction events with
    | nil =>
      intro s t _ hs hrun
      cases hrun
      exact hs
    | cons e events ih =>
      intro s t he hs hrun
      obtain ⟨u, hu, hrun⟩ := run_cons_iff.mp hrun
      refine ih u t (fun e' he' => he e' (.tail _ he')) (fun c hc => ?_) hrun
      have hne : c ≠ e.action.call := by
        have := he e List.mem_cons_self
        omega
      rw [phase_of_step hu hne, hs c hc]
  refine along_of_at h fun before e after t hevents ht u hu => ?_
  have hu' : run (step settings) (init 1) (before ++ [e]) = some u := run_snoc_iff.mpr ⟨t, ht, hu⟩
  have hmem : ∀ e' ∈ before ++ [e], e' ∈ crowdEvents settings := by
    intro e' he'
    rw [hevents, List.append_cons]
    exact List.mem_append_left _ he'
  have hrest := hidle _ _ u (fun e' he' => hcalls e' (hmem e' he')) (fun _ _ => rfl) hu'
  intro calls hflight
  have hsub : calls ⊆ Finset.range settings.failureThreshold := by
    intro c hc
    rw [Finset.mem_range]
    by_contra hge
    have hin := hflight c hc
    rw [hrest c (by omega)] at hin
    cases hin
  calc calls.card ≤ (Finset.range settings.failureThreshold).card := Finset.card_le_card hsub
    _ = settings.failureThreshold := Finset.card_range _
    _ ≤ m := hm

end Crowd

/-- **A healthy fallback keeps serving** all runs with at most `m` calls in flight at a time, just if their failures
cannot open the breaker, or an open breaker refuses nothing. -/
theorem fallback_serves (settings : Settings) (hthreshold : 2 ≤ settings.failureThreshold) (m : ℕ) :
    (∀ (clock : ℚ) (events : List (Event ℕ)) s, run (step settings) (init clock) events = some s →
        Along (step settings) (KeepsTo settings m) (init clock) events → s.Serves settings) ↔
      m < settings.failureThreshold ∨ settings.recoverySeconds ≤ 0 := by
  constructor
  · intro hserves
    by_contra hnot
    rw [not_or, not_lt, not_le] at hnot
    obtain ⟨s, hs, hraised⟩ := run_crowdEvents (by omega) hnot.2
    exact (hserves 1 _ s hs (crowdEvents_keepsTo hnot.1 (by omega) hs) 0).1 503 hraised
  · rintro (hlt | hrecovery) clock events s hs hfew
    · exact serves_of_few hlt hfew hs
    · exact serves_of_no_recovery (by omega) hrecovery hs

theorem fallback_serves_two :
    2 < defaultSettings.failureThreshold ∧
      ((∀ (clock : ℚ) (events : List (Event ℕ)) s, run (step defaultSettings) (init clock) events = some s →
          Along (step defaultSettings) (KeepsTo defaultSettings 2) (init clock) events → s.Serves defaultSettings) ↔
        2 < defaultSettings.failureThreshold ∨ defaultSettings.recoverySeconds ≤ 0) :=
  ⟨by decide, fallback_serves defaultSettings (by decide) 2⟩

/-- **Three calls open the circuit** for the backend that is up: each has reported the failure of the first backend
before one of them goes on to the second. -/
theorem healthy_refused : ¬ ∀ (clock : ℚ) (events : List (Event ℕ)) s,
    run (step defaultSettings) (init clock) events = some s → s.Serves defaultSettings := by
  intro h
  have hraised : (run (step defaultSettings) (init 1)
      [⟨1, .beforeCall 0⟩, ⟨1, .beforeCall 1⟩, ⟨1, .beforeCall 2⟩, ⟨2, .fail 0 .transport⟩, ⟨2, .fail 1 .transport⟩,
        ⟨2, .fail 2 .transport⟩, ⟨2, .beforeCall 0⟩]).map (fun s => s.phase 0) = some (.raised 503) := by
    decide +kernel
  obtain ⟨s, hs, hphase⟩ := Option.map_eq_some_iff.mp hraised
  exact (h 1 _ s hs 0).1 503 hphase

end LlmStore.Breaker.Fallback
