import LlmStore.Inference.FixedOutcomes
import LlmStore.Lib.Tries
import LlmStore.Models.Routing

/-!
# Fallback over the routes

`_chat_with_fallback` (`api/client.py`) for any outcomes of `proxy.chat`: a result, an `HTTPException`, or another
exception. Only an `HTTPException` is caught, so the loop goes on to the next route after one that is retryable, and any
other exception is passed on at once (`chat_with_fallback`). The numbers of a result and the errors in the detail are
those of the calls made.
-/

namespace LlmStore.Inference

open LlmStore.Lib

universe u

variable {ε : Type u}

/-- What a call of `proxy.chat` comes to; `ε` are the exceptions other than an `HTTPException`. -/
inductive ChatOutcome (ε : Type u) where
  | returned (result : ForwardResult)
  | httpException (statusCode : ℕ) (detail : Detail)
  | raised (e : ε)

/-- What `_chat_with_fallback` comes to. -/
inductive FallbackOutcome (ε : Type u) where
  | returned (result : ForwardResult)
  | httpException (e : Exc)
  | raised (e : ε)

/-- The exception at the end of `_chat_with_fallback`. -/
def fallbackError (lastExc : Option (ℕ × Detail)) (backendErrors : List BackendError) : Exc :=
  match lastExc with
  | none => .http 503 (.text "model backend is not active")
  | some (statusCode, detail) => .routesFailed statusCode detail.str backendErrors

/-- The loop of `_chat_with_fallback` over the remaining routes of `total`, the first of which has the number `attempt`;
`outcomes` are those of the calls of `proxy.chat` still to come. The routes that are called, and what it comes to. -/
def fallbackLoop (total : ℕ) : ℕ → Option (ℕ × Detail) → List BackendError → List Models.ModelBackendRoute →
    (ℕ → ChatOutcome ε) → List Models.ModelBackendRoute × FallbackOutcome ε
  | _, lastExc, backendErrors, [], _ => ([], .httpException (fallbackError lastExc backendErrors))
  | attempt, lastExc, backendErrors, route :: routes, outcomes =>
    match route.inferenceBackend with
    | none => fallbackLoop total (attempt + 1) lastExc backendErrors routes outcomes
    | some backend =>
      match outcomes 0 with
      | .returned result =>
        ([route], .returned { result with attempts := attempt, fallbackUsed := attempt > 1, backendErrors })
      | .httpException statusCode detail =>
        let backendErrors := backendErrors ++ [serializeBackendError route backend statusCode detail]
        if !isRetryable statusCode || attempt == total then
          ([route], .httpException (fallbackError (some (statusCode, detail)) backendErrors))
        else
          let rest := fallbackLoop total (attempt + 1) (some (statusCode, detail)) backendErrors routes
            fun i => outcomes (i + 1)
          (route :: rest.1, rest.2)
      | .raised e => ([route], .raised e)

/-- `_chat_with_fallback`, with the routes in the order of `plan_routing_order`. -/
def chatThroughRoutes (routes : List Models.ModelBackendRoute) (outcomes : ℕ → ChatOutcome ε) :
    List Models.ModelBackendRoute × FallbackOutcome ε :=
  fallbackLoop routes.length 1 none [] routes outcomes

/-! ## The calls that are made -/

/-- No other route is called afterwards. -/
def ChatOutcome.stops : ChatOutcome ε → Bool
  | .returned _ => true
  | .httpException statusCode _ => !isRetryable statusCode
  | .raised _ => true

/-- The errors of the first `n` routes, in their order. -/
def Reported (routes : List Models.ModelBackendRoute) (outcomes : ℕ → ChatOutcome ε) (n : ℕ)
    (errors : List BackendError) : Prop :=
  errors.length = n ∧ ∀ i < n, ∃ route backend statusCode detail, routes[i]? = some route ∧
    route.inferenceBackend = some backend ∧ outcomes i = .httpException statusCode detail ∧
      errors[i]? = some (serializeBackendError route backend statusCode detail)

variable {routes : List Models.ModelBackendRoute} {route : Models.ModelBackendRoute}
  {backend : Models.InferenceBackend} {outcomes : ℕ → ChatOutcome ε} {errors : List BackendError} {n : ℕ}

theorem Reported.zero : Reported routes outcomes 0 [] := ⟨rfl, fun _ h => absurd h (Nat.not_lt_zero _)⟩

/-- The error of the first route, and then those of the others. -/
theorem Reported.cons {statusCode : ℕ} {detail : Detail} (hbackend : route.inferenceBackend = some backend)
    (houtcome : outcomes 0 = .httpException statusCode detail)
    (h : Reported routes (fun i => outcomes (i + 1)) n errors) : Reported (route :: routes) outcomes (n + 1)
      (serializeBackendError route backend statusCode detail :: errors) := by
  refine ⟨by rw [List.length_cons, h.1], fun i hi => ?_⟩
  cases i with
  | zero => exact ⟨route, backend, statusCode, detail, rfl, hbackend, houtcome, rfl⟩
  | succ i =>
    obtain ⟨r, b, s, d, hr, hb, ho, he⟩ := h.2 i (Nat.lt_of_succ_lt_succ hi)
    exact ⟨r, b, s, d, by simpa using hr, hb, ho, by simpa using he⟩

/-- What the loop comes to after `k` calls, of which the last has the outcome `last`: `reported n` are the errors of the
first `n` of them, and `made` were made before. -/
def ComesFrom (reported : ℕ → List BackendError → Prop) (made k : ℕ) (before : List BackendError) :
    ChatOutcome ε → FallbackOutcome ε → Prop
  | .returned result, outcome => ∃ errors, reported (k - 1) errors ∧ outcome = .returned
      { result with attempts := made + k, fallbackUsed := made + k > 1, backendErrors := before ++ errors }
  | .httpException statusCode detail, outcome => ∃ errors, reported k errors ∧
      outcome = .httpException (.routesFailed statusCode detail.str (before ++ errors))
  | .raised e, outcome => outcome = .raised e

/-- One more call before the others, with a retryable error. -/
theorem ComesFrom.cons {statusCode : ℕ} {detail : Detail} {made k : ℕ} {before : List BackendError}
    {last : ChatOutcome ε} {outcome : FallbackOutcome ε} (hbackend : route.inferenceBackend = some backend)
    (houtcome : outcomes 0 = .httpException statusCode detail) (hk : 0 < k)
    (h : ComesFrom (Reported routes fun i => outcomes (i + 1)) (made + 1) k
      (before ++ [serializeBackendError route backend statusCode detail]) last outcome) :
    ComesFrom (Reported (route :: routes) outcomes) made (k + 1) before last outcome := by
  obtain ⟨k, rfl⟩ := Nat.exists_eq_succ_of_ne_zero hk.ne'
  have hmade : made + 1 + (k + 1) = made + (k + 1 + 1) := by omega
  cases last with
  | returned result =>
    obtain ⟨errors, hreported, rfl⟩ := h
    refine ⟨_, Reported.cons hbackend houtcome hreported, ?_⟩
    rw [hmade, List.append_assoc, List.singleton_append]
  | httpException s d =>
    obtain ⟨errors, hreported, rfl⟩ := h
    refine ⟨_, Reported.cons hbackend houtcome hreported, ?_⟩
    rw [List.append_assoc, List.singleton_append]
  | raised e => exact h

section Loop

variable {total attempt : ℕ} {lastExc : Option (ℕ × Detail)} {before : List BackendError}

/-- The loop ends with this route. -/
theorem fallbackLoop_last (hbackend : route.inferenceBackend = some backend) {made : ℕ}
    (h : (outcomes 0).stops = true ∨ made + 1 = total) :
    (fallbackLoop total (made + 1) lastExc before (route :: routes) outcomes).1 = [route] ∧
      ComesFrom (Reported (route :: routes) outcomes) made 1 before (outcomes 0)
        (fallbackLoop total (made + 1) lastExc before (route :: routes) outcomes).2 := by
  rw [fallbackLoop]
  simp only [hbackend]
  cases houtcome : outcomes 0 with
  | returned result => exact ⟨rfl, [], Reported.zero, by rw [List.append_nil]⟩
  | raised e => exact ⟨rfl, rfl⟩
  | httpException statusCode detail =>
    have hlast : (!isRetryable statusCode || made + 1 == total) = true := by
      rw [houtcome] at h
      simpa [ChatOutcome.stops] using h
    simp only [hlast, if_true, true_and]
    exact ⟨_, Reported.cons hbackend houtcome Reported.zero, rfl⟩

/-- The loop goes on with the next route. -/
theorem fallbackLoop_next {statusCode : ℕ} {detail : Detail} (hbackend : route.inferenceBackend = some backend)
    (houtcome : outcomes 0 = .httpException statusCode detail) (hretry : isRetryable statusCode = true)
    (hmore : attempt ≠ total) : fallbackLoop total attempt lastExc before (route :: routes) outcomes =
      let rest := fallbackLoop total (attempt + 1) (some (statusCode, detail))
        (before ++ [serializeBackendError route backend statusCode detail]) routes fun i => outcomes (i + 1)
      (route :: rest.1, rest.2) := by
  have hgo : (!isRetryable statusCode || attempt == total) = false := by simp [hretry, hmore]
  rw [fallbackLoop]
  simp only [hbackend, houtcome, hgo, Bool.false_eq_true, if_false]

end Loop

/-- By induction on the routes: the ones that are called, and what the loop comes to after calls that were `made`. -/
theorem fallbackLoop_spec (hbackends : ∀ route ∈ routes, route.inferenceBackend.isSome = true) (made : ℕ)
    (lastExc : Option (ℕ × Detail)) (before : List BackendError) (outcomes : ℕ → ChatOutcome ε) (hne : routes ≠ []) :
    let k := tries routes.length fun i => (outcomes i).stops
    let loop := fallbackLoop (made + routes.length) (made + 1) lastExc before routes outcomes
    loop.1 = routes.take k ∧ ComesFrom (Reported routes outcomes) made k before (outcomes (k - 1)) loop.2 := by
  induction routes generalizing made lastExc before outcomes with
  | nil => exact absurd rfl hne
  | cons route routes ih =>
    obtain ⟨backend, hbackend⟩ := Option.isSome_iff_exists.mp (hbackends route List.mem_cons_self)
    dsimp only
    rw [List.length_cons]
    by_cases hlast : (outcomes 0).stops = true ∨ routes = []
    · have htries : (tries (routes.length + 1) fun i => (outcomes i).stops) = 1 := by
        rcases hlast with hstops | rfl
        · exact tries_succ_of_stops hstops
        · exact le_antisymm (tries_le 1 _) (tries_pos Nat.one_pos)
      have hend : (outcomes 0).stops = true ∨ made + 1 = made + (routes.length + 1) := by
        rcases hlast with hstops | rfl
        · exact .inl hstops
        · exact .inr rfl
      rw [htries]
      exact fallbackLoop_last hbackend hend
    · obtain ⟨hgo, hmore⟩ := not_or.mp hlast
      rw [Bool.not_eq_true] at hgo
      obtain ⟨statusCode, detail, houtcome, hretry⟩ : ∃ statusCode detail,
          outcomes 0 = .httpException statusCode detail ∧ isRetryable statusCode = true := by
        cases houtcome : outcomes 0 with
        | returned result => simp [houtcome, ChatOutcome.stops] at hgo
        | raised e => simp [houtcome, ChatOutcome.stops] at hgo
        | httpException s d => exact ⟨s, d, rfl, by simpa [houtcome, ChatOutcome.stops] using hgo⟩
      have hlength : 0 < routes.length := List.length_pos_iff.mpr hmore
      have htries : 0 < tries routes.length fun i => (outcomes (i + 1)).stops := tries_pos hlength
      obtain ⟨hcalls, hcomes⟩ := ih (fun r hr => hbackends r (List.mem_cons_of_mem _ hr)) (made + 1)
        (some (statusCode, detail)) (before ++ [serializeBackendError route backend statusCode detail])
        (fun i => outcomes (i + 1)) hmore
      rw [tries_succ_of_not hgo, fallbackLoop_next hbackend houtcome hretry (by omega)]
      have htotal : made + 1 + routes.length = made + (routes.length + 1) := by omega
      have hindex : tries routes.length (fun i => (outcomes (i + 1)).stops) - 1 + 1 =
          tries routes.length fun i => (outcomes (i + 1)).stops := Nat.sub_add_cancel htries
      rw [htotal] at hcalls hcomes
      rw [hindex] at hcomes
      dsimp only
      exact ⟨by rw [hcalls, List.take_succ_cons], hcomes.cons hbackend houtcome htries⟩

/-! ## The routes of a model -/

/-- Every route in the order has a backend. -/
theorem inferenceBackend_of_mem {model : Models.ModelRegistry} {draws : Stream' ℚ}
    (h : route ∈ Models.planRoutingOrder model draws) : route.inferenceBackend.isSome = true := by
  have heligible := Models.eligible_of_mem_planRoutingOrder h
  rw [Models.ModelBackendRoute.eligible, Bool.and_eq_true, Option.any_eq_true] at heligible
  obtain ⟨b, hb, -⟩ := heligible.1
  rw [hb, Option.isSome_some]

/-- **The fallback loop tries the right routes and reports them truthfully.** It calls the routes in their order up to
the first whose outcome is a result, an `HTTPException` with a status below 500 or another exception. A result is
returned with the number of the calls and the errors before it; an `HTTPException` is raised with the errors of all
calls; another exception is passed on. Without routes the model has no active backend. -/
theorem chat_with_fallback (model : Models.ModelRegistry) (draws : Stream' ℚ) (outcomes : ℕ → ChatOutcome ε) :
    let routes := Models.planRoutingOrder model draws
    let k := tries routes.length fun i => (outcomes i).stops
    let loop := chatThroughRoutes routes outcomes
    loop.1 = routes.take k ∧
      (routes = [] → loop.2 = .httpException (.http 503 (.text "model backend is not active"))) ∧
      (routes ≠ [] →
        (∀ result, outcomes (k - 1) = .returned result → ∃ errors, Reported routes outcomes (k - 1) errors ∧
          loop.2 = .returned { result with attempts := k, fallbackUsed := k > 1, backendErrors := errors }) ∧
        (∀ statusCode detail, outcomes (k - 1) = .httpException statusCode detail → ∃ errors,
          Reported routes outcomes k errors ∧
            loop.2 = .httpException (.routesFailed statusCode detail.str errors)) ∧
        ∀ e, outcomes (k - 1) = .raised e → loop.2 = .raised e) := by
  dsimp only
  generalize hroutes : Models.planRoutingOrder model draws = routes
  have hbackends : ∀ route ∈ routes, route.inferenceBackend.isSome = true := by
    intro route hroute
    rw [← hroutes] at hroute
    exact inferenceBackend_of_mem hroute
  by_cases hne : routes = []
  · subst hne
    exact ⟨rfl, fun _ => rfl, fun h => absurd rfl h⟩
  · obtain ⟨hcalls, hcomes⟩ := fallbackLoop_spec hbackends 0 none [] outcomes hne
    rw [Nat.zero_add, Nat.zero_add] at hcalls hcomes
    refine ⟨hcalls, fun h => absurd h hne, fun _ => ⟨fun result h => ?_, fun s d h => ?_, fun e h => ?_⟩⟩
    · rw [h] at hcomes
      obtain ⟨errors, hreported, hloop⟩ := hcomes
      refine ⟨errors, hreported, ?_⟩
      rw [Nat.zero_add] at hloop
      exact hloop
    · rw [h] at hcomes
      exact hcomes
    · rw [h] at hcomes
      exact hcomes

/-! ### An exception that is not caught -/

/-- A model with two routes, to active backends. -/
def twoRouteModel : Models.ModelRegistry where
  modelId := "local/model"
  modelAlias := none
  isActive := true
  isDefault := true
  createdAt := 0
  inferenceBackend := none
  backendRoutes := [
    { inferenceBackend := some { id := 0, name := "first", provider := "llama.cpp", isActive := true }
      priority := 1, weight := 100, state := .healthy, createdAt := 0 },
    { inferenceBackend := some { id := 1, name := "second", provider := "llama.cpp", isActive := true }
      priority := 2, weight := 100, state := .healthy, createdAt := 1 }]

theorem length_planRoutingOrder_twoRouteModel (draws : Stream' ℚ) :
    (Models.planRoutingOrder twoRouteModel draws).length = 2 := by
  rw [(Models.planRoutingOrder_perm twoRouteModel draws).length_eq]
  unfold Models.getRoutingCandidates twoRouteModel
  simp

/-- The outcome is a result or an `HTTPException` with a status below 500. -/
def ChatOutcome.answers : ChatOutcome ε → Bool
  | .returned _ => true
  | .httpException statusCode _ => !isRetryable statusCode
  | .raised _ => false

/-- **The loop does not always go on to the first route that answers**: the first call raises `JSONDecodeError`, for a
response with the status 200 that is not JSON, and the second route is not called. -/
theorem other_exception_ends_fallback : ¬ ∀ (model : Models.ModelRegistry) (draws : Stream' ℚ)
    (outcomes : ℕ → ChatOutcome PyError),
    (chatThroughRoutes (Models.planRoutingOrder model draws) outcomes).1 = (Models.planRoutingOrder model draws).take
      (tries (Models.planRoutingOrder model draws).length fun i => (outcomes i).answers) := by
  intro h
  let draws : Stream' ℚ := Stream'.const 0
  let outcomes : ℕ → ChatOutcome PyError := fun _ => .raised .jsonDecodeError
  have hlength := length_planRoutingOrder_twoRouteModel draws
  have hbackends : ∀ route ∈ Models.planRoutingOrder twoRouteModel draws, route.inferenceBackend.isSome = true :=
    fun _ hroute => inferenceBackend_of_mem hroute
  have hcalls := congrArg List.length (h twoRouteModel draws outcomes)
  obtain ⟨hone, -⟩ := fallbackLoop_spec hbackends 0 none [] outcomes (List.ne_nil_of_length_pos (by omega))
  rw [Nat.zero_add, Nat.zero_add] at hone
  rw [chatThroughRoutes, hone, List.length_take, List.length_take, hlength] at hcalls
  simp [tries, ChatOutcome.stops, ChatOutcome.answers, outcomes] at hcalls

/-! ## Outcomes that depend on the backend -/

def ChatOutcome.toExcept : ChatOutcome ε → Except Exc ForwardResult
  | .returned result => .ok result
  | .httpException statusCode detail => .error (.http statusCode detail)
  | .raised _ => .error .other

def FallbackOutcome.toExcept : FallbackOutcome ε → Except Exc ForwardResult
  | .returned result => .ok result
  | .httpException e => .error e
  | .raised _ => .error .other

/-- The calls have the outcomes of the backends of the routes. -/
def Replies (outcome : Models.InferenceBackend → Except Exc ForwardResult) (routes : List Models.ModelBackendRoute)
    (outcomes : ℕ → ChatOutcome ε) : Prop :=
  ∀ i route backend, routes[i]? = some route → route.inferenceBackend = some backend →
    outcome backend = (outcomes i).toExcept

/-- The loop is the one of `FixedOutcomes`, where the outcomes depend on the backend only. -/
theorem failOver_fallbackLoop {outcome : Models.InferenceBackend → Except Exc ForwardResult}
    (hbackends : ∀ route ∈ routes, route.inferenceBackend.isSome = true) (made : ℕ)
    (lastExc : Option (ℕ × Detail)) (before : List BackendError) (outcomes : ℕ → ChatOutcome ε)
    (hreplies : Replies outcome routes outcomes) :
    FixedOutcomes.failOver outcome (made + 1) lastExc before routes =
      (fallbackLoop (made + routes.length) (made + 1) lastExc before routes outcomes).2.toExcept := by
  induction routes generalizing made lastExc before outcomes with
  | nil => cases lastExc <;> rfl
  | cons route routes ih =>
    obtain ⟨backend, hbackend⟩ := Option.isSome_iff_exists.mp (hbackends route List.mem_cons_self)
    have hreply : outcome backend = (outcomes 0).toExcept := hreplies 0 route backend rfl hbackend
    have hrest := ih (fun r hr => hbackends r (List.mem_cons_of_mem _ hr)) (made + 1)
    have htotal : made + 1 + routes.length = made + (route :: routes).length := by
      rw [List.length_cons]
      omega
    rw [FixedOutcomes.failOver, fallbackLoop]
    simp only [hbackend, hreply]
    cases houtcome : outcomes 0 with
    | returned result => rfl
    | raised e => rfl
    | httpException statusCode detail =>
      simp only [ChatOutcome.toExcept]
      cases hretry : isRetryable statusCode with
      | false => rfl
      | true =>
        rw [if_pos rfl, hrest _ _ (fun i => outcomes (i + 1)) fun i r b hr => hreplies (i + 1) r b (by simpa using hr),
          htotal]
        cases routes with
        | nil => simp [fallbackLoop, fallbackError, FallbackOutcome.toExcept]
        | cons next routes => simp

/-- What `_chat_with_fallback` does where every backend has fixed replies and a free slot. -/
theorem chatWithFallback_chatThroughRoutes (settings : Settings) (reply : Models.InferenceBackend → FixedOutcomes.Reply)
    (hbackends : ∀ route ∈ routes, route.inferenceBackend.isSome = true) {w : World}
    (hready : FixedOutcomes.Ready (FixedOutcomes.scripts settings reply routes) w)
    (hfree : FixedOutcomes.Free w.slots routes) (hreplies : Replies (FixedOutcomes.callOutcome reply) routes outcomes) :
    ((chatWithFallback settings routes false).exec w).1 = (chatThroughRoutes routes outcomes).2.toExcept := by
  have hloop := failOver_fallbackLoop hbackends 0 none [] outcomes hreplies
  rw [Nat.zero_add, Nat.zero_add] at hloop
  rw [FixedOutcomes.chatWithFallback_failOver settings reply hready hfree, hloop]
  rfl

end LlmStore.Inference
