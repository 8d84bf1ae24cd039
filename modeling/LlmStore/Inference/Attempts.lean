import LlmStore.Inference.FixedOutcomes
import LlmStore.Inference.RenderedAnswer
import LlmStore.Lib.Tries

/-!
# The attempts of a call

`_json_forward` and `_streaming_forward` (`services/inference_proxy.py`) for any outcomes of their posts: how often they
post, what they report to the circuit breaker, and what they return or raise.

`_json_forward` reports a success before it reads the body, so a successful response that it cannot make and write an
answer of is reported as a success and then raises (`json_forward_accounts_iff`). Both format a rejection with
`_backend_error_detail`, but a response that was opened as a stream has not been read then (`failures_alike_iff`).
-/

namespace LlmStore.Inference.Attempts

open LlmStore.Lib

/-! ## Responses -/

/-- What `response.json()` raises. -/
inductive JsonError where
  | valueError
  /-- The body is nested too deep. -/
  | recursionError

/-- A response of a backend; `json` is what `response.json()` returns or raises. -/
structure Response where
  statusCode : ℕ
  json : Except JsonError Json
  text : List Char
  reasonPhrase : List Char

/-- A response as httpx hands it out: one that is opened as a stream has not been read. -/
structure Opened where
  response : Response
  isRead : Bool

/-- What an access to the body raises. -/
inductive BodyError where
  | json (e : JsonError)
  | responseNotRead

namespace Opened

variable (o : Opened)

/-- `response.json()`. -/
def json : Except BodyError Json :=
  if o.isRead then
    match o.response.json with
    | .ok value => .ok value
    | .error e => .error (.json e)
  else .error .responseNotRead

/-- `response.text`. -/
def text : Except BodyError (List Char) := if o.isRead then .ok o.response.text else .error .responseNotRead

end Opened

/-- The detail of an `HTTPException` of the proxy. -/
inductive FailureDetail where
  /-- `"data plane unavailable"`. -/
  | unavailable
  /-- With the message `"data plane rejected request"`. -/
  | rejected (backendStatusCode : ℕ) (backendResponse : Json)

/-- `_backend_error_detail` of an `HTTPStatusError`, which catches a `ValueError`. -/
def backendErrorDetail (o : Opened) : Except BodyError FailureDetail :=
  match o.json with
  | .ok backendResponse => .ok (.rejected o.response.statusCode backendResponse)
  | .error (.json .valueError) => do
    let text ← o.text
    let shown := text.take 500
    return .rejected o.response.statusCode (.str (if shown.isEmpty then o.response.reasonPhrase else shown))
  | .error e => .error e

/-- `exc` in `except (httpx.HTTPStatusError, httpx.TransportError) as exc`. -/
inductive Failure where
  | httpStatus (o : Opened)
  | transport

/-- `_should_trip_circuit_breaker`. -/
def Failure.trips : Failure → Bool
  | .httpStatus o => o.response.statusCode ≥ 500
  | .transport => true

/-- `retriable`. -/
def Failure.retriable : Failure → Bool
  | .httpStatus o => o.response.statusCode ≥ 500
  | .transport => true

/-! ## Calls -/

/-- What comes of a request to the backend. -/
inductive Attempt where
  | response (response : Response)
  | transportError

/-- The request and `raise_for_status()`. -/
def Attempt.checked (isRead : Bool) : Attempt → Response ⊕ Failure
  | .response r => if isSuccess r.statusCode then .inl r else .inr (.httpStatus ⟨r, isRead⟩)
  | .transportError => .inr .transport

/-- What a call does, apart from counters and logs. -/
inductive Step where
  | post
  | sleep (attempt : ℕ)
  | recordSuccess
  | recordFailure
  | closeClient
  deriving DecidableEq

/-- The exceptions other than an `HTTPException`. -/
inductive CallError where
  /-- While the answer is made of the body. -/
  | answer (e : PyError)
  | body (e : BodyError)
  /-- While the answer is written. -/
  | render

/-- What a call comes to. -/
inductive CallOutcome where
  | returned (statusCode : ℕ) (content : Json)
  /-- The stream is open. -/
  | streaming
  | httpException (statusCode : ℕ) (detail : FailureDetail)
  | raised (e : CallError)

/-- The `HTTPException` for a failure. -/
def raiseFailure : Option Failure → CallOutcome
  | some (.httpStatus o) =>
    if o.response.statusCode < 500 then
      match backendErrorDetail o with
      | .ok detail => .httpException o.response.statusCode detail
      | .error e => .raised (.body e)
    else .httpException 503 .unavailable
  | _ => .httpException 503 .unavailable

/-- What is reported of a failure. -/
def reportFailure (failure : Option Failure) : List Step := if failure.any Failure.trips then [.recordFailure] else []

section JsonForward

variable (renderer : Renderer) (lower : List Char → List Char) (o : Origin) (chat includeReasoning : Bool)
  (promptTemplate : Option String)

/-- After `raise_for_status()`: `response.json()`, what is made of it, and the `JSONResponse` with that. -/
def answered (response : Response) : CallOutcome :=
  match response.json with
  | .error e => .raised (.body (.json e))
  | .ok payload =>
    match jsonAnswer lower o chat includeReasoning promptTemplate payload with
    | .error e => .raised (.answer e)
    | .ok content =>
      if renderer.renders renderer.depth content then .returned response.statusCode content else .raised .render

/-- The loop of `_json_forward` with so many iterations left, of which the next one has the number `attempt`; `attempts`
are the outcomes of the posts still to come. -/
def postLoop (retryAttempts : ℕ) : ℕ → ℕ → Option Failure → (ℕ → Attempt) → List Step × CallOutcome
  | 0, _, lastError, _ => (reportFailure lastError, raiseFailure lastError)
  | left + 1, attempt, _, attempts =>
    match (attempts 0).checked true with
    | .inl response =>
      ([.post, .recordSuccess], answered renderer lower o chat includeReasoning promptTemplate response)
    | .inr failure =>
      if attempt > retryAttempts || !failure.retriable then
        (.post :: reportFailure (some failure), raiseFailure (some failure))
      else
        let rest := postLoop retryAttempts left (attempt + 1) (some failure) fun i => attempts (i + 1)
        (.post :: .sleep attempt :: rest.1, rest.2)

/-- `_json_forward`, to a supported backend. -/
def jsonForward (retryAttempts : ℕ) (attempts : ℕ → Attempt) : List Step × CallOutcome :=
  postLoop renderer lower o chat includeReasoning promptTemplate retryAttempts (retryAttempts + 1) 1 none attempts

end JsonForward

/-- `_streaming_forward`, to a supported backend, up to the opening of the stream. -/
def streamingForward (attempt : Attempt) : List Step × CallOutcome :=
  match attempt.checked false with
  | .inl _ => ([.post, .recordSuccess], .streaming)
  | .inr failure => (.post :: .closeClient :: reportFailure (some failure), raiseFailure (some failure))

/-! ## The failures -/

namespace Attempt

/-- The response has a status of success. -/
def Succeeds : Attempt → Prop
  | .response r => isSuccess r.statusCode = true
  | .transportError => False

/-- A transport error or a status from 500 on. -/
def FailsAtBackend : Attempt → Prop
  | .response r => r.statusCode ≥ 500
  | .transportError => True

instance : ∀ a : Attempt, Decidable a.FailsAtBackend
  | .response r => inferInstanceAs (Decidable (r.statusCode ≥ 500))
  | .transportError => inferInstanceAs (Decidable True)

/-- It is neither a transport error nor a status from 500 on. -/
def stops (a : Attempt) : Bool := !decide a.FailsAtBackend

end Attempt

theorem isSuccess_lt {statusCode : ℕ} (h : isSuccess statusCode = true) : statusCode < 500 := by
  have : 200 ≤ statusCode ∧ statusCode ≤ 299 := by simpa [isSuccess] using h
  omega

theorem Attempt.Succeeds.not_failsAtBackend {a : Attempt} (h : a.Succeeds) : ¬ a.FailsAtBackend := by
  cases a with
  | transportError => exact h.elim
  | response r => exact not_le.mpr (isSuccess_lt h)

/-- The two tests of a failure agree. -/
theorem Failure.trips_eq_retriable (failure : Failure) : failure.trips = failure.retriable := by
  cases failure <;> rfl

/-- The body of a response that has been read is shown just if it can be parsed, or is no JSON. -/
theorem backendErrorDetail_read (r : Response) :
    (∃ detail, backendErrorDetail ⟨r, true⟩ = .ok detail) ↔ r.json ≠ .error .recursionError := by
  unfold backendErrorDetail Opened.json Opened.text
  cases r.json with
  | ok value => exact iff_of_true ⟨_, rfl⟩ (by simp)
  | error e =>
    cases e with
    | valueError => exact iff_of_true ⟨_, rfl⟩ (by simp)
    | recursionError => exact iff_of_false (by rintro ⟨_, h⟩; cases h) (by simp)

/-- That of a stream never is. -/
theorem backendErrorDetail_unread (r : Response) : backendErrorDetail ⟨r, false⟩ = .error .responseNotRead := rfl

/-- A failure is retried unless the attempt stops the loop. -/
theorem Attempt.retriable_of_checked {a : Attempt} {isRead : Bool} {failure : Failure}
    (h : a.checked isRead = .inr failure) : failure.retriable = !a.stops := by
  cases a with
  | transportError =>
    cases h
    rfl
  | response r =>
    simp only [checked] at h
    split_ifs at h
    cases h
    simp [Failure.retriable, stops, FailsAtBackend]

theorem Attempt.stops_of_checked {a : Attempt} {isRead : Bool} {response : Response}
    (h : a.checked isRead = .inl response) : a.stops = true := by
  cases a with
  | transportError => cases h
  | response r =>
    simp only [checked] at h
    split_ifs at h with hs
    simpa [stops, FailsAtBackend] using isSuccess_lt hs

/-! ## The loop -/

/-- So many posts with the pauses between them, the first of them with the number `attempt`. -/
def posts (attempt : ℕ) : ℕ → List Step
  | 0 => []
  | 1 => [.post]
  | n + 2 => .post :: .sleep attempt :: posts (attempt + 1) (n + 1)

/-- What is reported of the last attempt. -/
def reports (a : Attempt) : List Step :=
  match a.checked true with
  | .inl _ => [.recordSuccess]
  | .inr failure => reportFailure (some failure)

theorem count_posts (attempt n : ℕ) : (posts attempt n).count .post = n ∧
    (posts attempt n).count .recordSuccess = 0 ∧ (posts attempt n).count .recordFailure = 0 := by
  induction n generalizing attempt with
  | zero => exact ⟨rfl, rfl, rfl⟩
  | succ n ih =>
    cases n with
    | zero => exact ⟨rfl, rfl, rfl⟩
    | succ n =>
      obtain ⟨hpost, hsuccess, hfailure⟩ := ih (attempt + 1)
      refine ⟨?_, ?_, ?_⟩
      · rw [posts, List.count_cons_self, List.count_cons_of_ne (by simp), hpost]
      · rw [posts, List.count_cons_of_ne (by simp), List.count_cons_of_ne (by simp), hsuccess]
      · rw [posts, List.count_cons_of_ne (by simp), List.count_cons_of_ne (by simp), hfailure]

theorem reports_of_succeeds {a : Attempt} (h : a.Succeeds) : reports a = [.recordSuccess] := by
  cases a with
  | transportError => exact h.elim
  | response r =>
    have hs : isSuccess r.statusCode = true := h
    simp [reports, Attempt.checked, hs]

theorem reports_of_not_succeeds {a : Attempt} (h : ¬ a.Succeeds) :
    reports a = if a.FailsAtBackend then [.recordFailure] else [] := by
  cases a with
  | transportError => simp [reports, Attempt.checked, reportFailure, Failure.trips, Attempt.FailsAtBackend]
  | response r =>
    have hs : ¬ isSuccess r.statusCode = true := h
    simp [reports, Attempt.checked, hs, reportFailure, Failure.trips, Attempt.FailsAtBackend]

theorem count_post_reports (a : Attempt) : (reports a).count .post = 0 := by
  by_cases hs : a.Succeeds
  · rw [reports_of_succeeds hs]
    rfl
  · rw [reports_of_not_succeeds hs]
    split_ifs <;> rfl

section Loop

variable (renderer : Renderer) (lower : List Char → List Char) (o : Origin) (chat includeReasoning : Bool)
  (promptTemplate : Option String)

/-- What comes of the last attempt. -/
def outcome (a : Attempt) : CallOutcome :=
  match a.checked true with
  | .inl response => answered renderer lower o chat includeReasoning promptTemplate response
  | .inr failure => raiseFailure (some failure)

variable {retryAttempts left attempt : ℕ} {lastError : Option Failure} {attempts : ℕ → Attempt}

theorem postLoop_last (h : (attempts 0).stops = true ∨ attempt > retryAttempts) :
    postLoop renderer lower o chat includeReasoning promptTemplate retryAttempts (left + 1) attempt lastError attempts =
      (.post :: reports (attempts 0), outcome renderer lower o chat includeReasoning promptTemplate (attempts 0)) := by
  rw [postLoop, reports, outcome]
  cases hchecked : (attempts 0).checked true with
  | inl response => rfl
  | inr failure =>
    have hend : (decide (attempt > retryAttempts) || !failure.retriable) = true := by
      rw [Attempt.retriable_of_checked hchecked]
      rcases h with hstops | hlast
      · simp [hstops]
      · simp [hlast]
    simp only [hend, if_true]

theorem postLoop_next (h : (attempts 0).stops = false) (hmore : attempt ≤ retryAttempts) :
    ∃ failure, postLoop renderer lower o chat includeReasoning promptTemplate retryAttempts (left + 1) attempt lastError
        attempts =
      let rest := postLoop renderer lower o chat includeReasoning promptTemplate retryAttempts left (attempt + 1)
        (some failure) fun i => attempts (i + 1)
      (.post :: .sleep attempt :: rest.1, rest.2) := by
  rw [postLoop]
  cases hchecked : (attempts 0).checked true with
  | inl response =>
    rw [Attempt.stops_of_checked hchecked] at h
    cases h
  | inr failure =>
    have hgo : (decide (attempt > retryAttempts) || !failure.retriable) = false := by
      rw [Attempt.retriable_of_checked hchecked, h]
      simpa using hmore
    refine ⟨failure, ?_⟩
    simp only [hgo, Bool.false_eq_true, if_false]

/-- By induction on the iterations that are left: the posts, then the reports of the last attempt. -/
theorem postLoop_eq (h : attempt + left = retryAttempts + 1) :
    let n := tries (left + 1) fun i => (attempts i).stops
    postLoop renderer lower o chat includeReasoning promptTemplate retryAttempts (left + 1) attempt lastError attempts =
      (posts attempt n ++ reports (attempts (n - 1)),
        outcome renderer lower o chat includeReasoning promptTemplate (attempts (n - 1))) := by
  induction left generalizing attempt lastError attempts with
  | zero =>
    have hn : (tries 1 fun i => (attempts i).stops) = 1 := le_antisymm (tries_le 1 _) (tries_pos Nat.one_pos)
    dsimp only
    rw [Nat.zero_add, hn, postLoop_last _ _ _ _ _ _ (.inr (by omega))]
    rfl
  | succ left ih =>
    dsimp only
    cases hstops : (attempts 0).stops with
    | true =>
      rw [tries_succ_of_stops hstops, postLoop_last _ _ _ _ _ _ (.inl hstops)]
      rfl
    | false =>
      have hmore : attempt ≤ retryAttempts := by omega
      obtain ⟨failure, hnext⟩ := @postLoop_next renderer lower o chat includeReasoning promptTemplate retryAttempts
        (left + 1) attempt lastError attempts hstops hmore
      rw [tries_succ_of_not hstops, hnext, ih (by omega)]
      have hpos : 0 < tries (left + 1) fun i => (attempts (i + 1)).stops := tries_pos (Nat.succ_pos _)
      obtain ⟨n, hn⟩ := Nat.exists_eq_succ_of_ne_zero hpos.ne'
      simp only [hn, Nat.succ_eq_add_one, Nat.add_sub_cancel]
      rfl

theorem jsonForward_eq : jsonForward renderer lower o chat includeReasoning promptTemplate retryAttempts attempts =
    let n := tries (retryAttempts + 1) fun i => (attempts i).stops
    (posts 1 n ++ reports (attempts (n - 1)),
      outcome renderer lower o chat includeReasoning promptTemplate (attempts (n - 1))) :=
  postLoop_eq renderer lower o chat includeReasoning promptTemplate (Nat.add_comm 1 retryAttempts)

end Loop

/-! ## Accounting -/

/-- **What is promised of a call of `_json_forward`** that came to `call` with the attempts given: the number of the
posts, of which the last one decides what is reported to the circuit breaker and what is returned or raised. -/
structure Accounted (retryAttempts : ℕ) (attempts : ℕ → Attempt) (call : List Step × CallOutcome) : Prop where
  /-- The first attempt that stops the loop is the last one, unless there are no more. -/
  posts : ∀ i, (attempts i).stops = true → (∀ j < i, (attempts j).stops = false) →
    call.1.count .post = min (i + 1) (retryAttempts + 1)
  postsAll : (∀ i, (attempts i).stops = false) → call.1.count .post = retryAttempts + 1
  success : (attempts (call.1.count .post - 1)).Succeeds →
    call.1.count .recordSuccess = 1 ∧ call.1.count .recordFailure = 0
  failure : (attempts (call.1.count .post - 1)).FailsAtBackend →
    call.1.count .recordFailure = 1 ∧ call.1.count .recordSuccess = 0
  neither : ¬ (attempts (call.1.count .post - 1)).Succeeds → ¬ (attempts (call.1.count .post - 1)).FailsAtBackend →
    call.1.count .recordSuccess = 0 ∧ call.1.count .recordFailure = 0
  returned : ∀ response, attempts (call.1.count .post - 1) = .response response → isSuccess response.statusCode = true →
    ∃ content, call.2 = .returned response.statusCode content
  rejected : ∀ response, attempts (call.1.count .post - 1) = .response response →
    isSuccess response.statusCode = false → response.statusCode < 500 →
      ∃ detail, call.2 = .httpException response.statusCode detail
  unavailable : (attempts (call.1.count .post - 1)).FailsAtBackend → ∃ detail, call.2 = .httpException 503 detail

section Accounting

variable (renderer : Renderer) (lower : List Char → List Char) (o : Origin) (chat includeReasoning : Bool)
  (promptTemplate : Option String)

/-- The body of a successful response is JSON that an answer can be made and written of. -/
def BodyReadable (a : Attempt) : Prop :=
  ∀ response, a = .response response → isSuccess response.statusCode = true → ∃ payload, response.json = .ok payload ∧
    AnswerReadable includeReasoning promptTemplate o chat payload ∧
      AnswerRenders renderer lower includeReasoning promptTemplate o chat payload

/-- The body of a rejection is not nested too deep. -/
def RejectionReadable (a : Attempt) : Prop :=
  ∀ response, a = .response response → isSuccess response.statusCode = false → response.statusCode < 500 →
    response.json ≠ .error .recursionError

theorem answered_eq_returned_iff {response : Response} :
    (∃ content, answered renderer lower o chat includeReasoning promptTemplate response =
        .returned response.statusCode content) ↔
      ∃ payload, response.json = .ok payload ∧ AnswerReadable includeReasoning promptTemplate o chat payload ∧
        AnswerRenders renderer lower includeReasoning promptTemplate o chat payload := by
  unfold answered
  cases response.json with
  | error e => simp
  | ok payload =>
    simp only [Except.ok.injEq, exists_eq_left', ← renders_jsonAnswer_iff]
    cases jsonAnswer lower o chat includeReasoning promptTemplate payload with
    | error e => simp
    | ok content =>
      by_cases hrenders : renderer.renders renderer.depth content = true <;> simp [hrenders]

/-- What a failure comes to. -/
theorem outcome_of_failsAtBackend {a : Attempt} (h : a.FailsAtBackend) :
    outcome renderer lower o chat includeReasoning promptTemplate a = .httpException 503 .unavailable := by
  cases a with
  | transportError => rfl
  | response r =>
    have hstatus : 500 ≤ r.statusCode := h
    have hs : ¬ isSuccess r.statusCode = true := fun hs => absurd (isSuccess_lt hs) (not_lt.mpr hstatus)
    simp [outcome, Attempt.checked, hs, raiseFailure, not_lt.mpr hstatus]

theorem outcome_of_rejected {r : Response} (hs : isSuccess r.statusCode = false) (hstatus : r.statusCode < 500) :
    (∃ detail, outcome renderer lower o chat includeReasoning promptTemplate (.response r) =
      .httpException r.statusCode detail) ↔ r.json ≠ .error .recursionError := by
  rw [← backendErrorDetail_read]
  simp only [outcome, Attempt.checked, hs, Bool.false_eq_true, if_false, raiseFailure, hstatus, if_true]
  cases backendErrorDetail ⟨r, true⟩ with
  | ok detail => exact iff_of_true ⟨detail, rfl⟩ ⟨detail, rfl⟩
  | error e => exact iff_of_false (by rintro ⟨_, h⟩; cases h) (by rintro ⟨_, h⟩; cases h)

theorem outcome_of_succeeds {r : Response} (hs : isSuccess r.statusCode = true) :
    outcome renderer lower o chat includeReasoning promptTemplate (.response r) =
      answered renderer lower o chat includeReasoning promptTemplate r := by
  simp [outcome, Attempt.checked, hs]

/-- **Retries and breaker accounting of a plain request.** The posts and the reports are as promised in every call; what
is promised holds in whole just if the last response, when it is a success, can be made and written an answer of, and,
when it is a rejection, can be shown. -/
theorem json_forward_accounts_iff (retryAttempts : ℕ) (attempts : ℕ → Attempt) :
    Accounted retryAttempts attempts
        (jsonForward renderer lower o chat includeReasoning promptTemplate retryAttempts attempts) ↔
      let last := attempts ((tries (retryAttempts + 1) fun i => (attempts i).stops) - 1)
      BodyReadable renderer lower o chat includeReasoning promptTemplate last ∧ RejectionReadable last := by
  rw [jsonForward_eq]
  dsimp only
  generalize hn : (tries (retryAttempts + 1) fun i => (attempts i).stops) = n
  generalize hlast : attempts (n - 1) = last
  obtain ⟨hposts, hnoSuccess, hnoFailure⟩ := count_posts 1 n
  have hcount : (posts 1 n ++ reports last).count .post = n := by
    rw [List.count_append, hposts, count_post_reports, Nat.add_zero]
  have hsuccesses : (posts 1 n ++ reports last).count .recordSuccess = (reports last).count .recordSuccess := by
    rw [List.count_append, hnoSuccess, Nat.zero_add]
  have hfailures : (posts 1 n ++ reports last).count .recordFailure = (reports last).count .recordFailure := by
    rw [List.count_append, hnoFailure, Nat.zero_add]
  constructor
  · intro h
    refine ⟨fun response hresponse hs => ?_, fun response hresponse hs hstatus => ?_⟩
    · have hreturned := h.returned response (by rw [hcount, hlast, hresponse]) hs
      rw [hresponse, outcome_of_succeeds _ _ _ _ _ _ hs] at hreturned
      exact (answered_eq_returned_iff _ _ _ _ _ _).mp hreturned
    · have hrejected := h.rejected response (by rw [hcount, hlast, hresponse]) hs hstatus
      rw [hresponse] at hrejected
      exact (outcome_of_rejected _ _ _ _ _ _ hs hstatus).mp hrejected
  · rintro ⟨hbody, hrejection⟩
    refine ⟨?_, ?_, ?_, ?_, ?_, ?_, ?_, ?_⟩
    all_goals simp only [hcount, hlast, hsuccesses, hfailures]
    · exact fun i hi hbefore => hn ▸ tries_eq_min hi hbefore
    · exact fun h => hn ▸ tries_eq_limit h
    · intro hs
      rw [reports_of_succeeds hs]
      exact ⟨rfl, rfl⟩
    · intro hfails
      rw [reports_of_not_succeeds fun hs => hs.not_failsAtBackend hfails, if_pos hfails]
      exact ⟨rfl, rfl⟩
    · intro hs hfails
      rw [reports_of_not_succeeds hs, if_neg hfails]
      exact ⟨rfl, rfl⟩
    · intro response hresponse hs
      rw [hresponse, outcome_of_succeeds _ _ _ _ _ _ hs]
      exact (answered_eq_returned_iff _ _ _ _ _ _).mpr (hbody response hresponse hs)
    · intro response hresponse hs hstatus
      rw [hresponse]
      exact (outcome_of_rejected _ _ _ _ _ _ hs hstatus).mpr (hrejection response hresponse hs hstatus)
    · exact fun hfails => ⟨_, outcome_of_failsAtBackend _ _ _ _ _ _ hfails⟩

end Accounting

/-- A backend of the OpenAI protocol. -/
def openAI : Origin where
  ollama := false
  modelName := "local"
  clock := fun _ => 0

/-- JSON texts without lone surrogates. -/
def plainRenderer : Renderer where
  surrogate _ := false
  depth := 1000
  ascii _ _ := rfl

/-- **A successful response that is not returned**: the body is the empty list. It is reported as a success, and then
`normalize_chat_completion` raises `AttributeError`. -/
theorem empty_list_raises : ¬ ∀ (renderer : Renderer) (lower : List Char → List Char) (o : Origin)
    (chat includeReasoning : Bool) (promptTemplate : Option String) (retryAttempts : ℕ) (attempts : ℕ → Attempt),
    (∀ i response, attempts i = .response response → isSuccess response.statusCode = true →
      ∃ payload, response.json = .ok payload) →
    Accounted retryAttempts attempts
      (jsonForward renderer lower o chat includeReasoning promptTemplate retryAttempts attempts) := by
  intro h
  let response : Response :=
    { statusCode := 200, json := .ok (.arr []), text := "[]".toList, reasonPhrase := "OK".toList }
  have haccounted := h plainRenderer id openAI true false none 0 (fun _ => .response response) (by
    intro i r hr _
    cases hr
    exact ⟨_, rfl⟩)
  obtain ⟨content, hcontent⟩ := haccounted.returned response rfl rfl
  cases hcontent

/-! ## Failures of a stream -/

/-- The calls report a failure of the backend alike: with the same status and, where it is below 500, with the same
`backend_status_code` and `backend_response`. -/
def Alike (stream plain : CallOutcome) : Prop :=
  ∃ statusCode detail detail', stream = .httpException statusCode detail ∧
    plain = .httpException statusCode detail' ∧
      (statusCode < 500 → ∃ backendStatusCode backendResponse,
        detail = .rejected backendStatusCode backendResponse ∧ detail' = .rejected backendStatusCode backendResponse)

/-- A call of which every attempt fails alike. -/
theorem jsonForward_const (renderer : Renderer) (lower : List Char → List Char) (o : Origin)
    (chat includeReasoning : Bool) (promptTemplate : Option String) (retryAttempts : ℕ) (a : Attempt) :
    (jsonForward renderer lower o chat includeReasoning promptTemplate retryAttempts fun _ => a).2 =
      outcome renderer lower o chat includeReasoning promptTemplate a := by
  rw [jsonForward_eq]

/-- **Streaming and plain requests report a failure alike** just if it is a transport error or has a status from 500 on:
the body of another response is read for the detail, and that of a stream has not been fetched then. -/
theorem failures_alike_iff (renderer : Renderer) (lower : List Char → List Char) (o : Origin)
    (chat includeReasoning : Bool) (promptTemplate : Option String) (retryAttempts : ℕ) (a : Attempt)
    (h : ¬ a.Succeeds) :
    Alike (streamingForward a).2
        (jsonForward renderer lower o chat includeReasoning promptTemplate retryAttempts fun _ => a).2 ↔
      a.FailsAtBackend := by
  rw [jsonForward_const]
  by_cases hfails : a.FailsAtBackend
  · refine iff_of_true ⟨503, .unavailable, .unavailable, ?_, outcome_of_failsAtBackend _ _ _ _ _ _ hfails, ?_⟩ hfails
    · cases a with
      | transportError => rfl
      | response r =>
        have hstatus : 500 ≤ r.statusCode := hfails
        have hs : ¬ isSuccess r.statusCode = true := h
        simp [streamingForward, Attempt.checked, hs, raiseFailure, not_lt.mpr hstatus]
    · intro hlt
      omega
  · refine iff_of_false ?_ hfails
    cases a with
    | transportError => exact absurd trivial hfails
    | response r =>
      have hstatus : r.statusCode < 500 := not_le.mp hfails
      have hs : ¬ isSuccess r.statusCode = true := h
      have hraised : (streamingForward (.response r)).2 = .raised (.body .responseNotRead) := by
        simp [streamingForward, Attempt.checked, hs, raiseFailure, hstatus, backendErrorDetail_unread]
      rintro ⟨statusCode, detail, detail', hstream, -⟩
      rw [hraised] at hstream
      cases hstream

/-- A rejection by the backend. -/
def badRequest : Response where
  statusCode := 400
  json := .ok (.str "bad request".toList)
  text := "bad request".toList
  reasonPhrase := "Bad Request".toList

theorem not_succeeds_badRequest : ¬ (Attempt.response badRequest).Succeeds := by
  simp [Attempt.Succeeds, badRequest, isSuccess]

theorem failures_alike_iff_bad_request : ¬ (Attempt.response badRequest).Succeeds ∧
    (Alike (streamingForward (.response badRequest)).2
        (jsonForward plainRenderer id openAI true false none 2 fun _ => .response badRequest).2 ↔
      (Attempt.response badRequest).FailsAtBackend) :=
  ⟨not_succeeds_badRequest,
    failures_alike_iff plainRenderer id openAI true false none 2 (.response badRequest) not_succeeds_badRequest⟩

/-- **A stream that is rejected raises another exception**, `ResponseNotRead`, where the plain request raises an
`HTTPException` with the status 400. -/
theorem rejected_stream_raises : ¬ ∀ (renderer : Renderer) (lower : List Char → List Char) (o : Origin)
    (chat includeReasoning : Bool) (promptTemplate : Option String) (retryAttempts : ℕ) (a : Attempt), ¬ a.Succeeds →
    Alike (streamingForward a).2
      (jsonForward renderer lower o chat includeReasoning promptTemplate retryAttempts fun _ => a).2 := by
  intro h
  obtain ⟨statusCode, detail, detail', hstream, -⟩ := h plainRenderer id openAI true false none 0 (.response badRequest)
    not_succeeds_badRequest
  cases hstream

/-! ## Backends with fixed replies -/

section FixedReplies

open FixedOutcomes

/-- The outcome of a post that the reply stands for. -/
def Matches : Reply → Attempt → Prop
  | .transportError, .transportError => True
  | .success statusCode .., .response r => r.statusCode = statusCode
  | .serverError statusCode .., .response r => r.statusCode = statusCode
  | .clientError statusCode .., .response r => r.statusCode = statusCode ∧ r.json ≠ .error .recursionError
  | _, _ => False

variable {reply : Reply} {a : Attempt}

/-- No other post follows. -/
def isFinal : Reply → Bool
  | .success .. | .clientError .. => true
  | .transportError | .serverError .. => false

theorem stops_response (r : Response) : (Attempt.response r).stops = !decide (500 ≤ r.statusCode) := rfl

theorem stops_of_matches (h : Matches reply a) : a.stops = isFinal reply := by
  cases reply <;> cases a <;> simp only [Matches] at h
  case transportError.transportError => rfl
  case success.response _ hs r =>
    have hlt : ¬ 500 ≤ r.statusCode := not_le.mpr (h ▸ isSuccess_lt hs)
    rw [stops_response, decide_eq_false hlt]
    rfl
  case serverError.response hs r =>
    have hle : 500 ≤ r.statusCode := h ▸ hs
    rw [stops_response, decide_eq_true hle]
    rfl
  case clientError.response hs r =>
    have hlt : ¬ 500 ≤ r.statusCode := not_le.mpr (h.1 ▸ hs.2)
    rw [stops_response, decide_eq_false hlt]
    rfl

/-- A call consumes as many replies as it posts. -/
theorem length_answers (h : Matches reply a) (retryAttempts : ℕ) :
    (reply.answers retryAttempts).length = tries (retryAttempts + 1) fun _ => a.stops := by
  have hstops := stops_of_matches h
  induction retryAttempts with
  | zero =>
    rw [Reply.answers, List.length_singleton]
    exact (le_antisymm (tries_le 1 _) (tries_pos Nat.one_pos)).symm
  | succ n ih =>
    cases reply with
    | success => rw [tries_succ_of_stops hstops, Reply.answers, List.length_singleton]
    | clientError => rw [tries_succ_of_stops hstops, Reply.answers, List.length_singleton]
    | transportError => rw [tries_succ_of_not hstops, Reply.answers, List.length_cons, ih]
    | serverError => rw [tries_succ_of_not hstops, Reply.answers, List.length_cons, ih]

/-- The error of a call has the status that `FixedOutcomes` says. -/
theorem outcome_of_callOutcome {replies : Models.InferenceBackend → Reply} {backend : Models.InferenceBackend}
    (hprovider : backend.provider ∈ ["llama.cpp", "ollama", "vllm"]) (h : Matches (replies backend) a)
    {statusCode : ℕ} {detail : Detail} (herror : callOutcome replies backend = .error (.http statusCode detail))
    (renderer : Renderer) (lower : List Char → List Char) (o : Origin) (chat includeReasoning : Bool)
    (promptTemplate : Option String) :
    ∃ shown, outcome renderer lower o chat includeReasoning promptTemplate a = .httpException statusCode shown := by
  unfold callOutcome at herror
  rw [if_neg (not_not.mpr hprovider)] at herror
  cases hreply : replies backend with
  | success =>
    rw [hreply] at herror
    cases herror
  | transportError =>
    rw [hreply] at herror h
    cases herror
    cases a with
    | transportError => exact ⟨_, outcome_of_failsAtBackend _ _ _ _ _ _ trivial⟩
    | response r => exact h.elim
  | serverError status payload shown hs =>
    rw [hreply] at herror h
    simp only [Reply.posted, PostError.toExc, if_neg (not_lt.mpr hs)] at herror
    cases herror
    cases a with
    | transportError => exact h.elim
    | response r =>
      have hstatus : 500 ≤ r.statusCode := h ▸ hs
      exact ⟨_, outcome_of_failsAtBackend _ _ _ _ _ _ hstatus⟩
  | clientError status payload shown hs =>
    rw [hreply] at herror h
    simp only [Reply.posted, PostError.toExc, if_pos hs.2] at herror
    cases herror
    cases a with
    | transportError => exact h.elim
    | response r =>
      obtain ⟨rfl, hjson⟩ : r.statusCode = statusCode ∧ r.json ≠ .error .recursionError := h
      have hno : isSuccess r.statusCode = false := by
        simp only [isSuccess, decide_eq_false_iff_not]
        omega
      exact (outcome_of_rejected _ _ _ _ _ _ hno hs.2).mpr hjson

end FixedReplies

end LlmStore.Inference.Attempts
