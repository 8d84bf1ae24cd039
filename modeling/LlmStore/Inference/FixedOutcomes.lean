import LlmStore.Inference.Steady

/-!
# Backends with fixed outcomes

Suppose that no call of the database or of Redis fails, that the circuit breaker stays closed and the queue has room,
and that each backend meets every post with one fixed `Reply`. Then a call of the proxy comes to what the reply of its
backend says (`callOutcome`), and `_chat_with_fallback` tries the routes in their order until one of them answers or
refuses (`chatWithFallback_failOver`, `chatWithFallback_returns_iff`).
-/

namespace LlmStore.Inference.FixedOutcomes

open LlmStore.Lib Program

/-! ## Replies -/

/-- What a backend does with every post. -/
inductive Reply where
  | success (statusCode : ℕ) (body shown : String) (h : isSuccess statusCode = true)
  | transportError
  | serverError (statusCode : ℕ) (payload : Option String) (shown : String) (h : 500 ≤ statusCode)
  | clientError (statusCode : ℕ) (payload : Option String) (shown : String) (h : 400 ≤ statusCode ∧ statusCode < 500)

namespace Reply

def answer : Reply → Answer
  | success statusCode body shown _ => .response statusCode (some body) shown
  | transportError => .transportError
  | serverError statusCode payload shown _ | clientError statusCode payload shown _ =>
    .response statusCode payload shown

/-- What a post to the backend comes to. -/
def posted (backendName : String) : Reply → ForwardResult ⊕ PostError
  | success statusCode body _ _ => .inl ⟨statusCode, body, backendName, 1, false, []⟩
  | transportError => .inr .transport
  | serverError statusCode _ shown _ | clientError statusCode _ shown _ => .inr (.httpStatus statusCode shown)

/-- The answers to a post that may be tried again so many times. -/
def answers (reply : Reply) : ℕ → List Answer
  | 0 => [reply.answer]
  | attemptsLeft + 1 =>
    match reply with
    | success .. | clientError .. => [reply.answer]
    | transportError | serverError .. => reply.answer :: reply.answers attemptsLeft

end Reply

section Outcome

variable (settings : Settings) (reply : Models.InferenceBackend → Reply)

/-- What a call of the proxy comes to. -/
def callOutcome (backend : Models.InferenceBackend) : Except Exc ForwardResult :=
  if backend.provider ∉ ["llama.cpp", "ollama", "vllm"] then .error (.http 503 (.text "unsupported model backend"))
  else match (reply backend).posted backend.name with
    | .inl result => .ok result
    | .inr e => .error e.toExc

/-- The answers to the posts of a call. -/
def script (backend : Models.InferenceBackend) : List Answer :=
  if backend.provider ∉ ["llama.cpp", "ollama", "vllm"] then []
  else (reply backend).answers settings.retryAttempts

/-- The calls of the backend succeed. -/
def Serves (backend : Models.InferenceBackend) : Prop :=
  backend.provider ∈ ["llama.cpp", "ollama", "vllm"] ∧
    ∃ statusCode body shown h, reply backend = .success statusCode body shown h

/-- A failed call raises an `HTTPException` that is no answer to the client's request by all routes. -/
theorem callOutcome_cases (backend : Models.InferenceBackend) :
    (Serves reply backend ∧ ∃ statusCode body, isSuccess statusCode = true ∧
      callOutcome reply backend = .ok ⟨statusCode, body, backend.name, 1, false, []⟩) ∨
    ¬ Serves reply backend ∧ ∃ statusCode detail, callOutcome reply backend = .error (.http statusCode detail) := by
  unfold callOutcome
  by_cases hprovider : backend.provider ∈ ["llama.cpp", "ollama", "vllm"]
  · rw [if_neg (not_not.mpr hprovider)]
    cases hreply : reply backend with
    | success statusCode body shown h =>
      exact .inl ⟨⟨hprovider, statusCode, body, shown, h, hreply⟩, statusCode, body, h, rfl⟩
    | transportError =>
      refine .inr ⟨?_, _, _, rfl⟩
      rintro ⟨-, _, _, _, _, hs⟩
      rw [hreply] at hs
      cases hs
    | serverError statusCode payload shown h =>
      refine .inr ⟨?_, 503, .text "data plane unavailable", ?_⟩
      · rintro ⟨-, _, _, _, _, hs⟩
        rw [hreply] at hs
        cases hs
      · simp only [Reply.posted, PostError.toExc, if_neg (not_lt.mpr h)]
    | clientError statusCode payload shown h =>
      refine .inr ⟨?_, statusCode, .rejected statusCode shown, ?_⟩
      · rintro ⟨-, _, _, _, _, hs⟩
        rw [hreply] at hs
        cases hs
      · simp only [Reply.posted, PostError.toExc, if_pos h.2]
  · rw [if_pos hprovider]
    exact .inr ⟨fun h => hprovider h.1, _, _, rfl⟩

end Outcome

/-! ## Worlds in which nothing else decides -/

/-- No call fails, nothing is refused, and the next answers of the backends are those of the list. -/
structure Ready (next : List Answer) (w : World) : Prop where
  quiet : w.env.faults = fun _ => false
  admits : w.env.refusals = fun _ => false
  answers : ∀ n answer, next[n]? = some answer → w.env.answers n = answer

/-- What of a world the environment does not matter to. -/
def Inert (P : World → Prop) : Prop := ∀ w f, P w → P (w.setEnv f)

section Calls

variable {P : World → Prop} {next : List Answer}

theorem Ready.weaken {w : World} {more : List Answer} (h : Ready (next ++ more) w) : Ready next w := by
  refine ⟨h.quiet, h.admits, fun n answer hn => h.answers n answer ?_⟩
  have hlt : n < next.length := (List.getElem?_eq_some_iff.mp hn).1
  rw [List.getElem?_append_left hlt, hn]

theorem ready_await : Triple (fun w => Ready next w ∧ P w) await (fun _ w => Ready next w ∧ P w) fun _ _ => False := by
  rintro w ⟨hw, hP⟩
  have hfault : nextFault.exec w = (.ok false, w) := by
    obtain ⟨com, cur, slots, queue, ⟨faults, clock, redis, refusals, answers⟩⟩ := w
    cases hw.quiet
    rfl
  have hexec : await.exec w = (.ok (), w) := (exec_bind_ok hfault).trans rfl
  rw [hexec]
  exact ⟨hw, hP⟩

theorem ready_nextRefusal (hP : Inert P) :
    Triple (fun w => Ready next w ∧ P w) nextRefusal (fun refused w => refused = false ∧ Ready next w ∧ P w)
      fun _ _ => False := by
  refine triple_modifyGet fun w hw => ?_
  dsimp only
  refine ⟨congrFun hw.1.admits 0, ⟨hw.1.quiet, ?_, hw.1.answers⟩, hP _ _ hw.2⟩
  funext n
  exact congrFun hw.1.admits (n + 1)

theorem ready_nextAnswer (hP : Inert P) (answer : Answer) :
    Triple (fun w => Ready (answer :: next) w ∧ P w) nextAnswer (fun a w => a = answer ∧ Ready next w ∧ P w)
      fun _ _ => False := by
  refine triple_modifyGet fun w hw => ?_
  dsimp only
  exact ⟨hw.1.answers 0 answer rfl, ⟨hw.1.quiet, hw.1.admits, fun n a hn => hw.1.answers (n + 1) a hn⟩, hP _ _ hw.2⟩

/-- A part of a program that returns a known value. -/
theorem triple_known {α β : Type} {x : Prog α} {f : α → Prog β} {a : α} {P Q : World → Prop} {R : β → World → Prop}
    {E : Exc → World → Prop} (hx : Triple P x (fun b w => b = a ∧ Q w) fun _ _ => False) (hf : Triple Q (f a) R E) :
    Triple P (x >>= f) R E := by
  refine triple_bind (hx.conseq (fun _ h => h) (fun _ _ h => h) fun _ _ h => h.elim) fun b => ?_
  rintro w ⟨rfl, hw⟩
  exact hf w hw

/-- A call before something else. -/
theorem ready_then {α : Type} {f : Unit → Prog α} {R : α → World → Prop} {E : Exc → World → Prop}
    (hf : Triple (fun w => Ready next w ∧ P w) (f ()) R E) : Triple (fun w => Ready next w ∧ P w) (await >>= f) R E :=
  triple_bind (ready_await.conseq (fun _ h => h) (fun _ _ h => h) fun _ _ h => h.elim) fun _ => hf

/-- One post. -/
theorem ready_post (hP : Inert P) (backendName : String) (reply : Reply) :
    Triple (fun w => Ready (reply.answer :: next) w ∧ P w) (post backendName)
      (fun r w => r = reply.posted backendName ∧ Ready next w ∧ P w) fun _ _ => False := by
  refine ready_then (triple_known (ready_nextAnswer hP reply.answer) ?_)
  cases reply with
  | success statusCode body shown h =>
    simp only [Reply.answer, if_pos h]
    exact ready_then (triple_pure fun _ hw => ⟨rfl, hw⟩)
  | transportError => exact triple_pure fun _ hw => ⟨rfl, hw⟩
  | serverError statusCode payload shown h =>
    have hs : ¬ isSuccess statusCode = true := by simp [isSuccess]; omega
    simp only [Reply.answer, if_neg hs]
    exact triple_pure fun _ hw => ⟨rfl, hw⟩
  | clientError statusCode payload shown h =>
    have hs : ¬ isSuccess statusCode = true := by simp [isSuccess]; omega
    simp only [Reply.answer, if_neg hs]
    exact triple_pure fun _ hw => ⟨rfl, hw⟩

theorem ready_postLoop (hP : Inert P) (backendName : String) (reply : Reply) : ∀ n,
    Triple (fun w => Ready (reply.answers n ++ next) w ∧ P w) (postLoop backendName n)
      (fun r w => r = reply.posted backendName ∧ Ready next w ∧ P w) fun _ _ => False
  | 0 => ready_post hP backendName reply
  | n + 1 => by
    cases reply with
    | success statusCode body shown h =>
      exact triple_known (ready_post hP backendName (.success statusCode body shown h))
        (triple_pure fun _ hw => ⟨rfl, hw⟩)
    | transportError =>
      refine triple_known (ready_post hP backendName .transportError) ?_
      exact ready_then (ready_postLoop hP backendName .transportError n)
    | serverError statusCode payload shown h =>
      refine triple_known (ready_post hP backendName (.serverError statusCode payload shown h)) ?_
      have hagain : (PostError.httpStatus statusCode shown).onBackendSide = true := decide_eq_true h
      dsimp only [Reply.posted]
      rw [if_pos hagain]
      exact ready_then (ready_postLoop hP backendName (.serverError statusCode payload shown h) n)
    | clientError statusCode payload shown h =>
      refine triple_known (ready_post hP backendName (.clientError statusCode payload shown h)) ?_
      have hlast : ¬ (PostError.httpStatus statusCode shown).onBackendSide = true := by
        simpa [PostError.onBackendSide] using h.2
      dsimp only [Reply.posted]
      rw [if_neg hlast]
      exact triple_pure fun _ hw => ⟨rfl, hw⟩

/-- From `P` the program returns or raises `o`, and leaves a world with `Q`. -/
def ComesTo {α : Type} (P : World → Prop) (x : Prog α) (o : Except Exc α) (Q : World → Prop) : Prop :=
  Triple P x (fun a w => o = .ok a ∧ Q w) fun e w => o = .error e ∧ Q w

theorem ready_raiseLast (e : PostError) :
    ComesTo (fun w => Ready next w ∧ P w) (raiseLast e) (.error e.toExc) fun w => Ready next w ∧ P w := by
  unfold raiseLast
  split
  · exact ready_then (triple_raise fun _ hw => ⟨rfl, hw⟩)
  · exact triple_raise fun _ hw => ⟨rfl, hw⟩

theorem ready_jsonForward (settings : Settings) (reply : Models.InferenceBackend → Reply) (hP : Inert P)
    (backend : Models.InferenceBackend) :
    ComesTo (fun w => Ready (script settings reply backend ++ next) w ∧ P w) (jsonForward settings backend)
      (callOutcome reply backend) fun w => Ready next w ∧ P w := by
  unfold jsonForward clientForBackend script callOutcome
  by_cases hprovider : backend.provider ∉ ["llama.cpp", "ollama", "vllm"]
  · rw [if_pos hprovider, if_pos hprovider, if_pos hprovider]
    exact triple_bind (Q := fun _ _ => False) (triple_raise fun _ hw => ⟨rfl, hw⟩) fun _ _ hw => hw.elim
  · rw [if_neg hprovider, if_neg hprovider, if_neg hprovider]
    refine triple_known (Q := fun w => Ready ((reply backend).answers settings.retryAttempts ++ next) w ∧ P w)
      (triple_pure fun _ hw => ⟨rfl, hw⟩) ?_
    refine triple_known (ready_postLoop hP backend.name (reply backend) settings.retryAttempts) ?_
    cases (reply backend).posted backend.name with
    | inl result => exact triple_pure fun _ hw => ⟨rfl, hw⟩
    | inr e => exact ready_raiseLast e

variable (next) in
/-- A call whose caller has the slot. -/
theorem ready_chat (settings : Settings) (reply : Models.InferenceBackend → Reply) (hP : Inert P)
    (backend : Models.InferenceBackend) :
    ComesTo (fun w => Ready (script settings reply backend ++ next) w ∧ P w) (chat settings backend false false)
      (callOutcome reply backend) fun w => Ready next w ∧ P w :=
  ready_then (triple_known (ready_nextRefusal hP) (ready_jsonForward settings reply hP backend))

/-! ## Slots -/

/-- The slots after one has been taken and given back. -/
def slotsAfter (slots : Slots.BackendId → Option Slots.InferenceBackend) (backendId : Slots.BackendId) :
    Slots.BackendId → Option Slots.InferenceBackend :=
  Function.update slots backendId (Slots.release (Slots.tryAcquire (slots backendId)).2)

theorem inert_slots (slots : Slots.BackendId → Option Slots.InferenceBackend) : Inert fun w => w.slots = slots :=
  fun _ _ h => h

theorem ready_tryAcquire (slots : Slots.BackendId → Option Slots.InferenceBackend) (backendId : Slots.BackendId) :
    Triple (fun w => Ready next w ∧ w.slots = slots) (tryAcquire backendId)
      (fun acquired w => acquired = (Slots.tryAcquire (slots backendId)).1 ∧
        Ready next w ∧ w.slots = Function.update slots backendId (Slots.tryAcquire (slots backendId)).2)
      fun _ _ => False := by
  refine ready_then (triple_known (a := (Slots.tryAcquire (slots backendId)).1)
    (Q := fun w => Ready next w ∧ w.slots = Function.update slots backendId (Slots.tryAcquire (slots backendId)).2) ?_
    (ready_then (triple_pure fun _ hw => ⟨rfl, hw⟩)))
  refine triple_modifyGet fun w hw => ?_
  rw [hw.2]
  exact ⟨rfl, ⟨hw.1.quiet, hw.1.admits, hw.1.answers⟩, rfl⟩

theorem ready_release (slots : Slots.BackendId → Option Slots.InferenceBackend) (backendId : Slots.BackendId) :
    Triple (fun w => Ready next w ∧ w.slots = slots) (release backendId)
      (fun _ w => Ready next w ∧ w.slots = Function.update slots backendId (Slots.release (slots backendId)))
      fun _ _ => False := by
  refine ready_then (triple_bind (Q := fun _ w => Ready next w ∧
    w.slots = Function.update slots backendId (Slots.release (slots backendId))) ?_ fun _ => ready_await)
  refine triple_modify fun w hw => ?_
  rw [hw.2]
  exact ⟨⟨hw.1.quiet, hw.1.admits, hw.1.answers⟩, rfl⟩

/-- A block `y` after a program, which neither returns nor raises anything else. -/
theorem ComesTo.tryFinally {α : Type} {x : Prog α} {y : Prog Unit} {o : Except Exc α} {P Q R : World → Prop}
    (hx : ComesTo P x o Q) (hy : Triple Q y (fun _ => R) fun _ _ => False) :
    ComesTo P (Program.tryFinally x y) o R := by
  refine triple_tryFinally hx (fun a => ?_) fun e => ?_
  · rintro w ⟨ho, hw⟩
    exact hy.conseq (fun _ h => h) (fun _ _ h => ⟨ho, h⟩) (fun _ _ h => h.elim) w hw
  · rintro w ⟨ho, hw⟩
    exact hy.conseq (fun _ h => h) (fun _ _ h => ⟨ho, h⟩) (fun _ _ h => h.elim) w hw

variable (next) in
/-- A call that takes a free slot and gives it back. -/
theorem ready_chat_withSlot (settings : Settings) (reply : Models.InferenceBackend → Reply)
    {slots : Slots.BackendId → Option Slots.InferenceBackend} {backend : Models.InferenceBackend}
    (hfree : (Slots.tryAcquire (slots backend.id)).1 = true) :
    ComesTo (fun w => Ready (script settings reply backend ++ next) w ∧ w.slots = slots)
      (chat settings backend false true) (callOutcome reply backend)
      fun w => Ready next w ∧ w.slots = slotsAfter slots backend.id := by
  refine ready_then (triple_known (ready_nextRefusal (inert_slots slots)) ?_)
  refine ready_then (triple_known (ready_nextRefusal (inert_slots slots)) ?_)
  simp only [Bool.false_eq_true, if_false]
  refine ComesTo.tryFinally (Q := fun w => Ready next w ∧ w.slots = slotsAfter slots backend.id) ?_ ready_await
  have hacquired : Triple (fun w => Ready (script settings reply backend ++ next) w ∧ w.slots = slots)
      (acquire backend.id) (fun _ w => Ready (script settings reply backend ++ next) w ∧
        w.slots = Function.update slots backend.id (Slots.tryAcquire (slots backend.id)).2) fun _ _ => False := by
    refine triple_known (ready_tryAcquire slots backend.id) ?_
    rw [if_pos hfree]
    exact triple_pure fun _ hw => hw
  refine triple_bind (hacquired.conseq (fun _ h => h) (fun _ _ h => h) fun _ _ h => h.elim) fun _ => ?_
  refine ComesTo.tryFinally (ready_jsonForward settings reply (inert_slots _) backend) ?_
  refine (ready_release _ backend.id).conseq (fun _ h => h) (fun _ w hw => ⟨hw.1, hw.2.trans ?_⟩) fun _ _ h => h
  rw [Function.update_self, Function.update_idem, slotsAfter]

end Calls

/-! ## All routes of a model -/

/-- The loop of `_chat_with_fallback`, given what the calls of the backends come to. -/
def failOver (outcome : Models.InferenceBackend → Except Exc ForwardResult) :
    ℕ → Option (ℕ × Detail) → List BackendError → List Models.ModelBackendRoute → Except Exc ForwardResult
  | _, none, _, [] => .error (.http 503 (.text "model backend is not active"))
  | _, some (statusCode, detail), backendErrors, [] => .error (.routesFailed statusCode detail.str backendErrors)
  | attempt, lastExc, backendErrors, route :: routes =>
    match route.inferenceBackend with
    | none => failOver outcome (attempt + 1) lastExc backendErrors routes
    | some backend =>
      match outcome backend with
      | .ok result => .ok { result with attempts := attempt, fallbackUsed := attempt > 1, backendErrors }
      | .error (.http statusCode detail) =>
        let backendErrors := backendErrors ++ [serializeBackendError route backend statusCode detail]
        if isRetryable statusCode then failOver outcome (attempt + 1) (some (statusCode, detail)) backendErrors routes
        else .error (.routesFailed statusCode detail.str backendErrors)
      | .error e => .error e

/-- Every backend of the routes has a free slot. -/
def Free (slots : Slots.BackendId → Option Slots.InferenceBackend) (routes : List Models.ModelBackendRoute) : Prop :=
  ∀ route ∈ routes, ∀ backend ∈ route.inferenceBackend, (Slots.tryAcquire (slots backend.id)).1 = true

/-- A slot that was free is free again. -/
theorem tryAcquire_release {row : Option Slots.InferenceBackend} (h : (Slots.tryAcquire row).1 = true) :
    (Slots.tryAcquire (Slots.release (Slots.tryAcquire row).2)).1 = true := by
  cases row with
  | none => cases h
  | some b =>
    simp only [Slots.tryAcquire] at h
    split_ifs at h with hactive hfull
    have hpos : 1 ≤ b.limit := le_max_right _ _
    have hstill : ¬ max (b.currentRunning + 1 - 1) 0 ≥ b.limit := by omega
    simp only [Slots.tryAcquire, if_neg hactive, if_neg hfull, Slots.release]
    rw [if_neg]
    exact hstill

theorem Free.after {slots : Slots.BackendId → Option Slots.InferenceBackend} {routes : List Models.ModelBackendRoute}
    (h : Free slots routes) (backendId : Slots.BackendId) : Free (slotsAfter slots backendId) routes := by
  intro route hroute backend hbackend
  have hfree := h route hroute backend hbackend
  by_cases hid : backend.id = backendId
  · subst hid
    rw [slotsAfter, Function.update_self]
    exact tryAcquire_release hfree
  · rw [slotsAfter, Function.update_of_ne hid]
    exact hfree

section Routes

variable (settings : Settings) (reply : Models.InferenceBackend → Reply)

/-- The answers to the posts, should all routes be tried. -/
def scripts (routes : List Models.ModelBackendRoute) : List Answer :=
  routes.flatMap fun route => (route.inferenceBackend.map (script settings reply)).getD []

theorem raiseRoutesFailed_failOver (n : ℕ) (lastExc : Option (ℕ × Detail)) (backendErrors : List BackendError)
    {P : World → Prop} : ComesTo P (raiseRoutesFailed lastExc backendErrors)
      (failOver (callOutcome reply) n lastExc backendErrors []) fun _ => True := by
  cases lastExc with
  | none => exact triple_raise fun _ _ => ⟨rfl, trivial⟩
  | some last => exact triple_raise fun _ _ => ⟨rfl, trivial⟩

theorem tryRoutes_failOver (next : List Answer) (routes : List Models.ModelBackendRoute) (n : ℕ)
    (lastExc : Option (ℕ × Detail)) (backendErrors : List BackendError)
    {slots : Slots.BackendId → Option Slots.InferenceBackend} (hfree : Free slots routes) :
    ComesTo (fun w => Ready (scripts settings reply routes ++ next) w ∧ w.slots = slots)
      (tryRoutes settings false n lastExc backendErrors routes)
      (failOver (callOutcome reply) n lastExc backendErrors routes) fun _ => True := by
  induction routes generalizing n lastExc backendErrors slots with
  | nil => exact raiseRoutesFailed_failOver reply n lastExc backendErrors
  | cons route routes ih =>
    have hrest : Free slots routes := fun r hr => hfree r (List.mem_cons_of_mem route hr)
    unfold tryRoutes failOver
    simp only [scripts, List.flatMap_cons]
    cases hbackend : route.inferenceBackend with
    | none => exact ih _ _ _ hrest
    | some backend =>
      have hchat := ready_chat_withSlot (scripts settings reply routes ++ next) settings reply
        (hfree route List.mem_cons_self backend hbackend)
      rw [← List.append_assoc] at hchat
      rcases callOutcome_cases reply backend with ⟨-, statusCode, body, -, hok⟩ | ⟨-, statusCode, detail, herror⟩
      · rw [hok] at hchat
        simp only [hok]
        refine triple_tryExcept (E := fun _ _ => False) ?_ fun _ _ hw => hw.elim
        refine triple_bind (hchat.conseq (fun _ h => h) (fun _ _ h => h) fun _ _ h => by cases h.1) fun result => ?_
        rintro w ⟨hresult, -⟩
        cases hresult
        exact ⟨rfl, trivial⟩
      · rw [herror] at hchat
        simp only [herror]
        refine triple_tryExcept (triple_bind (hchat.conseq (fun _ h => h) (fun _ _ h => h) fun _ _ h => h)
          fun result w hw => by cases hw.1) fun e => ?_
        rintro w ⟨he, hw⟩
        cases he
        dsimp only
        by_cases hretry : isRetryable statusCode = true
        · rw [if_pos hretry, if_pos hretry]
          exact ih (n + 1) (some (statusCode, detail)) _ (hrest.after backend.id) w hw
        · rw [if_neg hretry, if_neg hretry]
          exact ⟨rfl, trivial⟩

/-- **`_chat_with_fallback` fails over** as the replies say. -/
theorem chatWithFallback_failOver {routes : List Models.ModelBackendRoute} {w : World}
    (hready : Ready (scripts settings reply routes) w) (hfree : Free w.slots routes) :
    ((chatWithFallback settings routes false).exec w).1 = failOver (callOutcome reply) 1 none [] routes := by
  have htry := tryRoutes_failOver settings reply [] routes 1 none [] hfree w
    ⟨by rwa [List.append_nil], rfl⟩
  unfold chatWithFallback
  rcases hr : (tryRoutes settings false 1 none [] routes).exec w with ⟨e | result, w'⟩ <;> rw [hr] at htry
  · exact htry.1.symm
  · exact htry.1.symm

/-- Its calls fail, and `_chat_with_fallback` goes on to the next route. -/
def Retries (backend : Models.InferenceBackend) : Prop :=
  ∃ statusCode detail, callOutcome reply backend = .error (.http statusCode detail) ∧ isRetryable statusCode = true

/-- The routes up to the first that serves: all before it fail on the backend's side, or have no backend. -/
def Answerable (routes : List Models.ModelBackendRoute) : Prop :=
  ∃ failed route rest, routes = failed ++ route :: rest ∧
    (∃ backend, route.inferenceBackend = some backend ∧ Serves reply backend) ∧
      ∀ r ∈ failed, ∀ backend ∈ r.inferenceBackend, Retries reply backend

theorem answerable_cons {route : Models.ModelBackendRoute} {routes : List Models.ModelBackendRoute} :
    Answerable reply (route :: routes) ↔ (∃ backend, route.inferenceBackend = some backend ∧ Serves reply backend) ∨
      (∀ backend ∈ route.inferenceBackend, Retries reply backend) ∧ Answerable reply routes := by
  constructor
  · rintro ⟨failed, r, rest, hroutes, hserves, hfailed⟩
    cases failed with
    | nil =>
      cases hroutes
      exact .inl hserves
    | cons r' failed =>
      cases hroutes
      obtain ⟨hr', hfailed⟩ := List.forall_mem_cons.mp hfailed
      exact .inr ⟨hr', failed, r, rest, rfl, hserves, hfailed⟩
  · rintro (hserves | ⟨hroute, failed, r, rest, rfl, hserves, hfailed⟩)
    · exact ⟨[], route, routes, rfl, hserves, fun _ hr => absurd hr List.not_mem_nil⟩
    · exact ⟨route :: failed, r, rest, rfl, hserves, List.forall_mem_cons.mpr ⟨hroute, hfailed⟩⟩

theorem failOver_returns_iff (routes : List Models.ModelBackendRoute) (n : ℕ) (lastExc : Option (ℕ × Detail))
    (backendErrors : List BackendError) :
    (∃ result, failOver (callOutcome reply) n lastExc backendErrors routes = .ok result) ↔ Answerable reply routes := by
  induction routes generalizing n lastExc backendErrors with
  | nil =>
    refine iff_of_false ?_ ?_
    · rintro ⟨result, hresult⟩
      cases lastExc with
      | none => cases hresult
      | some => cases hresult
    · rintro ⟨failed, route, rest, hroutes, -⟩
      exact absurd hroutes.symm (List.append_ne_nil_of_right_ne_nil failed (List.cons_ne_nil route rest))
  | cons route routes ih =>
    rw [answerable_cons, failOver]
    cases hbackend : route.inferenceBackend with
    | none => simp [ih]
    | some backend =>
      rcases callOutcome_cases reply backend with ⟨hserves, _, _, -, hok⟩ | ⟨hfails, statusCode, detail, herror⟩
      · simp [hok, hserves]
      · by_cases hretry : isRetryable statusCode = true
        · simp [herror, hretry, hfails, ih, Retries]
        · simp [herror, hretry, hfails, Retries]

/-- **A request is answered exactly if some backend serves it and all before it fail on their side.** -/
theorem chatWithFallback_returns_iff {routes : List Models.ModelBackendRoute} {w : World}
    (hready : Ready (scripts settings reply routes) w) (hfree : Free w.slots routes) :
    (∃ result, ((chatWithFallback settings routes false).exec w).1 = .ok result) ↔ Answerable reply routes := by
  rw [chatWithFallback_failOver settings reply hready hfree, failOver_returns_iff]

end Routes

end LlmStore.Inference.FixedOutcomes
