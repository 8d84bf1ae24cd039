import LlmStore.Jobs.Ledgers
import LlmStore.Lib.Run

/-!
# The work on a job, call by call

`process_generation_job` as a machine that makes one call at a time: of the database, of Redis, of the slot manager, of
the proxy, or of a function that may raise. `Phase.next` is its control flow, with `unwind` for an exception, and `step`
adds what the calls of the slot manager do to the rows of the backends. Other transactions may change these rows between
any two calls.

The program of the same name makes only such runs, whichever of its calls fail (`process_steps`).
-/

namespace LlmStore.Jobs

open LlmStore.Lib LlmStore.Inference Program

/-! ## The machine -/

/-- How far a call of `process_generation_job` has come. -/
inductive Phase where
  /-- The row of the job is not loaded. -/
  | loading
  /-- `failed` is about to be committed, and no slot is taken. -/
  | refusing
  /-- The cache is not looked up; the backends of the model are those of its routes, if it exists and they can be
  planned. -/
  | looking (backends : Option (Except Models.LoadError (List Slots.BackendId)))
  /-- The cache has the answer. -/
  | answering
  /-- The usage of the cached answer is recorded. -/
  | answered
  /-- In the loop over the routes, with so many backends ahead. -/
  | choosing (backends : List Slots.BackendId)
  /-- A slot is taken; `running` is about to be committed. -/
  | claiming (backend : Slots.BackendId)
  /-- At the beginning of the `try`. -/
  | claimed (backend : Slots.BackendId)
  /-- `proxy.chat` has been called. -/
  | called (backend : Slots.BackendId)
  /-- `record_usage` has been called. -/
  | booked (backend : Slots.BackendId)
  /-- In `except HTTPException`. -/
  | failing (backend : Slots.BackendId)
  /-- In `finally`, with what the `try` returns; `none` after an exception. -/
  | releasing (backend : Slots.BackendId) (result : Option JobResult)
  | ended (result : Option JobResult)

/-- A call of `process_generation_job`, and what it gives. -/
inductive Call where
  /-- The row of the job with what is loaded with it. -/
  | load (status : Option JobStatus) (rel : Relations)
  | lookup (hit : Bool)
  | tryAcquire (backend : Slots.BackendId) (acquired : Bool)
  /-- `redis_client.llen` before the return of `"requeue"`. -/
  | llen
  | chat
  | recordUsage
  | commit
  /-- Any other call that returns. -/
  | other
  | release (backend : Slots.BackendId)
  /-- A call raises: an `HTTPException`, or anything else. -/
  | raised (http : Bool)
  /-- A commit raises, and the database has committed or not. -/
  | commitFault (committed : Bool)
  /-- The slot manager raises, and has taken the slot, if there is one, or not. -/
  | acquireFault (backend : Slots.BackendId) (taken : Bool)
  | releaseFault (backend : Slots.BackendId) (released : Bool)

/-- The backends of routes. -/
def backendIds (routes : List Models.ModelBackendRoute) : List Slots.BackendId :=
  routes.filterMap fun route => route.inferenceBackend.map (·.id)

/-- The backends of the planned routes. -/
def Relations.backends (rel : Relations) : Option (Except Models.LoadError (List Slots.BackendId)) :=
  rel.routes.map fun routes => routes.map backendIds

namespace Phase

/-- Where an exception leads. The `finally` reads `chosen_route.inference_backend_id`, which is taken to succeed also
after a flush has failed. -/
def unwind : Phase → Bool → Phase
  | .claimed b, true | .called b, true | .booked b, true => .failing b
  | .claimed b, false | .called b, false | .booked b, false | .failing b, _ => .releasing b none
  | _, _ => .ended none

/-- The calls that are made outside the `finally`. -/
def live : Phase → Bool
  | .releasing _ _ | .ended _ => false
  | _ => true

/-- After the row of the job is loaded. -/
def loaded (rel : Relations) : Option JobStatus → Phase
  | none => .ended (some .missing)
  | some status =>
    if status ≠ .queued then .ended (some .skipped)
    else if !rel.mayRun then .refusing
    else .looking rel.backends

def next : Phase → Call → Option Phase
  | .loading, .load status rel => some (loaded rel status)
  | .refusing, .commit => some (.ended (some .failed))
  | .looking _, .lookup true => some .answering
  | .looking none, .lookup false => some .refusing
  -- The planning raises before a route is tried.
  | .looking (some (.error _)), .lookup false => some (.ended none)
  | .looking (some (.ok bs)), .lookup false => some (.choosing bs)
  | .answering, .recordUsage => some .answered
  | .answered, .commit => some (.ended (some .completed))
  | .choosing (b :: bs), .tryAcquire b' acquired =>
    if b' = b then some (if acquired then .claiming b else .choosing bs) else none
  | .choosing (b :: _), .acquireFault b' _ => if b' = b then some (.ended none) else none
  | .choosing [], .llen => some (.ended (some .requeue))
  | .claiming b, .commit => some (.claimed b)
  | .claimed b, .chat => some (.called b)
  | .called b, .recordUsage => some (.booked b)
  | .booked b, .commit => some (.releasing b (some .completed))
  | .failing b, .commit => some (.releasing b (some .failed))
  | .releasing b r, .release b' => if b' = b then some (.ended r) else none
  | .releasing b _, .releaseFault b' _ => if b' = b then some (.ended none) else none
  | p, .other => if p.live then some p else none
  | p, .raised http => if p.live then some (p.unwind http) else none
  | p, .commitFault _ => if p.live then some (p.unwind false) else none
  | _, _ => none

end Phase

/-- The calls that a run may make anywhere outside the `finally`, and where they lead. -/
def Call.anywhere (p : Phase) : Call → Option Phase
  | .other => some p
  | .raised http => some (p.unwind http)
  | .commitFault _ => some (p.unwind false)
  | _ => none

theorem next_anywhere {p q : Phase} {c : Call} (hc : c.anywhere p = some q) :
    p.next c = if p.live then some q else none := by
  cases c with
  | other | raised | commitFault =>
    cases hc
    cases p with
    | looking bs => rcases bs with _ | _ | _ <;> rfl
    | choosing bs => cases bs <;> rfl
    | _ => rfl
  | _ => cases hc

theorem next_of_live {p q : Phase} {c : Call} (hp : p.live = true) (hc : c.anywhere p = some q) :
    p.next c = some q := by
  rw [next_anywhere hc, if_pos hp]

/-- A run of `process_generation_job`, and the rows of the backends. -/
structure Work where
  phase : Phase
  slots : Slots.BackendId → Option Slots.InferenceBackend

inductive WorkAction where
  | call (c : Call)
  /-- Another transaction changes the row of a backend. -/
  | elsewhere (backend : Slots.BackendId) (row : Option Slots.InferenceBackend)

/-- What a call does to the rows, if it can give what it gives. -/
def Call.onSlots (slots : Slots.BackendId → Option Slots.InferenceBackend) :
    Call → Option (Slots.BackendId → Option Slots.InferenceBackend)
  | .tryAcquire b acquired =>
    if (Slots.tryAcquire (slots b)).1 = acquired then
      some (Function.update slots b (Slots.tryAcquire (slots b)).2)
    else none
  | .acquireFault b true => some (Function.update slots b (Slots.tryAcquire (slots b)).2)
  | .release b | .releaseFault b true => some (Function.update slots b (Slots.release (slots b)))
  | _ => some slots

namespace Work

def step (w : Work) : WorkAction → Option Work
  | .call c =>
    match w.phase.next c, c.onSlots w.slots with
    | some phase, some slots => some ⟨phase, slots⟩
    | _, _ => none
  | .elsewhere b row => some { w with slots := Function.update w.slots b row }

theorem step_call_iff {w w' : Work} {c : Call} :
    w.step (.call c) = some w' ↔ w.phase.next c = some w'.phase ∧ c.onSlots w.slots = some w'.slots := by
  obtain ⟨phase', slots'⟩ := w'
  cases hp : w.phase.next c with
  | none => simp [step, hp]
  | some phase =>
    cases hs : c.onSlots w.slots with
    | none => simp [step, hp, hs]
    | some slots => simp [step, hp, hs]

end Work

/-- A queued job with one route. -/
theorem loaded_oneRoute : Phase.loaded oneRoute (some .queued) = .looking (some (.ok [0])) := by
  have hbackends : oneRoute.backends = some (.ok [0]) := by decide +kernel
  rw [← hbackends]
  rfl

/-! ## The program makes such runs -/

/-- A run of the machine from `σ` has come to the phase, with the rows of the world. -/
def At (σ : Work) (p : Phase) (w : World) : Prop :=
  ∃ calls : List Call, run Work.step σ (calls.map .call) = some ⟨p, w.slots⟩

section At

variable {σ : Work} {p q : Phase} {w w' : World}

theorem At.call {c : Call} (h : At σ p w) (hc : p.next c = some q) (hs : c.onSlots w.slots = some w'.slots) :
    At σ q w' := by
  obtain ⟨calls, hcalls⟩ := h
  refine ⟨calls ++ [c], ?_⟩
  rw [List.map_append, List.map_singleton]
  exact run_snoc_iff.mpr ⟨_, hcalls, Work.step_call_iff.mpr ⟨hc, hs⟩⟩

theorem At.same (h : At σ p w) (hs : w'.slots = w.slots) : At σ p w' := by
  unfold At
  rw [hs]
  exact h

end At

/-- The program leaves the rows of the backends alone. -/
abbrev Apart {α : Type} (x : Prog α) : Prop :=
  KeepsAll (fun slots w => w.slots = slots) (fun _ => True) (fun _ => True) x

section Apart

theorem apart_modifyGet {α : Type} {f : World → α × World} (hf : ∀ w, (f w).2.slots = w.slots) :
    Apart (Program.modifyGet f) :=
  keepsAll_modifyGet fun _ w hw => ⟨(hf w).trans hw, trivial⟩

theorem apart_modify {f : World → World} (hf : ∀ w, (f w).slots = w.slots) : Apart (Program.modify f) :=
  apart_modifyGet hf

theorem apart_pure {α : Type} (a : α) : Apart (pure a) := keepsAll_pure trivial

theorem apart_raise {α : Type} (e : Exc) : Apart (α := α) (raise e) := keepsAll_raise trivial

theorem apart_nextFault : Apart nextFault := apart_modifyGet fun _ => rfl

theorem apart_await : Apart await := apart_nextFault.bind fun _ _ => .ite (apart_raise _) (apart_pure _)

theorem apart_utcNow : Apart utcNow := apart_modifyGet fun _ => rfl

theorem apart_changeUsage (f : Usage.UsageTables → Usage.UsageTables) : Apart (changeUsage f) :=
  apart_modify fun _ => rfl

theorem apart_recordUsage (clientId : Usage.ClientId) (p q : ℤ) : Apart (recordUsage clientId p q) :=
  apart_utcNow.bind fun _ _ => apart_await.bind fun _ _ => (apart_changeUsage _).bind fun _ _ =>
    apart_await.bind fun _ _ => apart_changeUsage _

theorem apart_logRequest (row : RequestLog) : Apart (logRequest row) :=
  apart_await.bind fun _ _ => apart_modify fun _ => rfl

theorem apart_redisIncr : Apart redisIncr :=
  apart_await.bind fun _ _ => (apart_modifyGet fun _ => rfl).bind fun _ _ =>
    .ite (apart_await.bind fun _ _ => apart_pure _) (apart_pure _)

theorem apart_maybeRecordRequestErrorBurst (clientId : Usage.ClientId) (statusCode : ℕ) :
    Apart (maybeRecordRequestErrorBurst clientId statusCode) := by
  have hlog : ∀ event, Apart (logSecurityEvent event) := fun _ => apart_await.bind fun _ _ => apart_modify fun _ => rfl
  have hgated : ∀ event, Apart (recordGated event) := fun event =>
    apart_await.bind fun _ _ => (apart_modifyGet fun _ => rfl).bind fun _ _ => .ite (apart_pure _) (hlog event)
  exact .ite (apart_pure _) (apart_redisIncr.bind fun _ _ => .ite (hgated _) (apart_pure _))

theorem apart_lookupExactCache (settings : Settings) (key : CacheKey) : Apart (lookupExactCache settings key) := by
  refine .ite (apart_utcNow.bind fun _ _ => apart_await.bind fun _ _ => apart_modifyGet fun w => ?_) (apart_pure _)
  split
  · rfl
  · split <;> rfl

theorem apart_storeExactCache (settings : Settings) (key : CacheKey) (fingerprint json : String) (p q : ℤ) :
    Apart (storeExactCache settings key fingerprint json p q) :=
  .ite (apart_utcNow.bind fun _ _ => apart_await.bind fun _ _ => apart_modify fun _ => rfl) (apart_pure _)

theorem apart_updateJob (jobId : JobId) (f : GenerationJob → GenerationJob) : Apart (updateJob jobId f) := by
  refine apart_modify fun w => ?_
  rfl

theorem apart_post (backendName : String) : Apart (post backendName) := by
  refine apart_await.bind fun _ _ => (apart_modifyGet fun _ => rfl).bind fun answer _ => ?_
  cases answer with
  | transportError => exact apart_pure _
  | response statusCode payload shown =>
    refine .ite (apart_await.bind fun _ _ => ?_) (apart_pure _)
    cases payload with
    | none => exact apart_raise _
    | some body => exact apart_pure _

theorem apart_postLoop (backendName : String) : ∀ n, Apart (postLoop backendName n)
  | 0 => apart_post backendName
  | n + 1 => by
    refine (apart_post backendName).bind fun r _ => ?_
    cases r with
    | inl result => exact apart_pure _
    | inr e => exact .ite (apart_await.bind fun _ _ => apart_postLoop backendName n) (apart_pure _)

/-- A call of the proxy by a worker takes no slot. -/
theorem apart_jobChat (settings : Settings) (backend : Models.InferenceBackend) : Apart (jobChat settings backend) := by
  have hclient : Apart (clientForBackend backend.provider) := .ite (apart_raise _) (apart_pure _)
  refine apart_await.bind fun _ _ => (apart_modifyGet fun _ => rfl).bind fun _ _ => .ite (apart_raise _) ?_
  refine hclient.bind fun _ _ => (apart_postLoop _ _).bind fun r _ => ?_
  cases r with
  | inl result => exact apart_pure _
  | inr e => exact .ite (apart_await.bind fun _ _ => apart_raise _) (apart_raise _)

end Apart

section Simulation

variable {σ : Work} {p q : Phase}

/-- Where an exception of the program leads. -/
abbrev Raises (σ : Work) (p : Phase) (e : Exc) : World → Prop := At σ (p.unwind e.httpError.isSome)

/-- Calls that leave the rows alone stay in their phase, or raise. -/
theorem Apart.at {α : Type} {x : Prog α} (hx : Apart x) (hp : p.live = true) :
    Triple (At σ p) x (fun _ => At σ p) (Raises σ p) := by
  intro w hw
  have hslots := hx w.slots w rfl
  rcases hr : x.exec w with ⟨e | a, w'⟩ <;> rw [hr] at hslots
  · exact hw.call (c := .raised _) (next_of_live hp rfl) (congrArg some hslots.1.symm)
  · exact hw.same hslots.1

/-- A call of which the machine knows. -/
theorem at_call (c : Call) (hc : p.next c = some q) (hs : ∀ slots, c.onSlots slots = some slots) {w : World}
    (hw : At σ p w) : At σ q w := hw.call hc (hs _)

theorem at_commit (hp : p.live = true) (hc : p.next .commit = some q) :
    Triple (At σ p) commit (fun _ => At σ q) (Raises σ p) := by
  have hfault : Triple (At σ p) nextFault (fun _ => At σ p) (Raises σ p) := apart_nextFault.at hp
  have hwrite : ∀ {p}, Triple (At σ p) (modify fun w => { w with committed := w.current } : Prog Unit)
      (fun _ => At σ p) fun _ _ => False := triple_modify fun w hw => hw.same rfl
  refine triple_bind hfault fun fault => ?_
  cases fault with
  | false =>
    intro w hw
    exact (at_call .commit hc (fun _ => rfl) hw).same rfl
  | true =>
    refine triple_bind hfault fun committed => ?_
    intro w hw
    have hraised := at_call (.commitFault committed) (next_of_live hp rfl) (fun _ => rfl) hw
    cases committed with
    | false => exact hraised
    | true => exact hraised.same rfl

theorem at_failEarly (jobId : JobId) (message : String) :
    Triple (At σ .refusing) (failEarly jobId message) (fun r => At σ (.ended (some r))) fun _ => At σ (.ended none) := by
  refine triple_bind ((apart_updateJob jobId _).at rfl) fun _ => ?_
  refine triple_bind (Q := fun _ => At σ (.ended (some .failed))) (at_commit rfl rfl) fun _ => ?_
  exact triple_pure fun _ hw => hw

theorem at_completeFromCache (jobId : JobId) (job : GenerationJob) (cached : CachedResponse) :
    Triple (At σ .answering) (completeFromCache jobId job cached) (fun r => At σ (.ended (some r)))
      fun _ => At σ (.ended none) := by
  have hrecord : Triple (At σ .answering) (recordUsage job.clientId job.promptTokensEstimated cached.completionTokens)
      (fun _ => At σ .answered) fun _ => At σ (.ended none) := fun w hw =>
    (apart_recordUsage _ _ _).at (p := .answered) rfl w (at_call .recordUsage rfl (fun _ => rfl) hw)
  refine triple_bind (triple_bind hrecord fun _ => (apart_logRequest _).at rfl) fun _ => ?_
  refine triple_bind ((apart_updateJob jobId _).at rfl) fun _ => ?_
  refine triple_bind (Q := fun _ => At σ (.ended (some .completed))) (at_commit rfl rfl) fun _ => ?_
  exact triple_pure fun _ hw => hw

/-- The transaction of `try_acquire` is over, and its answer not yet given. -/
def Asked (σ : Work) (b : Slots.BackendId) (rest : List Slots.BackendId) (acquired : Bool) (w : World) : Prop :=
  ∃ w₀, At σ (.choosing (b :: rest)) w₀ ∧ (Slots.tryAcquire (w₀.slots b)).1 = acquired ∧
    w.slots = Function.update w₀.slots b (Slots.tryAcquire (w₀.slots b)).2

/-- `try_acquire`, and its failure before or after the transaction. -/
theorem at_tryAcquire (b : Slots.BackendId) (rest : List Slots.BackendId) :
    Triple (At σ (.choosing (b :: rest))) (tryAcquire b)
      (fun acquired => At σ (if acquired then .claiming b else .choosing rest)) fun _ => At σ (.ended none) := by
  have hnext : ∀ acquired, (Phase.choosing (b :: rest)).next (.tryAcquire b acquired) =
      some (if acquired then .claiming b else .choosing rest) := fun _ => if_pos rfl
  have hfault : ∀ taken, (Phase.choosing (b :: rest)).next (.acquireFault b taken) = some (.ended none) :=
    fun _ => if_pos rfl
  have htake : Triple (At σ (.choosing (b :: rest)))
      (modifyGet fun w => ((Slots.tryAcquire (w.slots b)).1,
        { w with slots := Function.update w.slots b (Slots.tryAcquire (w.slots b)).2 }) : Prog Bool)
      (fun acquired w => Asked σ b rest acquired w) fun _ => At σ (.ended none) :=
    triple_modifyGet fun w hw => ⟨w, hw, rfl, rfl⟩
  refine triple_bind (Q := fun _ => At σ (.choosing (b :: rest))) (apart_await.at rfl) fun _ =>
    triple_bind htake fun acquired => ?_
  rintro w ⟨w₀, hw₀, hacquired, hslots⟩
  have hreturn : At σ (if acquired then .claiming b else .choosing rest) w := by
    refine hw₀.call (hnext acquired) ?_
    rw [Call.onSlots, if_pos hacquired, hslots]
  have hraise : At σ (.ended none) w := hw₀.call (hfault true) (congrArg some hslots.symm)
  have hkept := apart_await w.slots w rfl
  show Outcome _ _ ((await >>= fun _ => pure acquired).exec w)
  rcases hr : await.exec w with ⟨e | _, w'⟩ <;> rw [hr] at hkept
  · rw [exec_bind_error hr]
    exact hraise.same hkept.1
  · rw [exec_bind_ok hr]
    exact hreturn.same hkept.1

/-- The loop over the routes ends with a slot of the chosen backend, or without one. -/
theorem at_chooseRoute (routes : List Models.ModelBackendRoute) :
    Triple (At σ (.choosing (backendIds routes))) (chooseRoute routes)
      (fun backend => At σ (match backend with
        | none => .choosing []
        | some backend => .claiming backend.id))
      fun _ => At σ (.ended none) := by
  induction routes with
  | nil => exact triple_pure fun _ hw => hw
  | cons route routes ih =>
    unfold chooseRoute
    cases hb : route.inferenceBackend with
    | none => simpa [backendIds, hb] using ih
    | some backend =>
      have hids : backendIds (route :: routes) = backend.id :: backendIds routes := by simp [backendIds, hb]
      rw [hids]
      refine triple_bind (at_tryAcquire backend.id _) fun acquired => ?_
      cases acquired with
      | true => exact triple_pure fun _ hw => hw
      | false => exact ih

/-- The `finally`, and its failure before or after the transaction. -/
theorem at_release (b : Slots.BackendId) (r : Option JobResult) :
    Triple (At σ (.releasing b r)) (release b) (fun _ => At σ (.ended r)) fun _ => At σ (.ended none) := by
  have hnext : (Phase.releasing b r).next (.release b) = some (.ended r) := if_pos rfl
  have hfault : ∀ released, (Phase.releasing b r).next (.releaseFault b released) = some (.ended none) :=
    fun _ => if_pos rfl
  have hbefore : Triple (At σ (.releasing b r)) await (fun _ => At σ (.releasing b r)) fun _ => At σ (.ended none) := by
    intro w hw
    have hkept := apart_await w.slots w rfl
    rcases hr : await.exec w with ⟨e | _, w'⟩ <;> rw [hr] at hkept
    · exact (hw.call (hfault false) rfl).same hkept.1
    · exact hw.same hkept.1
  refine triple_bind hbefore fun _ => ?_
  intro w hw
  let w₁ := { w with slots := Function.update w.slots b (Slots.release (w.slots b)) }
  have hreturn : At σ (.ended r) w₁ := hw.call hnext rfl
  have hraise : At σ (.ended none) w₁ := hw.call (hfault true) rfl
  have hkept := apart_await w₁.slots w₁ rfl
  show Outcome _ _ (await.exec w₁)
  rcases hr : await.exec w₁ with ⟨e | _, w'⟩ <;> rw [hr] at hkept
  · exact hraise.same hkept.1
  · exact hreturn.same hkept.1

section Proxy

variable {settings : Settings} {proxyChat : Models.InferenceBackend → Prog ForwardResult}
  (hproxy : ∀ backend, Apart (proxyChat backend))

include hproxy

/-- The `try` without its `except`. -/
theorem at_generate (jobId : JobId) (job : GenerationJob) (backend : Models.InferenceBackend) :
    Triple (At σ (.claimed backend.id)) (generate settings proxyChat jobId job backend)
      (fun r => At σ (.releasing backend.id (some r))) (Raises σ (.claimed backend.id)) := by
  have hunwind : ∀ {p : Phase}, (∀ http, p.unwind http = (Phase.claimed backend.id).unwind http) →
      ∀ e w, Raises σ p e w → Raises σ (.claimed backend.id) e w := by
    intro p hp e w hw
    rw [Raises, ← hp]
    exact hw
  have hchat : Triple (At σ (.claimed backend.id)) (proxyChat backend) (fun _ => At σ (.called backend.id))
      (Raises σ (.claimed backend.id)) := by
    intro w hw
    have hcalled := at_call .chat (q := .called backend.id) rfl (fun _ => rfl) hw
    refine (((hproxy backend).at rfl).conseq (fun _ h => h) (fun _ _ h => h) (hunwind fun http => ?_)) w hcalled
    cases http <;> rfl
  have hrecord : ∀ n, Triple (At σ (.called backend.id)) (recordUsage job.clientId job.promptTokensEstimated n)
      (fun _ => At σ (.booked backend.id)) (Raises σ (.claimed backend.id)) := by
    intro n w hw
    have hbooked := at_call .recordUsage (q := .booked backend.id) rfl (fun _ => rfl) hw
    refine (((apart_recordUsage _ _ n).at rfl).conseq (fun _ h => h) (fun _ _ h => h) (hunwind fun http => ?_)) w
      hbooked
    cases http <;> rfl
  have hcalled : ∀ {α : Type} {x : Prog α}, Apart x → Triple (At σ (.called backend.id)) x
      (fun _ => At σ (.called backend.id)) (Raises σ (.claimed backend.id)) := fun hx =>
    (hx.at rfl).conseq (fun _ h => h) (fun _ _ h => h) (hunwind fun http => by cases http <;> rfl)
  have hbooked : ∀ {α : Type} {x : Prog α}, Apart x → Triple (At σ (.booked backend.id)) x
      (fun _ => At σ (.booked backend.id)) (Raises σ (.claimed backend.id)) := fun hx =>
    (hx.at rfl).conseq (fun _ h => h) (fun _ _ h => h) (hunwind fun http => by cases http <;> rfl)
  have hcommit : Triple (At σ (.booked backend.id)) commit (fun _ => At σ (.releasing backend.id (some .completed)))
      (Raises σ (.claimed backend.id)) :=
    (at_commit rfl rfl).conseq (fun _ h => h) (fun _ _ h => h) (hunwind fun http => by cases http <;> rfl)
  refine triple_bind hchat fun result => triple_bind (hcalled (apart_storeExactCache _ _ _ _ _ _)) fun _ => ?_
  refine triple_bind (triple_bind (hrecord _) fun _ => hbooked (apart_logRequest _)) fun _ => ?_
  exact triple_bind (hbooked (apart_updateJob jobId _)) fun _ => triple_bind hcommit fun _ => triple_pure fun _ hw => hw

/-- The `try` with its `except HTTPException`. -/
theorem at_orFail (jobId : JobId) (job : GenerationJob) (backend : Models.InferenceBackend) :
    Triple (At σ (.claimed backend.id))
      (orFail jobId job backend (generate settings proxyChat jobId job backend))
      (fun r => At σ (.releasing backend.id (some r))) fun _ => At σ (.releasing backend.id none) := by
  refine triple_tryExcept (at_generate hproxy jobId job backend) fun exc => ?_
  cases he : exc.httpError with
  | none =>
    refine triple_raise fun w hw => ?_
    rw [Raises, he] at hw
    exact hw
  | some e =>
    refine Triple.pre (P := At σ (.failing backend.id)) ?_ fun w hw => ?_
    · refine triple_bind ((apart_logRequest _).at rfl) fun _ => ?_
      refine triple_bind ((apart_updateJob jobId _).at rfl) fun _ => ?_
      refine triple_bind ((apart_maybeRecordRequestErrorBurst _ _).at rfl) fun _ => ?_
      refine triple_bind (Q := fun _ => At σ (.releasing backend.id (some .failed))) (at_commit rfl rfl) fun _ => ?_
      exact triple_pure fun _ hw => hw
    · rw [Raises, he] at hw
      exact hw

theorem at_runOn (jobId : JobId) (job : GenerationJob) (backend : Models.InferenceBackend) :
    Triple (At σ (.claiming backend.id)) (runOn settings proxyChat jobId job backend)
      (fun r => At σ (.ended (some r))) fun _ => At σ (.ended none) := by
  refine triple_bind ((apart_updateJob jobId _).at rfl) fun _ => ?_
  refine triple_bind (Q := fun _ => At σ (.claimed backend.id)) (at_commit rfl rfl) fun _ => ?_
  exact triple_tryFinally (at_orFail hproxy jobId job backend) (fun r => at_release backend.id (some r)) fun _ =>
    at_release backend.id none

/-- **The program makes only runs of the machine**, whatever fails. -/
theorem process_steps (jobId : JobId) (rel : Relations) (slots : Slots.BackendId → Option Slots.InferenceBackend) :
    Triple (fun w => w.slots = slots) (processGenerationJob settings proxyChat jobId rel)
      (fun r => At ⟨.loading, slots⟩ (.ended (some r))) fun _ => At ⟨.loading, slots⟩ (.ended none) := by
  refine Triple.pre (P := At ⟨.loading, slots⟩ .loading) ?_ fun w hw => ⟨[], hw ▸ rfl⟩
  generalize (⟨.loading, slots⟩ : Work) = σ
  have hload : Triple (At σ .loading) (loadJob jobId)
      (fun job => At σ (Phase.loaded rel (job.map (·.status)))) fun _ => At σ (.ended none) := by
    refine triple_bind (Q := fun _ => At σ .loading) (apart_await.at rfl) fun _ => triple_modifyGet fun w hw => ?_
    exact at_call (.load _ rel) rfl (fun _ => rfl) hw
  refine triple_bind hload fun job => ?_
  cases job with
  | none => exact triple_pure fun _ hw => hw
  | some job =>
    simp only [Option.map_some, Phase.loaded]
    by_cases hqueued : job.status ≠ .queued
    · rw [if_pos hqueued, if_pos hqueued]
      exact triple_pure fun _ hw => hw
    rw [if_neg hqueued, if_neg hqueued]
    by_cases hmay : (!rel.mayRun) = true
    · rw [if_pos hmay, if_pos hmay]
      exact at_failEarly jobId _
    rw [if_neg hmay, if_neg hmay]
    have hlookup := (apart_lookupExactCache settings (jobKey job)).at (p := .looking rel.backends) (σ := σ) rfl
    refine triple_bind hlookup fun cached => ?_
    cases cached with
    | some cached =>
      refine (at_completeFromCache jobId job cached).pre fun w hw => ?_
      refine at_call (.lookup true) ?_ (fun _ => rfl) hw
      rcases rel.backends with _ | _ | _ <;> rfl
    | none =>
      unfold processOnBackend
      cases hroutes : rel.routes with
      | none =>
        refine (at_failEarly jobId _).pre fun w hw => at_call (.lookup false) ?_ (fun _ => rfl) hw
        rw [Relations.backends, hroutes]
        rfl
      | some planned =>
        cases planned with
        | error e =>
          refine triple_raise fun w hw => at_call (.lookup false) (q := .ended none) ?_ (fun _ => rfl) hw
          rw [Relations.backends, hroutes]
          rfl
        | ok routes =>
          refine Triple.pre ?_ fun w hw => at_call (.lookup false) (q := .choosing _) (by
            rw [Relations.backends, hroutes]
            rfl) (fun _ => rfl) hw
          refine triple_bind (at_chooseRoute routes) fun backend => ?_
          cases backend with
          | none =>
            refine triple_bind (Q := fun _ => At σ (.choosing [])) (apart_await.at rfl) fun _ => ?_
            exact triple_pure fun w hw => at_call .llen rfl (fun _ => rfl) hw
          | some backend => exact at_runOn hproxy jobId job backend

end Proxy

end Simulation

end LlmStore.Jobs
