import LlmStore.Inference.Handlers

/-!
# Calls that touch no ledger

The calls of Redis, of the slot manager and of the backends, a look into the exact cache and a row in the security log
change nothing of a world but what a family of invariants may be asked not to read: they keep each invariant that is
`Steady`. A call of the proxy hands on what a backend has answered (`Backends`).
-/

namespace LlmStore.Inference

open LlmStore.Lib LlmStore.Usage Program

/-- The worlds differ at most in the slots, the security log, the hit counts, and in the answers from outside that are
used up. -/
structure SameBooks (w w' : World) : Prop where
  committed : w'.committed = w.committed
  usage : w'.current.usage = w.current.usage
  requestLogs : w'.current.requestLogs = w.current.requestLogs
  jobs : w'.current.jobs = w.current.jobs
  queue : w'.queue = w.queue
  clock : ∃ k, ∀ n, w'.env.clock n = w.env.clock (n + k)
  answers : ∃ k, ∀ n, w'.env.answers n = w.env.answers (n + k)
  cache : ∀ key row', w'.current.responseCache.lookup key = some row' → ∃ row,
    w.current.responseCache.lookup key = some row ∧ row'.completionTokensEstimated = row.completionTokensEstimated

theorem SameBooks.refl (w : World) : SameBooks w w :=
  ⟨rfl, rfl, rfl, rfl, rfl, ⟨0, fun _ => rfl⟩, ⟨0, fun _ => rfl⟩, fun _ row h => ⟨row, h, rfl⟩⟩

/-- The worlds have the same faults to come, too. -/
structure SameState (w w' : World) : Prop extends SameBooks w w' where
  faults : w'.env.faults = w.env.faults

/-- A step that changes only the slots or the security log. -/
theorem SameState.of_eq {w w' : World} (hcommitted : w'.committed = w.committed)
    (husage : w'.current.usage = w.current.usage)
    (hlogs : w'.current.requestLogs = w.current.requestLogs) (hjobs : w'.current.jobs = w.current.jobs)
    (hqueue : w'.queue = w.queue) (hclock : w'.env.clock = w.env.clock) (hanswers : w'.env.answers = w.env.answers)
    (hcache : w'.current.responseCache = w.current.responseCache) (hfaults : w'.env.faults = w.env.faults) :
    SameState w w' :=
  ⟨⟨hcommitted, husage, hlogs, hjobs, hqueue, ⟨0, fun n => congrFun hclock n⟩, ⟨0, fun n => congrFun hanswers n⟩,
    fun _ row h => ⟨row, hcache ▸ h, rfl⟩⟩, hfaults⟩

/-- An awaited call keeps the invariants and raises only exceptions with `F`, and so does everything that changes no
more than `SameState` says. -/
structure Steady {ι : Type} (I : ι → World → Prop) (F : Exc → Prop) : Prop where
  await : KeepsAll I (fun _ => True) F await
  same : ∀ i {w w' : World}, SameState w w' → I i w → I i w'

namespace Steady

variable {ι α : Type} {I : ι → World → Prop} {F : Exc → Prop} (h : Steady I F)

include h

theorem modifyGet {f : World → α × World} (hf : ∀ w, SameState w (f w).2) :
    KeepsAll I (fun _ => True) F (modifyGet f) :=
  keepsAll_modifyGet fun i w hw => ⟨h.same i (hf w) hw, trivial⟩

theorem modify {f : World → World} (hf : ∀ w, SameState w (f w)) : KeepsAll I (fun _ => True) F (modify f) :=
  h.modifyGet hf

theorem utcNow : KeepsAll I (fun _ => True) F utcNow :=
  h.modifyGet fun w => ⟨{ SameBooks.refl w with clock := ⟨1, fun _ => rfl⟩ }, rfl⟩

theorem redisReply : KeepsAll I (fun _ => True) F redisReply :=
  h.modifyGet fun _ => .of_eq rfl rfl rfl rfl rfl rfl rfl rfl rfl

theorem nextRefusal : KeepsAll I (fun _ => True) F nextRefusal :=
  h.modifyGet fun _ => .of_eq rfl rfl rfl rfl rfl rfl rfl rfl rfl

theorem redisIncr : KeepsAll I (fun _ => True) F redisIncr :=
  h.await.bind fun _ _ => h.redisReply.bind fun _ _ =>
    .ite (h.await.bind fun _ _ => keepsAll_pure trivial) (keepsAll_pure trivial)

theorem enforceIpRateLimit (hF : ∀ message, F (.rateLimitExceeded message)) (sourceIp : String) (n : ℤ) :
    KeepsAll I (fun _ => True) F (enforceIpRateLimit sourceIp n) :=
  h.redisIncr.bind fun _ _ => .ite (keepsAll_raise (hF _)) (keepsAll_pure trivial)

theorem enforceRateLimit (hF : ∀ message, F (.rateLimitExceeded message)) (n : ℤ) :
    KeepsAll I (fun _ => True) F (enforceRateLimit n) :=
  h.redisIncr.bind fun _ _ => .ite (keepsAll_raise (hF _)) (keepsAll_pure trivial)

theorem logSecurityEvent (event : SecurityEvent) : KeepsAll I (fun _ => True) F (logSecurityEvent event) :=
  h.await.bind fun _ _ => h.modify fun _ => .of_eq rfl rfl rfl rfl rfl rfl rfl rfl rfl

theorem recordGated (event : SecurityEvent) : KeepsAll I (fun _ => True) F (recordGated event) :=
  h.await.bind fun _ _ => h.redisReply.bind fun _ _ => .ite (keepsAll_pure trivial) (h.logSecurityEvent event)

theorem maybeRecordRepeatedLargePrompt (clientId : ClientId) (n : ℤ) :
    KeepsAll I (fun _ => True) F (maybeRecordRepeatedLargePrompt clientId n) :=
  .ite (keepsAll_pure trivial) (h.redisIncr.bind fun _ _ => .ite (h.recordGated _) (keepsAll_pure trivial))

theorem maybeRecordPlanUsageAnomaly (clientId : ClientId) (dl ml n d m : ℤ) :
    KeepsAll I (fun _ => True) F (maybeRecordPlanUsageAnomaly clientId dl ml n d m) :=
  .ite (keepsAll_pure trivial) (h.logSecurityEvent _)

theorem maybeRecordRequestErrorBurst (clientId : ClientId) (statusCode : ℕ) :
    KeepsAll I (fun _ => True) F (maybeRecordRequestErrorBurst clientId statusCode) :=
  .ite (keepsAll_pure trivial) (h.redisIncr.bind fun _ _ => .ite (h.recordGated _) (keepsAll_pure trivial))

/-- What a look into the cache finds is in a row of the session. -/
theorem lookupExactCache {R : ℤ → Prop} (settings : Settings) (key : CacheKey)
    (hR : ∀ i w row, I i w → w.current.responseCache.lookup key = some row → R row.completionTokensEstimated) :
    KeepsAll I (fun cached => ∀ a ∈ cached, R a.completionTokens) F (lookupExactCache settings key) := by
  have hnone : KeepsAll I (fun cached => ∀ a ∈ cached, R a.completionTokens) F (pure none : Prog (Option CachedResponse)) :=
    keepsAll_pure fun _ ha => by cases ha
  refine .ite (h.utcNow.bind fun now _ => h.await.bind fun _ _ => keepsAll_modifyGet fun i w hw => ?_) hnone
  split
  · exact ⟨hw, fun _ ha => by cases ha⟩
  · rename_i row hrow
    split
    · refine ⟨h.same i ⟨{ SameBooks.refl w with cache := fun key' row' hrow' => ?_ }, rfl⟩ hw, ?_⟩
      · -- only the hit count of the row is new
        by_cases hk : key' = key
        · subst hk
          refine ⟨row, hrow, ?_⟩
          rw [World.setCurrent, AList.lookup_insert, Option.some.injEq] at hrow'
          rw [← hrow']
        · rw [World.setCurrent, AList.lookup_insert_ne hk] at hrow'
          exact ⟨row', hrow', rfl⟩
      · intro a ha
        split at ha
        · cases ha
        · cases ha
          exact hR i w row hw hrow
    · exact ⟨hw, fun _ ha => by cases ha⟩

theorem currentUsage (clientId : ClientId) : KeepsAll I (fun _ => True) F (currentUsage clientId) :=
  h.utcNow.bind fun _ _ => h.await.bind fun _ _ => h.modifyGet fun w => ⟨SameBooks.refl w, rfl⟩

theorem tryAcquire (backendId : Slots.BackendId) : KeepsAll I (fun _ => True) F (tryAcquire backendId) :=
  h.await.bind fun _ _ => (h.modifyGet fun _ => .of_eq rfl rfl rfl rfl rfl rfl rfl rfl rfl).bind fun _ _ =>
    h.await.bind fun _ _ => keepsAll_pure trivial

theorem release (backendId : Slots.BackendId) : KeepsAll I (fun _ => True) F (release backendId) := by
  refine h.await.bind fun _ _ => KeepsAll.bind (R := fun _ => True) (h.modify fun w => ?_) fun _ _ => h.await
  exact .of_eq rfl rfl rfl rfl rfl rfl rfl rfl rfl

end Steady

/-- One invariant that does not read what `SameBooks` leaves open. -/
theorem steady_of_sameBooks {P : World → Prop} {F : Exc → Prop} (hP : ∀ {w w' : World}, SameBooks w w' → P w → P w')
    (hF : F .other) : Steady (fun _ : Unit => P) F where
  await := by
    have hfault : KeepsAll (fun _ : Unit => P) (fun _ => True) F nextFault :=
      keepsAll_modifyGet fun _ w hw => ⟨hP { SameBooks.refl w with } hw, trivial⟩
    exact hfault.bind fun _ _ => .ite (keepsAll_raise hF) (keepsAll_pure trivial)
  same := fun _ _ _ hs => hP hs.toSameBooks

/-! ## The proxy -/

/-- Invariants under which the payloads of the backends have `B`, and exceptions that take in those of the proxy. -/
structure Backends {ι : Type} (I : ι → World → Prop) (F : Exc → Prop) (B : String → Prop) : Prop extends Steady I F where
  payload : ∀ i {w : World}, I i w → ∀ statusCode body shown,
    w.env.answers 0 = .response statusCode (some body) shown → isSuccess statusCode = true → B body
  stream : B ""
  other : F .other
  http : ∀ {statusCode} detail, isSuccess statusCode = false → F (.http statusCode detail)
  routesFailed : ∀ {statusCode detail} message backendErrors, F (.http statusCode detail) →
    F (.routesFailed statusCode message backendErrors)

namespace Backends

variable {ι α : Type} {I : ι → World → Prop} {F : Exc → Prop} {B : String → Prop} (h : Backends I F B)

/-- A response has a status of success and a body with `B`. -/
def Answered (B : String → Prop) (result : ForwardResult) : Prop := isSuccess result.statusCode = true ∧ B result.body

/-- A response, or an error that becomes an exception with `F`. -/
def Posted (F : Exc → Prop) (B : String → Prop) : ForwardResult ⊕ PostError → Prop
  | .inl result => Answered B result
  | .inr e => F e.toExc

include h

theorem nextAnswer :
    KeepsAll I (fun answer => ∀ statusCode body shown, answer = .response statusCode (some body) shown →
      isSuccess statusCode = true → B body) F nextAnswer :=
  keepsAll_modifyGet fun i w hw =>
    ⟨h.same i ⟨{ SameBooks.refl w with answers := ⟨1, fun _ => rfl⟩ }, rfl⟩ hw, h.payload i hw⟩

theorem clientForBackend (provider : String) : KeepsAll I (fun _ => True) F (clientForBackend provider) :=
  .ite (keepsAll_raise (h.http _ rfl)) (keepsAll_pure trivial)

/-- The exception for a response that is no success. -/
theorem httpStatus {statusCode : ℕ} (shown : String) (hs : isSuccess statusCode = false) :
    F (PostError.httpStatus statusCode shown).toExc := by
  show F (if statusCode < 500 then _ else _)
  split
  · exact h.http _ hs
  · exact h.http _ rfl

theorem post (backendName : String) : KeepsAll I (Posted F B) F (post backendName) := by
  refine h.await.bind fun _ _ => h.nextAnswer.bind fun answer hanswer => ?_
  cases answer with
  | transportError => exact keepsAll_pure (h.http _ rfl)
  | response statusCode payload shown =>
    dsimp only
    by_cases hs : isSuccess statusCode = true
    · rw [if_pos hs]
      refine h.await.bind fun _ _ => ?_
      cases payload with
      | none => exact keepsAll_raise h.other
      | some body => exact keepsAll_pure ⟨hs, hanswer _ _ _ rfl hs⟩
    · rw [if_neg hs]
      exact keepsAll_pure (h.httpStatus shown (by simpa using hs))

theorem postLoop (backendName : String) : ∀ n, KeepsAll I (Posted F B) F (postLoop backendName n)
  | 0 => h.post backendName
  | n + 1 => by
    refine (h.post backendName).bind fun r hr => ?_
    cases r with
    | inl result => exact keepsAll_pure hr
    | inr e => exact .ite (h.await.bind fun _ _ => postLoop backendName n) (keepsAll_pure hr)

theorem raiseLast {e : PostError} (he : F e.toExc) : KeepsAll I (Answered B) F (raiseLast e) :=
  .ite (h.await.bind fun _ _ => keepsAll_raise he) (keepsAll_raise he)

theorem jsonForward (settings : Settings) (backend : Models.InferenceBackend) :
    KeepsAll I (Answered B) F (jsonForward settings backend) := by
  refine (h.clientForBackend _).bind fun _ _ => (h.postLoop backend.name _).bind fun r hr => ?_
  cases r with
  | inl result => exact keepsAll_pure hr
  | inr e => exact h.raiseLast hr

theorem streamingForward (backend : Models.InferenceBackend) :
    KeepsAll I (Answered B) F (streamingForward backend) := by
  refine (h.clientForBackend _).bind fun _ _ => h.await.bind fun _ _ => h.nextAnswer.bind fun answer _ => ?_
  cases answer with
  | transportError => exact h.await.bind fun _ _ => h.raiseLast (h.http _ rfl)
  | response statusCode payload shown =>
    dsimp only
    by_cases hs : isSuccess statusCode = true
    · rw [if_pos hs]
      exact h.await.bind fun _ _ => keepsAll_pure ⟨rfl, h.stream⟩
    · rw [if_neg hs]
      exact h.await.bind fun _ _ => .ite (keepsAll_raise h.other)
        (h.raiseLast (h.httpStatus shown (by simpa using hs)))

theorem acquire (backendId : Slots.BackendId) : KeepsAll I (fun _ => True) F (acquire backendId) :=
  (h.tryAcquire backendId).bind fun _ _ => .ite (keepsAll_pure trivial) (keepsAll_raise (h.http _ rfl))

theorem withSlot (backendId : Slots.BackendId) {body : Prog ForwardResult} (hb : KeepsAll I (Answered B) F body) :
    KeepsAll I (Answered B) F (withSlot backendId body) :=
  h.await.bind fun _ _ => h.nextRefusal.bind fun _ _ =>
    .ite (keepsAll_raise (h.http _ rfl)) <|
      .tryFinally ((h.acquire backendId).bind fun _ _ => hb.tryFinally (h.release backendId)) h.await

theorem chat (settings : Settings) (backend : Models.InferenceBackend) (stream manageSlot : Bool) :
    KeepsAll I (Answered B) F (chat settings backend stream manageSlot) := by
  have hbody : KeepsAll I (Answered B) F
      (if stream then LlmStore.Inference.streamingForward backend else LlmStore.Inference.jsonForward settings backend) :=
    .ite (h.streamingForward backend) (h.jsonForward settings backend)
  exact h.await.bind fun _ _ => h.nextRefusal.bind fun _ _ =>
    .ite (keepsAll_raise (h.http _ rfl)) (.ite (h.withSlot backend.id hbody) hbody)

/-- What `_chat_with_fallback` raises at its end has the status of the last exception. -/
theorem raiseRoutesFailed {lastExc : Option (ℕ × Detail)}
    (hlast : ∀ statusCode detail, lastExc = some (statusCode, detail) → F (.http statusCode detail))
    (backendErrors : List BackendError) : KeepsAll I (Answered B) F (raiseRoutesFailed lastExc backendErrors) := by
  cases lastExc with
  | none => exact keepsAll_raise (h.http _ rfl)
  | some last => exact keepsAll_raise (h.routesFailed _ _ (hlast last.1 last.2 rfl))

theorem tryRoutes (settings : Settings) (stream : Bool) (routes : List Models.ModelBackendRoute) (n : ℕ)
    (lastExc : Option (ℕ × Detail)) (backendErrors : List BackendError)
    (hlast : ∀ statusCode detail, lastExc = some (statusCode, detail) → F (.http statusCode detail)) :
    KeepsAll I (Answered B) F (tryRoutes settings stream n lastExc backendErrors routes) := by
  induction routes generalizing n lastExc backendErrors with
  | nil => exact h.raiseRoutesFailed hlast _
  | cons route routes ih =>
    unfold LlmStore.Inference.tryRoutes
    cases route.inferenceBackend with
    | none => exact ih _ _ _ hlast
    | some backend =>
      have hchat := h.chat settings backend stream true
      refine (hchat.bind fun result hr => keepsAll_pure ⟨hr.1, hr.2⟩).tryExcept fun e he => ?_
      cases e with
      | http statusCode detail =>
        have hnew : ∀ statusCode' detail', some (statusCode, detail) = some (statusCode', detail') →
            F (.http statusCode' detail') := by
          rintro _ _ ⟨⟩
          exact he
        exact .ite (ih _ _ _ hnew) (h.raiseRoutesFailed hnew _)
      | routesFailed => exact keepsAll_raise he
      | rateLimitExceeded => exact keepsAll_raise he
      | quotaExceeded => exact keepsAll_raise he
      | other => exact keepsAll_raise he

/-- An answer that reaches a handler has a status of success, and the exceptions that reach it have `F`. -/
theorem chatWithFallback (settings : Settings) (routes : List Models.ModelBackendRoute) (stream : Bool) :
    KeepsAll I (Answered B) F (chatWithFallback settings routes stream) :=
  h.tryRoutes settings stream routes 1 none [] fun _ _ hnone => by cases hnone

end Backends

end LlmStore.Inference
