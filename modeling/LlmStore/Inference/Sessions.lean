import LlmStore.Inference.Steady

/-!
# Sessions that keep a law

A handler works in a session of its own, in which a law about the database may be broken between two writes that belong
together. A `Session` says when the session is whole, so that it may be committed; a program `Books` if it leaves a whole
session whole, except for exceptions that no handler catches, and is `Safe` if it leaves the committed database fine. The
handlers are safe if booking an answer is one such step.
-/

namespace LlmStore.Inference

open LlmStore.Lib LlmStore.Usage Program

/-! ## Failures -/

/-- The exception is no `HTTPException` with a status of success. -/
def Fails (e : Exc) : Prop := ∀ h, e.httpError = some h → isSuccess h.statusCode = false

theorem fails_other : Fails .other := by
  intro h he
  cases he

theorem fails_http {statusCode : ℕ} (detail : Detail) (h : isSuccess statusCode = false) :
    Fails (.http statusCode detail) := by
  intro e he
  cases detail <;> cases he <;> exact h

theorem fails_rateLimitExceeded (message : String) : Fails (.rateLimitExceeded message) := by
  intro h he
  cases he

/-- What `_chat_with_fallback` raises at its end is no success, because the last exception was none. -/
theorem backends_fails {ι : Type} {I : ι → World → Prop} (h : Steady I Fails) : Backends I Fails fun _ => True where
  toSteady := h
  payload := fun _ _ _ _ _ _ _ _ => trivial
  stream := trivial
  other := fails_other
  http := fails_http
  routesFailed := by
    intro statusCode detail message backendErrors h e he
    cases he
    have hs : isSuccess statusCode = false := by cases detail <;> exact h _ rfl
    exact hs

/-! ## Sessions -/

/-- A law of the committed database, and when a session may be committed. -/
structure Session where
  fine : Database → Prop
  whole : World → Prop
  fine_of_whole : ∀ {w}, whole w → fine w.committed
  same : ∀ {w w'}, SameBooks w w' → whole w → whole w'
  committing : ∀ {w}, whole w → whole { w with committed := w.current }
  caching : ∀ {w} (cache : Table CacheKey ResponseCache), whole w →
    whole (w.setCurrent fun db => { db with responseCache := cache })
  /-- The row of a request that failed does not matter. -/
  logging : ∀ {w} (row : RequestLog), isSuccess row.httpStatus = false → whole w →
    whole (w.setCurrent fun db => { db with requestLogs := db.requestLogs ++ [row] })

namespace Session

variable (S : Session) {α β : Type}

/-- After an exception the committed database is fine, and if it is an `HTTPException`, its status is no success and the
session is whole. -/
def Raised (e : Exc) (w : World) : Prop :=
  S.fine w.committed ∧ ∀ h, e.httpError = some h → isSuccess h.statusCode = false ∧ S.whole w

/-- The program leaves a whole session whole. -/
def Books (x : Prog α) : Prop := Triple S.whole x (fun _ => S.whole) S.Raised

/-- The program leaves a fine database. -/
def Safe (x : Prog α) : Prop := Triple S.whole x (fun _ w => S.fine w.committed) fun _ w => S.fine w.committed

/-- The session is whole at every step of the program, which returns only values with `R`. -/
abbrev Gives (R : α → Prop) (x : Prog α) : Prop := KeepsAll (fun _ : Unit => S.whole) R Fails x

variable {S}

/-! ## Rules -/

section Rules

variable {R : α → Prop} {x : Prog α} {f : α → Prog β}

theorem books_pure (a : α) : S.Books (pure a : Prog α) := triple_pure fun _ hw => hw

theorem Books.bind (hx : S.Books x) (hf : ∀ a, S.Books (f a)) : S.Books (x >>= f) := triple_bind hx hf

theorem books_of_gives (hx : S.Gives R x) : S.Books x :=
  (hx ()).conseq (fun _ h => h) (fun _ _ h => h.1) fun _ _ h => ⟨S.fine_of_whole h.1, fun e he => ⟨h.2 e he, h.1⟩⟩

/-- What comes after a program that gives `R` may use it. -/
theorem Books.given (hx : S.Gives R x) (hf : ∀ a, R a → S.Books (f a)) : S.Books (x >>= f) :=
  triple_bind (Q := fun a w => S.whole w ∧ R a)
    ((hx ()).conseq (fun _ h => h) (fun _ _ h => h) fun _ _ h => ⟨S.fine_of_whole h.1, fun e he => ⟨h.2 e he, h.1⟩⟩)
    fun a w hw => hf a hw.2 w hw.1

theorem Books.safe (hx : S.Books x) : S.Safe x :=
  hx.conseq (fun _ h => h) (fun _ _ h => S.fine_of_whole h) fun _ _ h => h.1

theorem Books.safe_bind (hx : S.Books x) (hf : ∀ a, S.Safe (f a)) : S.Safe (x >>= f) :=
  triple_bind (hx.conseq (fun _ h => h) (fun _ _ h => h) fun _ _ h => h.1) hf

theorem safe_raise (e : Exc) : S.Safe (raise e : Prog α) := triple_raise fun _ hw => S.fine_of_whole hw

/-- An `HTTPException` finds the session whole; no other exception is handled. -/
theorem Books.safe_tryExcept {handler : Exc → Prog α} (hx : S.Books x)
    (hnone : ∀ exc, exc.httpError = none → handler exc = raise exc)
    (hsome : ∀ exc e, exc.httpError = some e → isSuccess e.statusCode = false → S.Safe (handler exc)) :
    S.Safe (tryExcept x handler) := by
  refine triple_tryExcept (hx.conseq (fun _ h => h) (fun _ _ h => S.fine_of_whole h) fun _ _ h => h) fun exc w hw => ?_
  cases hexc : exc.httpError with
  | none =>
    rw [hnone exc hexc]
    exact hw.1
  | some e =>
    obtain ⟨hs, hwhole⟩ := hw.2 e hexc
    exact hsome exc e hexc hs w hwhole

end Rules

/-! ## Calls -/

theorem steady (S : Session) : Steady (fun _ : Unit => S.whole) Fails := steady_of_sameBooks S.same fails_other

theorem backends (S : Session) : Backends (fun _ : Unit => S.whole) Fails fun _ => True := backends_fails S.steady

theorem books_await : S.Books await := books_of_gives S.steady.await

/-- What `commit` raises is no `HTTPException`, whether the database has committed or not. -/
theorem books_commit : S.Books commit := by
  have hfault : S.Books nextFault := triple_modifyGet fun w hw => S.same { SameBooks.refl w with } hw
  have hother : ∀ w, S.whole w → S.Raised .other w := fun w hw => ⟨S.fine_of_whole hw, nofun⟩
  refine hfault.bind fun fault => ?_
  split
  · refine hfault.bind fun committed => ?_
    split
    · exact triple_bind (Q := fun _ => S.whole) (triple_modify fun _ hw => S.committing hw) fun _ => triple_raise hother
    · exact triple_raise hother
  · exact triple_modify fun _ hw => S.committing hw

theorem books_storeExactCache (settings : Settings) (key : CacheKey) (fingerprint json : String) (p q : ℤ) :
    S.Books (storeExactCache settings key fingerprint json p q) := by
  unfold storeExactCache
  split
  · exact (books_of_gives S.steady.utcNow).bind fun now => books_await.bind fun _ =>
      triple_modify fun _ hw => S.caching _ hw
  · exact books_pure ()

theorem books_lookupExactCache (settings : Settings) (key : CacheKey) : S.Books (lookupExactCache settings key) :=
  books_of_gives (S.steady.lookupExactCache (R := fun _ => True) settings key fun _ _ _ _ _ => trivial)

theorem books_logFailure (tag : RequestTag) (isStream : Bool) (backendName : Option String) {e : HTTPError}
    (hs : isSuccess e.statusCode = false) : S.Books (logFailure tag isStream backendName e) :=
  books_await.bind fun _ => triple_modify fun _ hw => S.logging _ hs hw

/-! ## Handlers -/

/-- An answer can be booked under the tag in one step. -/
def CanBook (S : Session) (tag : RequestTag) : Prop :=
  ∀ (result : ForwardResult), isSuccess result.statusCode = true → ∀ completionTokens isStream cacheHit,
    S.Books (bookAnswer tag result completionTokens isStream cacheHit)

variable {tag : RequestTag}

/-- The `try` of the handlers. -/
theorem books_answerChat (settings : Settings) (r : ChatRequest) (hbook : S.CanBook tag) :
    S.Books (answerChat settings r tag) := by
  have hlookup : S.Books (if r.stream then pure none else
      lookupExactCache settings ⟨tag.endpoint, r.model, r.cacheKey⟩) := by
    split
    · exact books_pure none
    · exact books_lookupExactCache settings _
  have hend : ∀ answer : ℕ × String, S.Books (do commit; pure answer) := fun answer =>
    books_commit.bind fun _ => books_pure answer
  refine hlookup.bind fun cached => ?_
  cases cached with
  | some cached => exact (hbook cached.result rfl _ _ _).bind fun _ => hend _
  | none =>
    refine Books.given (S.backends.chatWithFallback settings r.routes r.stream) fun result hs => ?_
    dsimp only
    split
    · exact (hbook result hs.1 _ _ _).bind fun _ => hend _
    · exact (books_storeExactCache settings _ _ _ _ _).bind fun _ => (hbook result hs.1 _ _ _).bind fun _ => hend _

/-- `except HTTPException` logs a row that does not matter. -/
theorem safe_orLogFailure {isStream : Bool} {between : HTTPError → Prog Unit} {x : Prog (ℕ × String)}
    (hx : S.Books x) (hb : ∀ e, S.Books (between e)) : S.Safe (orLogFailure tag isStream between x) := by
  refine hx.safe_tryExcept (fun exc h => ?_) fun exc e h hs => ?_
  · rw [h]
  · rw [h]
    exact (books_logFailure tag isStream _ hs).safe_bind fun _ => (hb e).safe_bind fun _ =>
      books_commit.safe_bind fun _ => safe_raise exc

end Session

end LlmStore.Inference
