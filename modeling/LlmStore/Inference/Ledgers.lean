import LlmStore.Inference.Accounts
import LlmStore.Inference.Frame
import LlmStore.Inference.Sessions

/-!
# The handlers keep the accounts

A handler writes the audit log and the counters by separate calls in one transaction. Programs that write neither of
them keep the gap between the two (`Neutral`), and raise either no `HTTPException` or one whose status is no success
(`Fails`), so the row that is logged for it does not count. `bookAnswer` writes both with the same numbers, and what it
raises is no `HTTPException`, so a transaction that has written only one of them is never committed.
-/

namespace LlmStore.Inference

open LlmStore.Calendar LlmStore.Lib LlmStore.Usage Program

variable {c : ClientId} {α β : Type}

/-! ## Neutral programs -/

/-- The ledgers agree as committed; in the session the log is ahead by `g`. -/
def At (c : ClientId) (g : ℤ × ℤ) (w : World) : Prop := Balanced c w.committed ∧ gap c w.current = g

/-- The program leaves the gap as it is, and returns only values with `R`. -/
abbrev Gives (c : ClientId) (R : α → Prop) (x : Prog α) : Prop := KeepsAll (At c) R Fails x

abbrev Neutral (c : ClientId) (x : Prog α) : Prop := Gives c (fun _ => True) x

theorem neutral_pure (a : α) : Neutral c (pure a : Prog α) := keepsAll_pure trivial

/-- A step that changes nothing of what the ledgers hold. -/
theorem neutral_modifyGet {f : World → α × World} (hcom : ∀ w, (f w).2.committed = w.committed)
    (hcur : ∀ w, gap c (f w).2.current = gap c w.current) : Neutral c (modifyGet f) := fun _ =>
  keeps_modifyGet fun w hw => ⟨⟨(hcom w).symm ▸ hw.1, (hcur w).trans hw.2⟩, trivial⟩

/-! ## What the handlers are made of -/

theorem At.same {g : ℤ × ℤ} {w w' : World} (hw : At c g w) (hcom : w'.committed = w.committed)
    (husage : w'.current.usage = w.current.usage) (hlogs : w'.current.requestLogs = w.current.requestLogs) :
    At c g w' := by
  refine ⟨hcom ▸ hw.1, ?_⟩
  rw [← hw.2, gap, gap, husage, hlogs]

/-- The agreement of the ledgers does not depend on the rest of the world. -/
theorem frame_at (c : ClientId) : Frame (At c) Fails where
  await := by
    have hfault : Neutral c nextFault := neutral_modifyGet (fun _ => rfl) fun _ => rfl
    exact hfault.bind fun _ _ => .ite (keepsAll_raise fails_other) (neutral_pure ())
  same := fun _ _ _ hs hw => hw.same hs.committed hs.usage hs.requestLogs

theorem neutral_ensureQuota (clientId : ClientId) (dl ml n : ℤ) : Neutral c (ensureQuota clientId dl ml n) := by
  refine (frame_at c).utcNow.bind fun now _ => (frame_at c).await.bind fun _ _ => ?_
  refine (neutral_modifyGet (fun _ => rfl) fun w => gap_ensureQuota w.current _ _ _ _ _).bind fun verdict _ => ?_
  cases verdict with
  | ok _ => exact neutral_pure ()
  | error e =>
    apply keepsAll_raise
    intro h he
    cases he

/-! ## Booking and committing -/

/-- After an exception the committed ledgers agree, and if it is an `HTTPException`, its status is no success and the
session's ledgers agree too. -/
def Raised (c : ClientId) (e : Exc) (w : World) : Prop :=
  Balanced c w.committed ∧ ∀ h, e.httpError = some h → isSuccess h.statusCode = false ∧ gap c w.current = 0

theorem raised_other {g : ℤ × ℤ} {w : World} (hw : At c g w) : Raised c .other w :=
  ⟨hw.1, fun h he => by cases he⟩

/-- The program writes both ledgers with the same numbers, or neither. -/
def Books (c : ClientId) (x : Prog α) : Prop := Triple (At c 0) x (fun _ => At c 0) (Raised c)

/-- The program ends with the committed ledgers in agreement. -/
def Safe (c : ClientId) (x : Prog α) : Prop :=
  Triple (At c 0) x (fun _ w => Balanced c w.committed) fun _ w => Balanced c w.committed

/-- The law that the ledgers agree; a session is whole when they agree in it too. -/
def ledgers (c : ClientId) : Session where
  fine := Balanced c
  whole := At c 0
  fine_of_whole hw := hw.1
  same hs hw := hw.same hs.committed hs.usage hs.requestLogs
  committing hw := ⟨(balanced_iff c _).mpr hw.2, hw.2⟩
  caching _ hw := hw
  logging := by
    intro w row hs hw
    refine ⟨hw.1, ?_⟩
    rw [← hw.2]
    refine (gap_log w.current row).trans ?_
    simp only [hs, share, Bool.false_eq_true, and_false, if_false, add_zero]

theorem books_iff {x : Prog α} : Books c x ↔ (ledgers c).Books x := by
  constructor
  · intro hx
    exact hx.conseq (fun _ h => h) (fun _ _ h => h) fun _ _ h => ⟨h.1, fun e he => ⟨(h.2 e he).1, h.1, (h.2 e he).2⟩⟩
  · intro hx
    exact hx.conseq (fun _ h => h) (fun _ _ h => h) fun _ _ h => ⟨h.1, fun e he => ⟨(h.2 e he).1, (h.2 e he).2.2⟩⟩

theorem books_of_gives {R : α → Prop} {x : Prog α} (hx : Gives c R x) : (ledgers c).Books x :=
  Session.books_of_gives fun _ => hx 0

theorem safe_raise (e : Exc) : Safe c (raise e : Prog α) := Session.safe_raise (S := ledgers c) e

theorem Safe.after {x : Prog α} {f : α → Prog β} (hx : Neutral c x) (hf : ∀ a, Safe c (f a)) : Safe c (x >>= f) :=
  (books_of_gives hx).safe_bind hf

/-- A call that is awaited between the two ledgers raises no `HTTPException`. -/
theorem triple_await (g : ℤ × ℤ) : Triple (At c g) await (fun _ => At c g) (Raised c) := by
  refine triple_bind (Q := fun _ => At c g) (triple_modifyGet fun _ hw => hw) fun fault => ?_
  split
  · exact triple_raise fun w hw => raised_other hw
  · exact triple_pure fun w hw => hw

/-- `record_usage` puts the log behind by one request. -/
theorem triple_recordUsage (clientId : ClientId) (p q : ℤ) (g : ℤ × ℤ) :
    Triple (At c g) (recordUsage clientId p q) (fun _ => At c (g - share (clientId = c) (p + q))) (Raised c) := by
  refine triple_bind (Q := fun _ => At c g) (triple_modifyGet fun _ hw => hw) fun now => ?_
  refine triple_bind (triple_await g) fun _ => ?_
  refine triple_bind (Q := fun _ => At c (g - share (clientId = c) (p + q))) (triple_modify fun w hw => ⟨hw.1, ?_⟩)
    fun _ => triple_bind (triple_await _) fun _ => triple_modify fun w hw => ⟨hw.1, ?_⟩
  · refine (gap_recordPeriod w.current _ p q).trans ?_
    rw [hw.2]
    simp [periodKey]
  · refine (gap_recordPeriod w.current _ p q).trans ?_
    rw [hw.2]
    simp only [share, periodKey, reduceCtorEq, and_false, if_false, sub_zero]

/-- `log_request` with a status of success brings the log forward by one request. -/
theorem triple_logRequest (row : RequestLog) (g : ℤ × ℤ) :
    Triple (At c g) (logRequest row)
      (fun _ => At c (g + share (row.clientId = c ∧ isSuccess row.httpStatus)
        (row.promptTokensEstimated + row.completionTokensEstimated))) (Raised c) := by
  refine triple_bind (triple_await g) fun _ => triple_modify fun w hw => ⟨hw.1, ?_⟩
  rw [← hw.2]
  exact gap_log w.current row

/-- Both ledgers are written with the same numbers. -/
theorem books_bookAnswer (tag : RequestTag) (result : ForwardResult) (hs : isSuccess result.statusCode = true)
    (completionTokens : ℤ) (isStream cacheHit : Bool) :
    Books c (bookAnswer tag result completionTokens isStream cacheHit) := by
  refine triple_bind (triple_recordUsage _ _ _ 0) fun _ => ?_
  refine (triple_logRequest _ _).conseq (fun _ h => h) (fun _ w hw => ?_) fun _ _ h => h
  simpa only [hs, and_true, zero_sub, neg_add_cancel] using hw

theorem triple_beginSession :
    Triple (fun w => Balanced c w.committed) beginSession (fun _ => At c 0) fun _ w => Balanced c w.committed :=
  triple_modify fun _ hw => ⟨hw, (balanced_iff c _).mp hw⟩

/-! ## The handlers -/

theorem neutral_tooManyRequests {checks : Prog Unit} (h : Neutral c checks) : Neutral c (tooManyRequests checks) := by
  refine h.tryExcept fun e he => ?_
  cases e with
  | rateLimitExceeded => exact keepsAll_raise (fails_http _ rfl)
  | quotaExceeded => exact keepsAll_raise (fails_http _ rfl)
  | http => exact keepsAll_raise he
  | routesFailed => exact keepsAll_raise he
  | other => exact keepsAll_raise he

/-- The `try` of the handlers. -/
theorem books_answerChat (settings : Settings) (r : ChatRequest) (tag : RequestTag) :
    Books c (answerChat settings r tag) :=
  books_iff.mpr (Session.books_answerChat settings r fun result hs n isStream cacheHit =>
    books_iff.mp (books_bookAnswer tag result hs n isStream cacheHit))

/-- `except HTTPException` logs a row that does not count. -/
theorem safe_orLogFailure {tag : RequestTag} {isStream : Bool} {between : HTTPError → Prog Unit}
    {x : Prog (ℕ × String)} (hx : Books c x) (hb : ∀ e, Neutral c (between e)) :
    Safe c (orLogFailure tag isStream between x) :=
  Session.safe_orLogFailure (books_iff.mp hx) fun e => books_of_gives (hb e)

/-- `chat_completions` leaves the ledgers in agreement. -/
theorem chatCompletions_balanced (settings : Settings) (prepared : Except HTTPException ChatRequest) :
    Triple (fun w => Balanced c w.committed) (chatCompletions settings prepared) (fun _ w => Balanced c w.committed)
      fun _ w => Balanced c w.committed := by
  refine triple_bind triple_beginSession fun _ => Safe.after (frame_at c).await fun _ => ?_
  cases prepared with
  | error e => exact safe_raise _
  | ok r =>
    have hchecks : Neutral c (do
        enforceIpRateLimit r.sourceIp 60
        enforceRateLimit r.rateLimitPerMinute
        ensureQuota r.clientId r.dailyTokenQuota r.monthlyTokenQuota (r.promptTokens + r.maxTokens)) :=
      ((frame_at c).steady.enforceIpRateLimit fails_rateLimitExceeded _ _).bind fun _ _ =>
        ((frame_at c).steady.enforceRateLimit fails_rateLimitExceeded _).bind fun _ _ => neutral_ensureQuota _ _ _ _
    refine Safe.after (neutral_tooManyRequests hchecks) fun _ => ?_
    refine Safe.after ((frame_at c).currentUsage r.clientId) fun used => ?_
    refine Safe.after ((frame_at c).maybeRecordRepeatedLargePrompt _ _) fun _ => ?_
    refine Safe.after ((frame_at c).maybeRecordPlanUsageAnomaly _ _ _ _ _ _) fun _ => ?_
    exact safe_orLogFailure (books_answerChat settings r _) fun _ => (frame_at c).maybeRecordRequestErrorBurst _ _

/-- `portal_test_chat` leaves the ledgers in agreement. -/
theorem portalTestChat_balanced (settings : Settings) (prepared : Except HTTPException ChatRequest) :
    Triple (fun w => Balanced c w.committed) (portalTestChat settings prepared) (fun _ w => Balanced c w.committed)
      fun _ w => Balanced c w.committed := by
  refine triple_bind triple_beginSession fun _ => Safe.after (frame_at c).await fun _ => ?_
  cases prepared with
  | error e => exact safe_raise _
  | ok r =>
    have hchecks : Neutral c (do
        enforceRateLimit r.rateLimitPerMinute
        ensureQuota r.clientId r.dailyTokenQuota r.monthlyTokenQuota (r.promptTokens + r.maxTokens)) :=
      ((frame_at c).steady.enforceRateLimit fails_rateLimitExceeded _).bind fun _ _ => neutral_ensureQuota _ _ _ _
    refine Safe.after (neutral_tooManyRequests hchecks) fun _ => ?_
    refine Safe.after ((frame_at c).currentUsage r.clientId) fun used => ?_
    exact safe_orLogFailure (books_answerChat settings _ _) fun _ => neutral_pure ()

end LlmStore.Inference
