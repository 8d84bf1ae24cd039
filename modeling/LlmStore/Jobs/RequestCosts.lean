import LlmStore.Jobs.Charges
import LlmStore.Billing.Delinquency

/-!
# What requests cost and what the invoice charges

`estimate_request_cost` prices the tokens by which a request would take the month over the included tokens, but the
request has passed `ensure_quota`, whose limit is the same number, so no request that is served costs anything
(`Month.Fine`). The invoice prices the recorded tokens, which are more than those reserved if an answer is long. The two
agree up to rounding just if what is over is next to nothing (`costs_match_invoice_iff`).
-/

namespace LlmStore.Jobs

open LlmStore.Calendar LlmStore.Lib LlmStore.Usage LlmStore.Inference Program

/-! ## The books of a month -/

/-- A month of a client: a day of it, and the number of rows of the audit log before it. -/
structure Month where
  clientId : ClientId
  day : Date
  earlier : ℕ

namespace Month

variable (M : Month)

/-- The rows of the audit log since the beginning of the month. -/
def rows (db : Database) : List RequestLog := db.requestLogs.drop M.earlier

/-- The tokens on the client's counter of the month. -/
def used (usage : UsageTables) : ℤ := tokensOf usage (periodKey M.clientId M.day .monthly)

/-- The client's requests have cost nothing, and their tokens are on the counter, which is ahead by `ahead`; no job that
waits costs anything. -/
structure Fine (ahead : ℤ) (db : Database) : Prop where
  earlier : M.earlier ≤ db.requestLogs.length
  free : ∀ row ∈ answeredRows M.clientId (M.rows db), row.estimatedCostUsd = 0
  tokens : M.used db.usage = loggedTokens M.clientId (M.rows db) + ahead
  jobs : ∀ jobId job, db.jobs.lookup jobId = some job → job.clientId = M.clientId → job.status = .queued →
    job.estimatedCostUsd = 0

/-- The clock stays in the month. -/
def During (env : Environment) : Prop := ∀ i, monthStart (env.clock i).date = monthStart M.day

/-- A session in the month whose counter is ahead of its log. -/
structure At (ahead : ℤ) (w : World) : Prop where
  committed : M.Fine 0 w.committed
  current : M.Fine ahead w.current
  during : M.During w.env

variable {M} {ahead : ℤ} {db db' : Database} {w : World}

theorem Fine.congr (h : M.Fine ahead db) (husage : db'.usage = db.usage) (hlogs : db'.requestLogs = db.requestLogs)
    (hjobs : db'.jobs = db.jobs) : M.Fine ahead db' := by
  have hrows : M.rows db' = M.rows db := by rw [rows, hlogs, rows]
  exact ⟨by rw [hlogs]; exact h.earlier, by rw [hrows]; exact h.free, by rw [hrows, husage]; exact h.tokens,
    by rw [hjobs]; exact h.jobs⟩

theorem During.same {w' : World} (hs : SameBooks w w') (h : M.During w.env) : M.During w'.env := by
  obtain ⟨k, hclock⟩ := hs.clock
  intro i
  rw [hclock]
  exact h _

theorem At.same {w' : World} (hs : SameBooks w w') (h : M.At ahead w) : M.At ahead w' where
  committed := hs.committed ▸ h.committed
  current := h.current.congr hs.usage hs.requestLogs hs.jobs
  during := h.during.same hs

theorem rows_append (h : M.earlier ≤ db.requestLogs.length) (row : RequestLog) :
    M.rows { db with requestLogs := db.requestLogs ++ [row] } = M.rows db ++ [row] :=
  List.drop_append_of_le_length h

/-- A row that costs the client nothing takes the log forward by its tokens. -/
theorem Fine.log (h : M.Fine ahead db) (row : RequestLog)
    (hfree : row.clientId = M.clientId → isSuccess row.httpStatus = true → row.estimatedCostUsd = 0) :
    M.Fine (ahead - if row.clientId = M.clientId ∧ isSuccess row.httpStatus = true then
        row.promptTokensEstimated + row.completionTokensEstimated else 0)
      { db with requestLogs := db.requestLogs ++ [row] } where
  earlier := h.earlier.trans (by simp)
  free := by
    rw [rows_append h.earlier, answeredRows_append]
    intro row' hrow'
    rcases List.mem_append.mp hrow' with hold | hnew
    · exact h.free row' hold
    · split_ifs at hnew with hown
      · obtain rfl := List.mem_singleton.mp hnew
        exact hfree hown.1 hown.2
      · cases hnew
  tokens := by
    have htokens := h.tokens
    unfold loggedTokens at htokens
    rw [rows_append h.earlier, loggedTokens, answeredRows_append]
    show M.used db.usage = _
    split_ifs
    · simp only [List.map_append, List.sum_append, List.map_cons, List.map_nil, List.sum_singleton]
      omega
    · rw [List.append_nil]
      omega
  jobs := h.jobs

theorem Fine.setUsage (h : M.Fine ahead db) {usage : UsageTables} {n : ℤ} (hused : M.used usage = M.used db.usage + n) :
    M.Fine (ahead + n) { db with usage } where
  earlier := h.earlier
  free := h.free
  tokens := by
    have htokens := h.tokens
    show M.used usage = _
    rw [hused, htokens, add_assoc]
    rfl
  jobs := h.jobs

/-- Jobs that do not wait do not matter. -/
theorem Fine.insertJob (h : M.Fine ahead db) (jobId : JobId) {job : GenerationJob}
    (hjob : job.clientId = M.clientId → job.status = .queued → job.estimatedCostUsd = 0) :
    M.Fine ahead { db with jobs := db.jobs.insert jobId job } where
  earlier := h.earlier
  free := h.free
  tokens := h.tokens
  jobs := by
    intro jobId' job' hjob'
    by_cases hk : jobId' = jobId
    · subst hk
      rw [AList.lookup_insert, Option.some.injEq] at hjob'
      exact hjob' ▸ hjob
    · rw [AList.lookup_insert_ne hk] at hjob'
      exact h.jobs jobId' job' hjob'

variable (M) in
/-- A session in which every answer that is logged is booked. -/
def session : Session where
  fine := M.Fine 0
  whole := M.At 0
  fine_of_whole h := h.committed
  same hs h := h.same hs
  committing h := ⟨h.current, h.current, h.during⟩
  caching _ h := ⟨h.committed, h.current.congr rfl rfl rfl, h.during⟩
  logging row hs h := by
    refine ⟨h.committed, ?_, h.during⟩
    have hlog := h.current.log row fun _ hsuccess => by rw [hs] at hsuccess; cases hsuccess
    simpa [hs, World.setCurrent] using hlog

/-! ## Booking -/

/-- A tag under which the client's requests cost nothing. -/
def Free (M : Month) (tag : RequestTag) : Prop := tag.clientId = M.clientId → tag.estimatedCostUsd = 0

theorem steady_at (M : Month) (ahead : ℤ) : Steady (fun _ : Unit => M.At ahead) Fails :=
  steady_of_sameBooks At.same fails_other

/-- An awaited call between two writes raises no `HTTPException`. -/
theorem triple_await (M : Month) (ahead : ℤ) : Triple (M.At ahead) await (fun _ => M.At ahead) M.session.Raised := by
  refine triple_bind (Q := fun _ => M.At ahead)
    (triple_modifyGet fun w hw => hw.same { SameBooks.refl w with }) fun fault => ?_
  split
  · exact triple_raise fun w hw => ⟨hw.committed, nofun⟩
  · exact triple_pure fun w hw => hw

theorem used_recordPeriod (usage : UsageTables) (k : PeriodKey) (p q : ℤ) :
    M.used (recordPeriod usage k p q) =
      M.used usage + if periodKey M.clientId M.day .monthly = k then p + q else 0 :=
  Terms.tokensOf_recordPeriod usage k _ p q

/-- `record_usage` takes the client's counter forward by the tokens. -/
theorem triple_recordUsage (M : Month) (clientId : ClientId) (p q : ℤ) :
    Triple (M.At 0) (recordUsage clientId p q)
      (fun _ => M.At (if clientId = M.clientId then p + q else 0)) M.session.Raised := by
  refine triple_bind (Q := fun now w => M.At 0 w ∧ monthStart now.date = monthStart M.day)
    (triple_modifyGet fun w hw => ?_) fun now => ?_
  · exact ⟨hw.same { SameBooks.refl w with clock := ⟨1, fun _ => rfl⟩ }, hw.during 0⟩
  rintro w ⟨hw, hnow⟩
  have hdaily : ∀ w, M.At 0 w → M.At 0 (w.setCurrent fun db =>
      { db with usage := recordPeriod db.usage (periodKey clientId now.date .daily) p q }) := fun w hw => by
    refine ⟨hw.committed, ?_, hw.during⟩
    have h := hw.current.setUsage (used_recordPeriod w.current.usage (periodKey clientId now.date .daily) p q)
    simpa [periodKey, World.setCurrent] using h
  have hmonthly : ∀ w, M.At 0 w → M.At (if clientId = M.clientId then p + q else 0) (w.setCurrent fun db =>
      { db with usage := recordPeriod db.usage (periodKey clientId now.date .monthly) p q }) := fun w hw => by
    refine ⟨hw.committed, ?_, hw.during⟩
    have h := hw.current.setUsage (used_recordPeriod w.current.usage (periodKey clientId now.date .monthly) p q)
    simpa [periodKey, hnow, eq_comm, World.setCurrent] using h
  refine triple_bind (triple_await M 0) (fun _ => ?_) w hw
  exact triple_bind (Q := fun _ => M.At 0) (triple_modify hdaily) fun _ =>
    triple_bind (triple_await M 0) fun _ => triple_modify hmonthly

/-- Booking an answer under a tag that costs nothing leaves the books fine. -/
theorem canBook_of_free {tag : RequestTag} (h : M.Free tag) : M.session.CanBook tag := by
  intro result hs completionTokens isStream cacheHit
  refine triple_bind (triple_recordUsage M tag.clientId tag.promptTokens completionTokens) fun _ => ?_
  refine triple_bind (triple_await M _) fun _ => triple_modify fun w hw => ⟨hw.committed, ?_, hw.during⟩
  have hlog := hw.current.log
    { clientId := tag.clientId, model := tag.model, endpoint := tag.endpoint,
      promptTokensEstimated := tag.promptTokens, completionTokensEstimated := completionTokens,
      httpStatus := result.statusCode, isStream, estimatedCostUsd := tag.estimatedCostUsd,
      backendName := some result.backendName, attempts := result.attempts, fallbackUsed := result.fallbackUsed,
      cacheHit, backendErrors := result.backendErrors, errorMessage := none } fun hown _ => h hown
  simpa [hs, World.setCurrent] using hlog

theorem workable (M : Month) : Workable M.session where
  update := by
    intro w jobId f hf hw
    refine ⟨hw.committed, ?_, hw.during⟩
    simp only [World.setCurrent]
    split
    · exact hw.current
    · exact hw.current.insertJob jobId fun _ hqueued => absurd hqueued (hf _)
  book jobId job hw hjob hqueued := canBook_of_free fun hown => hw.current.jobs jobId job hjob hown hqueued

/-! ## Admission -/

/-- A request within the quota costs nothing. -/
theorem estimateRequestCost_of_room {before tokens included : ℤ} (h : before + tokens ≤ included) (price : ℚ) :
    Billing.estimateRequestCost before tokens included price = 0 := by
  unfold Billing.estimateRequestCost
  dsimp only
  have hafter : max (before + tokens - included) 0 = 0 := max_eq_right (by omega)
  rw [hafter, if_pos]
  simp

variable {r : ChatRequest}

/-- The counter has room for the request. -/
def Room (M : Month) (r : ChatRequest) (w : World) : Prop :=
  r.clientId = M.clientId → M.used w.current.usage + (r.promptTokens + r.maxTokens) ≤ r.monthlyTokenQuota

theorem Room.same {w' : World} (hs : SameBooks w w') (h : M.Room r w) : M.Room r w' := by
  unfold Room
  rw [hs.usage]
  exact h

theorem triple_ensureQuota (M : Month) (r : ChatRequest) :
    Triple (M.At 0) (ensureQuota r.clientId r.dailyTokenQuota r.monthlyTokenQuota (r.promptTokens + r.maxTokens))
      (fun _ w => M.At 0 w ∧ M.Room r w) fun _ => M.At 0 := by
  refine triple_bind (Q := fun now w => M.At 0 w ∧ monthStart now.date = monthStart M.day)
    (triple_modifyGet fun w hw => ?_) fun now => ?_
  · exact ⟨hw.same { SameBooks.refl w with clock := ⟨1, fun _ => rfl⟩ }, hw.during 0⟩
  rintro w ⟨hw, hnow⟩
  refine triple_bind (((steady_at M 0).await ()).conseq (fun _ h => h) (fun _ _ h => h.1) fun _ _ h => h.1) (fun _ => ?_)
    w hw
  refine triple_bind (Q := fun verdict w => M.At 0 w ∧ (verdict = .ok () → M.Room r w)) (triple_modifyGet ?_)
    fun verdict => ?_
  · intro w hw
    have hused : M.used (Usage.ensureQuota w.current.usage r.clientId now.date r.dailyTokenQuota r.monthlyTokenQuota
        (r.promptTokens + r.maxTokens)).2 = M.used w.current.usage := Terms.tokensOf_ensureQuota _ _ _ _ _ _ _
    refine ⟨⟨hw.committed, by simpa [World.setCurrent] using hw.current.setUsage (n := 0) (by simpa using hused), hw.during⟩, ?_⟩
    intro hok hown
    have hroom := (ensureQuota_ok_iff.mp hok).2
    have hkey : periodKey r.clientId now.date .monthly = periodKey M.clientId M.day .monthly := by
      simp [periodKey, hown, hnow]
    rw [hkey] at hroom
    exact (congrArg (· + (r.promptTokens + r.maxTokens)) hused).trans_le hroom
  · cases verdict with
    | ok _ => exact triple_pure fun w hw => ⟨hw.1, hw.2 rfl⟩
    | error e => exact triple_raise fun w hw => hw.1

theorem triple_tooManyRequests {checks : Prog Unit}
    (h : Triple (M.At 0) checks (fun _ w => M.At 0 w ∧ M.Room r w) fun _ => M.At 0) :
    Triple (M.At 0) (tooManyRequests checks) (fun _ w => M.At 0 w ∧ M.Room r w) fun _ w => M.Fine 0 w.committed := by
  refine triple_tryExcept h fun exc => ?_
  cases exc <;> exact triple_raise fun _ hw => hw.committed

/-- What an admitted request finds on the counter makes it cost nothing. -/
theorem triple_currentUsage (M : Month) (r : ChatRequest) :
    Triple (fun w => M.At 0 w ∧ M.Room r w) (currentUsage r.clientId)
      (fun used w => M.At 0 w ∧ ∀ endpoint, M.Free (r.tag endpoint used.2)) fun _ w => M.Fine 0 w.committed := by
  have hsteady : Steady (fun _ : Unit => fun w => M.At 0 w ∧ M.Room r w) fun _ => True :=
    steady_of_sameBooks (fun hs h => ⟨h.1.same hs, h.2.same hs⟩) trivial
  refine triple_bind (Q := fun now w => (M.At 0 w ∧ M.Room r w) ∧ monthStart now.date = monthStart M.day)
    (triple_modifyGet fun w hw => ?_) fun now => ?_
  · have hs : SameBooks w (w.setEnv fun env => { env with clock := fun n => env.clock (n + 1) }) :=
      { SameBooks.refl w with clock := ⟨1, fun _ => rfl⟩ }
    exact ⟨⟨hw.1.same hs, hw.2.same hs⟩, hw.1.during 0⟩
  rintro w ⟨hw, hnow⟩
  refine triple_bind ((hsteady.await ()).conseq (fun _ h => h) (fun _ _ h => h.1) fun _ _ h => h.1.1.committed)
    (fun _ => triple_modifyGet ?_) w hw
  rintro w ⟨hw, hroom⟩
  refine ⟨hw, fun endpoint hown => estimateRequestCost_of_room ?_ _⟩
  have hkey : periodKey r.clientId now.date .monthly = periodKey M.clientId M.day .monthly := by
    simp [periodKey, show r.clientId = M.clientId from hown, hnow]
  show (w.current.usage.counter (periodKey r.clientId now.date .monthly)).usedTokens + _ ≤ _
  rw [hkey]
  exact hroom hown

/-! ## Handlers -/

/-- The database is fine, and the clock stays in the month. -/
def Starts (M : Month) (w : World) : Prop := M.Fine 0 w.committed ∧ M.During w.env

theorem triple_started {α : Type} {x : Prog α} (hx : M.session.Safe x) :
    Triple M.Starts (do beginSession; x) (fun _ w => M.Fine 0 w.committed) fun _ w => M.Fine 0 w.committed :=
  triple_bind (Q := fun _ => M.At 0) (triple_modify fun _ hw => ⟨hw.1, hw.1, hw.2⟩) fun _ => hx

theorem triple_limits {α : Type} {x : Prog α} (hx : KeepsAll (fun _ : Unit => M.At 0) (fun _ => True) Fails x)
    {y : Prog Unit} {Q : Unit → World → Prop} (hy : Triple (M.At 0) y Q fun _ => M.At 0) :
    Triple (M.At 0) (x >>= fun _ => y) Q fun _ => M.At 0 :=
  triple_bind ((hx ()).conseq (fun _ h => h) (fun _ _ h => h.1) fun _ _ h => h.1) fun _ => hy

/-- An admitted request knows that it costs nothing. -/
theorem safe_admitted {α : Type} {checks : Prog Unit} {f : ℤ × ℤ → Prog α}
    (h : Triple (M.At 0) checks (fun _ w => M.At 0 w ∧ M.Room r w) fun _ => M.At 0)
    (hf : ∀ used, (∀ endpoint, M.Free (r.tag endpoint used.2)) → M.session.Safe (f used)) :
    M.session.Safe (do tooManyRequests checks; let used ← currentUsage r.clientId; f used) :=
  triple_bind (triple_tooManyRequests h) fun _ => triple_bind (triple_currentUsage M r) fun used w hw =>
    hf used hw.2 w hw.1

theorem triple_chatCompletions (M : Month) (settings : Settings) (prepared : Except HTTPException ChatRequest) :
    Triple M.Starts (chatCompletions settings prepared) (fun _ w => M.Fine 0 w.committed)
      fun _ w => M.Fine 0 w.committed := by
  have hsteady := steady_at M 0
  refine triple_started (Session.books_await.safe_bind fun _ => ?_)
  cases prepared with
  | error e => exact Session.safe_raise _
  | ok r =>
    refine safe_admitted (r := r) ?_ fun used hfree => ?_
    · exact triple_limits (hsteady.enforceIpRateLimit fails_rateLimitExceeded _ _)
        (triple_limits (hsteady.enforceRateLimit fails_rateLimitExceeded _) (triple_ensureQuota M r))
    · refine (Session.books_of_gives (S := M.session) (hsteady.maybeRecordRepeatedLargePrompt _ _)).safe_bind fun _ => ?_
      refine (Session.books_of_gives (S := M.session)
        (hsteady.maybeRecordPlanUsageAnomaly _ _ _ _ _ _)).safe_bind fun _ => ?_
      exact Session.safe_orLogFailure (Session.books_answerChat settings r (canBook_of_free (hfree _))) fun e =>
        Session.books_of_gives (hsteady.maybeRecordRequestErrorBurst _ _)

theorem triple_portalTestChat (M : Month) (settings : Settings) (prepared : Except HTTPException ChatRequest) :
    Triple M.Starts (portalTestChat settings prepared) (fun _ w => M.Fine 0 w.committed)
      fun _ w => M.Fine 0 w.committed := by
  have hsteady := steady_at M 0
  refine triple_started (Session.books_await.safe_bind fun _ => ?_)
  cases prepared with
  | error e => exact Session.safe_raise _
  | ok r =>
    refine safe_admitted (r := { r with stream := false }) ?_ fun used hfree => ?_
    · exact triple_limits (hsteady.enforceRateLimit fails_rateLimitExceeded _)
        (triple_ensureQuota M { r with stream := false })
    · exact Session.safe_orLogFailure (Session.books_answerChat settings _ (canBook_of_free (hfree _))) fun e =>
        Session.books_pure ()

theorem books_insertJob (jobId : JobId) {job : GenerationJob}
    (hjob : job.clientId = M.clientId → job.status = .queued → job.estimatedCostUsd = 0) :
    M.session.Books (insertJob jobId job) := by
  refine Session.books_await.bind fun _ => ?_
  refine Session.Books.bind ?_ fun fresh => ?_
  · refine triple_modifyGet fun w hw => ?_
    show M.At 0 _
    split
    · exact hw
    · exact ⟨hw.committed, hw.current.insertJob jobId hjob, hw.during⟩
  · cases fresh with
    | true => exact Session.books_pure ()
    | false => exact triple_raise fun _ hw => ⟨hw.committed, nofun⟩

theorem triple_chatCompletionsAsync (M : Month) (prepared : Except HTTPException ChatRequest) (jobId : JobId) :
    Triple M.Starts (chatCompletionsAsync prepared jobId) (fun _ w => M.Fine 0 w.committed)
      fun _ w => M.Fine 0 w.committed := by
  have hsteady := steady_at M 0
  refine triple_started (Session.books_await.safe_bind fun _ => ?_)
  cases prepared with
  | error e => exact Session.safe_raise _
  | ok r =>
    have hpush : M.session.Books (do commit; rpush jobId) :=
      Session.books_commit.bind fun _ => Session.books_await.bind fun _ =>
        triple_modify fun _ hw => ⟨hw.committed, hw.current, hw.during⟩
    have hcreate : Triple (M.At 0) (createChatGenerationJob r jobId) (fun _ => M.At 0)
        fun _ w => M.Fine 0 w.committed := by
      refine triple_bind (triple_tooManyRequests (r := r)
        (triple_limits (hsteady.enforceRateLimit fails_rateLimitExceeded _) (triple_ensureQuota M r))) fun _ => ?_
      refine triple_bind (triple_currentUsage M r) fun used => ?_
      rintro w ⟨hw, hfree⟩
      have hinsert : M.session.Books (do
          maybeRecordRepeatedLargePrompt r.clientId r.promptTokens
          maybeRecordPlanUsageAnomaly r.clientId r.dailyTokenQuota r.monthlyTokenQuota (r.promptTokens + r.maxTokens)
            used.1 used.2
          insertJob jobId (queuedJob r (r.tag "/v1/chat/completions/async" used.2).estimatedCostUsd)) :=
        (Session.books_of_gives (S := M.session) (hsteady.maybeRecordRepeatedLargePrompt _ _)).bind fun _ =>
          (Session.books_of_gives (S := M.session) (hsteady.maybeRecordPlanUsageAnomaly _ _ _ _ _ _)).bind fun _ =>
            books_insertJob jobId fun hown _ => hfree "/v1/chat/completions/async" hown
      exact hinsert.conseq (fun _ h => h) (fun _ _ h => h) (fun _ _ h => h.1) w hw
    exact triple_bind hcreate fun _ => hpush.safe

end Month

/-! ## A month of requests -/

/-- What arrives: a request of a client, or a job at a worker. -/
inductive Arrival where
  | chatCompletions (prepared : Except HTTPException ChatRequest)
  | portalTestChat (prepared : Except HTTPException ChatRequest)
  | chatCompletionsAsync (prepared : Except HTTPException ChatRequest) (jobId : JobId)
  | processGenerationJob (jobId : JobId) (rel : Relations)

def Arrival.isRequest : Arrival → Bool
  | processGenerationJob .. => false
  | _ => true

/-- An arrival with what it is answered from outside. -/
structure Event where
  env : Environment
  arrival : Arrival

/-- The world after the arrival has been handled. -/
def serveEvent (settings : Settings) (w : World) (event : Event) : World :=
  let w := { w with env := event.env }
  match event.arrival with
  | .chatCompletions prepared => ((chatCompletions settings prepared).exec w).2
  | .portalTestChat prepared => ((portalTestChat settings prepared).exec w).2
  | .chatCompletionsAsync prepared jobId => ((chatCompletionsAsync prepared jobId).exec w).2
  | .processGenerationJob jobId rel =>
    ((do beginSession; processGenerationJob settings (jobChat settings) jobId rel).exec w).2

/-- The number of requests among the arrivals. -/
def requestsIn (events : List Event) : ℕ := (events.filter fun event => event.arrival.isRequest).length

/-- The sum of `estimated_cost_usd` over the client's rows with a status of success. -/
def requestCosts (c : ClientId) (rows : List RequestLog) : ℚ := ((answeredRows c rows).map (·.estimatedCostUsd)).sum

/-- The month begins for the client: nothing is recorded in it, and no job waits. -/
structure Begins (c : ClientId) (day : Date) (db : Database) : Prop where
  unused : tokensOf db.usage (periodKey c day .monthly) = 0
  jobs : ∀ jobId job, db.jobs.lookup jobId = some job → job.clientId = c → job.status ≠ .queued

section Run

variable {M : Month}

theorem fine_serveEvent (settings : Settings) {w : World} (hw : M.Fine 0 w.committed) {event : Event}
    (hmonth : M.During event.env) : M.Fine 0 (serveEvent settings w event).committed := by
  have hrun : ∀ {α : Type} {x : Prog α}, Triple M.Starts x (fun _ w => M.Fine 0 w.committed)
      (fun _ w => M.Fine 0 w.committed) → M.Fine 0 (x.exec { w with env := event.env }).2.committed := by
    intro α x hx
    have h := hx { w with env := event.env } ⟨hw, hmonth⟩
    rcases hr : x.exec { w with env := event.env } with ⟨_ | a, t⟩ <;> rw [hr] at h <;> exact h
  obtain ⟨env, arrival⟩ := event
  cases arrival with
  | chatCompletions prepared => exact hrun (Month.triple_chatCompletions M settings prepared)
  | portalTestChat prepared => exact hrun (Month.triple_portalTestChat M settings prepared)
  | chatCompletionsAsync prepared jobId => exact hrun (Month.triple_chatCompletionsAsync M prepared jobId)
  | processGenerationJob jobId rel =>
    exact hrun (Month.triple_started ((Month.workable M).safe_processGenerationJob settings jobId rel))

/-- The books of the month stay fine whatever is handled in it. -/
theorem fine_serve (settings : Settings) {events : List Event} (hmonth : ∀ event ∈ events, M.During event.env) :
    ∀ {w : World}, M.Fine 0 w.committed → M.Fine 0 (events.foldl (serveEvent settings) w).committed := by
  induction events with
  | nil => exact fun hw => hw
  | cons event events ih =>
    intro w hw
    apply ih fun e he => hmonth e (by simp [he])
    exact fine_serveEvent settings hw (hmonth event (by simp))

theorem Begins.fine {c : ClientId} {day : Date} {db : Database} (h : Begins c day db) :
    Month.Fine ⟨c, day, db.requestLogs.length⟩ 0 db where
  earlier := le_rfl
  free := by simp [Month.rows, answeredRows]
  tokens := by simpa [Month.used, Month.rows, loggedTokens, answeredRows] using h.unused
  jobs jobId job hjob hown hqueued := absurd hqueued (h.jobs jobId job hjob hown)

end Run

/-! ## Rounding -/

/-- A rounded amount is at most `n` halves of a millionth just if the amount is less than the next whole of them and a
half. -/
theorem abs_quantize_le_iff (x : ℚ) (n : ℕ) :
    |Billing.quantize x| ≤ n * (1 / 2000000) ↔ |x| * 1000000 < (n / 2 : ℕ) + 1 / 2 := by
  have habs : |Billing.quantize x| = (⌊|x| * 1000000 + 1 / 2⌋ : ℚ) / 1000000 := by
    have hfloor : ∀ y : ℚ, 0 ≤ y → (0 : ℚ) ≤ ⌊y * 1000000 + 1 / 2⌋ := fun y hy => by
      exact_mod_cast Int.floor_nonneg.mpr (by positivity)
    unfold Billing.quantize
    split_ifs with hx
    · rw [abs_of_nonneg hx, abs_of_nonneg (div_nonneg (hfloor x hx) (by norm_num))]
    · have hneg : 0 ≤ -x := by linarith
      rw [abs_of_nonpos (by linarith : x ≤ 0), abs_neg, abs_of_nonneg (div_nonneg (hfloor (-x) hneg) (by norm_num))]
  have hhalf : ((n / 2 : ℕ) : ℤ) = ⌊(n : ℚ) / 2⌋ := by
    have hmod := Nat.div_add_mod n 2
    have hlt := Nat.mod_lt n (by norm_num : 2 > 0)
    generalize n / 2 = m, n % 2 = k at hmod hlt
    subst hmod
    rw [eq_comm, Int.floor_eq_iff]
    have hlt' : (k : ℚ) < 2 := by exact_mod_cast hlt
    have hnonneg : (0 : ℚ) ≤ k := by positivity
    push_cast
    constructor <;> linarith
  rw [habs]
  have hscale : (⌊|x| * 1000000 + 1 / 2⌋ : ℚ) / 1000000 ≤ n * (1 / 2000000) ↔
      ((⌊|x| * 1000000 + 1 / 2⌋ : ℤ) : ℚ) ≤ (n : ℚ) / 2 := by
    constructor <;> intro h <;> linarith
  rw [hscale, ← Int.le_floor, ← hhalf, ← Int.lt_add_one_iff, Int.floor_lt]
  generalize n / 2 = m
  push_cast
  constructor <;> intro h <;> linarith

/-- **The costs of the month's requests differ from the overage of its invoice by at most half a millionth for each
request and one more if and only if the recorded tokens beyond the quota are worth less than half a millionth beyond
that**: the requests themselves cost nothing, whatever the quotas with which they are admitted. -/
theorem costs_match_invoice_iff (settings : Settings) (plan : Billing.EffectivePlan) (c : ClientId)
    (g : Billing.Generation) {w : World} (hbegins : Begins c g.periodReference w.committed) {events : List Event}
    (hmonth : ∀ event ∈ events, ∀ i, monthStart (event.env.clock i).date = monthStart g.periodReference) :
    let after := (events.foldl (serveEvent settings) w).committed
    let rows := after.requestLogs.drop w.committed.requestLogs.length
    let invoice := Billing.buildInvoiceRecordData g c plan (Billing.monthlyUsedTokens after.usage c g.periodReference)
    |requestCosts c rows - invoice.overageCost| ≤ (requestsIn events + 1 : ℕ) * (1 / 2000000) ↔
      |(max (loggedTokens c rows - plan.monthlyTokenQuota) 0 : ℤ) / 1000 * plan.overagePricePer1kTokens| * 1000000 <
        ((requestsIn events + 1) / 2 : ℕ) + 1 / 2 := by
  intro after rows invoice
  have hfine : Month.Fine ⟨c, g.periodReference, w.committed.requestLogs.length⟩ 0 after :=
    fine_serve settings hmonth hbegins.fine
  have hcosts : requestCosts c rows = 0 := by
    apply List.sum_eq_zero
    intro cost hcost
    obtain ⟨row, hrow, rfl⟩ := List.mem_map.mp hcost
    exact hfine.free row hrow
  have hused : Billing.monthlyUsedTokens after.usage c g.periodReference = loggedTokens c rows := by
    have htokens := hfine.tokens
    rw [add_zero] at htokens
    rw [← show _ = loggedTokens c rows from htokens]
    unfold Billing.monthlyUsedTokens Month.used tokensOf UsageTables.counter Table.getD
    cases after.usage.quotaCounters.lookup (periodKey c g.periodReference .monthly) <;> rfl
  have hoverage : invoice.overageCost = Billing.quantize
      ((max (loggedTokens c rows - plan.monthlyTokenQuota) 0 : ℤ) / 1000 * plan.overagePricePer1kTokens) := by
    show Billing.quantize _ = _
    rw [hused]
  rw [hcosts, zero_sub, abs_neg, hoverage]
  exact abs_quantize_le_iff _ _

/-! ### One answer -/

/-- Fifteen tokens are included, and a thousand more cost one. -/
def smallPlan : Billing.EffectivePlan := ⟨15, 0, 1, "USD"⟩

def pricedRequest : ChatRequest := { smallRequest with monthlyTokenQuota := 15, overagePricePer1kTokens := 1 }

theorem june_billed_in_july : monthStart (Billing.generationOn 6 15).referenceDatetime.date =
    monthStart (Billing.generationOn 7 1).periodReference := by decide +kernel

theorem begins_fresh (day : Date) : Begins 0 day freshWorld.committed :=
  ⟨rfl, fun jobId job h => by simp [freshWorld] at h⟩

theorem midJune_exists : (1 ≤ 6 ∧ 6 ≤ 12) ∧ 1 ≤ 15 ∧ 15 ≤ daysInMonth 2026 6 := by decide

/-- A job is queued between two requests, and a worker takes it. -/
def juneEvents : List Event :=
  let env := { freshWorld.env with clock := fun _ => ⟨.ofExists midJune_exists, 0⟩ }
  let request := { pricedRequest with monthlyTokenQuota := 100 }
  [⟨env, .chatCompletions (.ok request)⟩, ⟨env, .chatCompletionsAsync (.ok request) 7⟩,
    ⟨env, .portalTestChat (.ok request)⟩, ⟨env, .processGenerationJob 7 oneRoute⟩]

theorem costs_match_invoice_iff_mixed :
    let after := (juneEvents.foldl (serveEvent cachelessSettings) freshWorld).committed
    let rows := after.requestLogs.drop freshWorld.committed.requestLogs.length
    let invoice := Billing.buildInvoiceRecordData (Billing.generationOn 7 1) 0 smallPlan (Billing.monthlyUsedTokens
      after.usage 0 (Billing.generationOn 7 1).periodReference)
    (loggedTokens 0 rows = 21 ∧ invoice.overageCost = 6 / 1000) ∧
      (|requestCosts 0 rows - invoice.overageCost| ≤ (requestsIn juneEvents + 1 : ℕ) * (1 / 2000000) ↔
        |(max (loggedTokens 0 rows - smallPlan.monthlyTokenQuota) 0 : ℤ) / 1000 * smallPlan.overagePricePer1kTokens| *
          1000000 < ((requestsIn juneEvents + 1) / 2 : ℕ) + 1 / 2) := by
  refine ⟨by decide +kernel, ?_⟩
  refine costs_match_invoice_iff cachelessSettings smallPlan 0 (Billing.generationOn 7 1) (begins_fresh _) ?_
  intro event he _
  simp only [juneEvents, List.mem_cons, List.not_mem_nil, or_false] at he
  rcases he with rfl | rfl | rfl | rfl <;> exact june_billed_in_july

/-- **An answer of ten words is billed above the included tokens and costs nothing**: three tokens over, at a
thousandth each. -/
theorem long_answer_costs_nothing :
    let june : ℕ → Datetime := fun _ => (Billing.generationOn 6 15).referenceDatetime
    let events : List Event := [⟨{ wordyEnvironment with clock := june }, .chatCompletions (.ok pricedRequest)⟩]
    let after := (events.foldl (serveEvent cachelessSettings) freshWorld).committed
    let invoice := Billing.buildInvoiceRecordData (Billing.generationOn 7 1) 0 smallPlan (Billing.monthlyUsedTokens
      after.usage 0 (Billing.generationOn 7 1).periodReference)
    Begins 0 (Billing.generationOn 7 1).periodReference freshWorld.committed ∧
      (∀ event ∈ events, ∀ i, monthStart (event.env.clock i).date =
        monthStart (Billing.generationOn 7 1).periodReference) ∧
      requestCosts 0 after.requestLogs = 0 ∧ after.requestLogs.map (·.httpStatus) = [200] ∧
      invoice.overageCost = 3 / 1000 ∧
      ¬ |requestCosts 0 after.requestLogs - invoice.overageCost| ≤ (requestsIn events + 1 : ℕ) * (1 / 2000000) := by
  intro june events after invoice
  have hcosts : requestCosts 0 after.requestLogs = 0 := by decide +kernel
  have hoverage : invoice.overageCost = 3 / 1000 := by decide +kernel
  refine ⟨begins_fresh _, fun event he _ => ?_, hcosts, by decide +kernel, hoverage, ?_⟩
  · obtain rfl := List.mem_singleton.mp he
    exact june_billed_in_july
  · rw [hcosts, hoverage]
    norm_num [requestsIn, events, Arrival.isRequest, abs_of_nonneg]

end LlmStore.Jobs
