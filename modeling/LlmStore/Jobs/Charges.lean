import LlmStore.Inference.Charges
import LlmStore.Jobs.Ledgers

/-!
# Charges within admission and quota

A job is admitted when it is made and charged when it is processed; between the two its client's counters keep the room
that was found (`Pending`). So a request of any of the three kinds, served before the next one comes, is charged at most
what it was admitted for and leaves every counter within its quota, if the answers are short enough for the estimate
(`charges_within`). An answer of no more words than tokens asked for is not: the estimate is three tenths above the
words of the whole serialised body (`short_answer_overcharged`).
-/

namespace LlmStore.Inference.Terms

open LlmStore.Calendar LlmStore.Lib LlmStore.Usage LlmStore.Jobs Program

variable {T : Terms} {r : ChatRequest} {jobId : JobId}

/-! ## Making a job -/

/-- The job is for what the request was admitted for. -/
structure Matches (T : Terms) (job : GenerationJob) : Prop where
  clientId : job.clientId = T.clientId
  promptTokens : job.promptTokensEstimated = T.reservation.promptTokens
  capacity : T.capacity job.cacheKey = T.reservation.maxTokens

/-- The job is committed, nothing is booked for it, and the counters have room for it. -/
structure Pending (T : Terms) (jobId : JobId) (w : World) : Prop extends T.Going w.env where
  unused : T.Unused w.committed.usage
  cache : CacheFits T.capacity w.committed.responseCache
  room : ∀ i, T.Room (w.env.clock i).date
  job : ∀ job, w.committed.jobs.lookup jobId = some job → Matches T job

theorem Pending.committed {w : World} (h : Pending T jobId w) : T.Fine w.committed := ⟨.inl h.unused, h.cache⟩

theorem Pending.same {w w' : World} (hs : SameBooks w w') (h : Pending T jobId w) : Pending T jobId w' where
  toGoing := h.toGoing.same hs
  unused := hs.committed ▸ h.unused
  cache := hs.committed ▸ h.cache
  room := by
    obtain ⟨k, hclock⟩ := hs.clock
    intro i
    rw [hclock]
    exact h.room _
  job := hs.committed ▸ h.job

/-- The row of the job in the session is for what the request was admitted for. -/
structure Loaded (T : Terms) (jobId : JobId) (w : World) : Prop extends T.Admitted w where
  job : ∀ job, w.current.jobs.lookup jobId = some job → Matches T job

theorem Loaded.same {w w' : World} (hs : SameBooks w w') (h : Loaded T jobId w) : Loaded T jobId w' where
  toAdmitted := h.toAdmitted.same hs
  job := hs.jobs ▸ h.job

theorem triple_insertJob {job : GenerationJob} (hj : Matches T job) :
    Triple T.Admitted (insertJob jobId job) (fun _ => Loaded T jobId) (Stray T) := by
  refine triple_bind (triple_of_steady (steady_admitted (F := IsOther) rfl).await fun _ hw => hw.committed) fun _ => ?_
  refine triple_bind (Q := fun fresh w => if fresh then Loaded T jobId w else T.Admitted w) (triple_modifyGet ?_)
    fun fresh => ?_
  · intro w hw
    split
    · exact hw
    · refine ⟨⟨⟨hw.toGoing, hw.committed, hw.unused, hw.cache⟩, hw.room⟩, fun job' hjob' => ?_⟩
      rw [World.setCurrent, AList.lookup_insert, Option.some.injEq] at hjob'
      exact hjob' ▸ hj
  · cases fresh with
    | true => exact triple_pure fun _ hw => hw
    | false => exact triple_raise fun _ hw => ⟨hw.committed, rfl⟩

theorem matches_queuedJob (hr : T.Fits r) (cost : ℚ) : Matches T (queuedJob r cost) where
  clientId := by
    rw [Terms.clientId, hr.reservation]
    rfl
  promptTokens := by
    rw [hr.reservation]
    rfl
  capacity := by
    rw [hr.reservation]
    exact hr.capacity

/-- `chat_completions_async` leaves a job that its client's counters have room for. -/
theorem triple_chatCompletionsAsync (jobId : JobId) (hs : Solvent T.limits T.days T.base.usage) (hr : T.Fits r) :
    Triple (Starts T) (chatCompletionsAsync (.ok r) jobId) (fun _ => Pending T jobId)
      fun _ w => T.Fine w.committed := by
  have hopen : Steady (fun _ : Unit => T.Open) fun _ => True := steady_open trivial
  have hadm : Steady (fun _ : Unit => T.Admitted) IsOther := steady_admitted rfl
  refine triple_started (triple_bind (Q := fun _ => Loaded T jobId) ?_ fun _ => ?_)
  · refine triple_bind (triple_tooManyRequests ?_) fun _ => ?_
    · exact triple_bind (triple_open (hopen.enforceRateLimit (fun _ => trivial) _)) fun _ => triple_quota hs hr
    · refine triple_bind (triple_admitted (hadm.currentUsage _)) fun used => ?_
      refine triple_bind (triple_admitted (hadm.maybeRecordRepeatedLargePrompt _ _)) fun _ => ?_
      refine triple_bind (triple_admitted (hadm.maybeRecordPlanUsageAnomaly _ _ _ _ _ _)) fun _ => ?_
      exact fine_of_stray (triple_insertJob (matches_queuedJob hr _))
  · refine triple_bind (fine_of_stray (triple_commit_of (Q := Pending T jobId) Loaded.same (fun w hw => ?_)
      (fun _ hw => hw.committed) fun _ hw => hw.committed)) fun _ => ?_
    · exact ⟨hw.toGoing, hw.unused, hw.cache, hw.room, hw.job⟩
    · have hsteady : Steady (fun _ : Unit => Pending T jobId) IsOther := steady_of_sameBooks Pending.same rfl
      have hawait := triple_of_steady hsteady.await fun _ hw => hw.committed
      refine triple_bind (fine_of_stray hawait) fun _ => triple_modify ?_
      exact fun w hw => ⟨hw.toGoing, hw.unused, hw.cache, hw.room, hw.job⟩

/-! ## Processing a job -/

theorem admitted_updateJob (f : GenerationJob → GenerationJob) :
    Triple T.Admitted (updateJob jobId f) (fun _ => T.Admitted) (Stray T) := by
  refine triple_modify fun w hw => ⟨⟨hw.toGoing, hw.committed, ?_, ?_⟩, hw.room⟩
  all_goals
    simp only [World.setCurrent]
    split
  · exact hw.unused
  · exact hw.unused
  · exact hw.cache
  · exact hw.cache

theorem closed_updateJob (f : GenerationJob → GenerationJob) :
    Triple T.Closed (updateJob jobId f) (fun _ => T.Closed) (Stray T) := by
  refine triple_modify fun w hw => ⟨hw.committed, ?_⟩
  simp only [World.setCurrent]
  split
  · exact hw.current
  · exact ⟨hw.current.charged, hw.current.cache⟩

/-- The ends of a job's processing: the status is set and all is committed. -/
theorem closed_end (f : GenerationJob → GenerationJob) (result : JobResult) :
    Triple T.Closed (do updateJob jobId f; commit; pure result) (fun a w => a = result ∧ T.Closed w) (Stray T) :=
  triple_bind (closed_updateJob f) fun _ => triple_bind triple_commit fun _ => triple_pure fun _ hw => ⟨rfl, hw⟩

section Process

variable {job : GenerationJob} (hj : Matches T job) (hp : 0 ≤ T.reservation.promptTokens)
  (hm : 1 ≤ T.reservation.maxTokens) (hn : T.streams = false)

include hj

theorem tags_jobTag : Tags T (jobTag job) := ⟨hj.clientId, hj.promptTokens⟩

include hp

theorem triple_completeFromCache {cached : CachedResponse} (h0 : 0 ≤ cached.completionTokens)
    (hle : cached.completionTokens ≤ T.reservation.maxTokens) :
    Triple T.Admitted (completeFromCache jobId job cached) (fun a w => a = .completed ∧ T.Closed w) (Stray T) :=
  triple_bind (triple_bookAnswer (tags_jobTag hj) hp _ h0 hle _ _) fun _ => closed_end _ _

include hm hn

theorem triple_generate (settings : Settings) (backend : Models.InferenceBackend) :
    Triple T.Admitted (generate settings (jobChat settings) jobId job backend)
      (fun a w => a = .completed ∧ T.Closed w) (Caught T) := by
  refine triple_bind (triple_caught ((backends_admitted T hm).chat settings backend false false)) fun result => ?_
  rintro w ⟨hw, -, hshort⟩
  obtain ⟨h0, hle⟩ := estimate_of_short hm (hshort hn)
  have hstored : Triple T.Admitted _ _ _ :=
    triple_storeExactCache settings (jobKey job) job.cacheFingerprint result.body job.promptTokensEstimated h0
      (hle.trans_eq hj.capacity.symm)
  refine caught_of_stray (triple_bind hstored fun _ => ?_) w hw
  exact triple_bind (triple_bookAnswer (tags_jobTag hj) hp result h0 hle _ _) fun _ => closed_end _ _

/-- The processing on a backend leaves a fine database, and does not put the job back. -/
theorem triple_runOn (settings : Settings) (backend : Models.InferenceBackend) :
    Triple T.Admitted (runOn settings (jobChat settings) jobId job backend)
      (fun a w => a ≠ .requeue ∧ T.Fine w.committed) fun _ w => T.Fine w.committed := by
  refine triple_bind (fine_of_stray (admitted_updateJob _)) fun _ => ?_
  refine triple_bind (Q := fun _ => T.Admitted) (fine_of_stray (triple_commit_of Admitted.same (fun w hw => ?_)
    (fun _ hw => hw.committed) fun _ hw => hw.committed)) fun _ => ?_
  · exact ⟨⟨hw.toGoing, hw.toOpen.closed.current, hw.unused, hw.cache⟩, hw.room⟩
  have hrelease : ∀ p : Prop, Triple (fun w => p ∧ T.Fine w.committed) (release backend.id)
      (fun _ w => p ∧ T.Fine w.committed) fun _ w => T.Fine w.committed := fun p =>
    ((steady_of_sameBooks (P := fun w => p ∧ T.Fine w.committed) (F := fun _ => True)
      (fun hs h => ⟨h.1, hs.committed ▸ h.2⟩) trivial).release backend.id ()).conseq (fun _ h => h) (fun _ _ h => h.1)
      fun _ _ h => h.1.2
  refine triple_tryFinally (Q := fun a w => a ≠ .requeue ∧ T.Fine w.committed) (E := fun _ w => T.Fine w.committed) ?_
    (fun a => hrelease _) fun _ => ?_
  · refine triple_tryExcept ((triple_generate hj hp hm hn settings backend).conseq (fun _ h => h) (fun a w h => ?_)
      fun _ _ h => h) fun exc => ?_
    · exact ⟨by rw [h.1]; simp, h.2.committed⟩
    rintro w ⟨hcom, hcaught⟩
    cases he : exc.httpError with
    | none => exact hcom
    | some e =>
      have hclosed : T.Closed w := (hcaught (by rw [he]; simp)).closed
      have hlog : Triple T.Closed (do
          logFailure (jobTag job) false (some backend.name) e
          updateJob jobId fun job => { job with
            status := .failed, errorMessage := some e.message, attempts := max e.backendErrors.length 1,
            fallbackUsed := e.backendErrors.length > 1, backendErrors := e.backendErrors }
          maybeRecordRequestErrorBurst job.clientId e.statusCode
          commit
          pure JobResult.failed) (fun a w => a ≠ .requeue ∧ T.Fine w.committed) fun _ w => T.Fine w.committed := by
        refine triple_bind (fine_of_stray (triple_logRequest _)) fun _ => ?_
        refine triple_bind (fine_of_stray (closed_updateJob _)) fun _ => ?_
        refine triple_bind (fine_of_stray (triple_of_steady
          ((steady_closed (F := IsOther) rfl).maybeRecordRequestErrorBurst _ _) fun _ hw => hw.committed)) fun _ => ?_
        exact triple_bind (fine_of_stray triple_commit) fun _ => triple_pure fun _ hw => ⟨by simp, hw.committed⟩
      exact hlog w hclosed
  · exact (hrelease True).conseq (fun _ h => ⟨trivial, h⟩) (fun _ _ h => h.2) fun _ _ h => h

end Process

/-- What an attempt to process a job leaves behind: if it puts the job back, all is as before. -/
def Attempted (T : Terms) (jobId : JobId) (result : JobResult) (w : World) : Prop :=
  T.Fine w.committed ∧ (result = .requeue → Pending T jobId w)

theorem attempted_of_ne {result : JobResult} {w : World} (h : result ≠ .requeue) (hw : T.Fine w.committed) :
    Attempted T jobId result w := ⟨hw, fun he => absurd he h⟩

theorem triple_failEarly (message : String) :
    Triple T.Admitted (failEarly jobId message) (Attempted T jobId) fun _ w => T.Fine w.committed := by
  refine (closed_end _ _).conseq (fun _ hw => hw.closed) (fun a w hw => ?_) fun _ _ hw => hw.1
  exact attempted_of_ne (by rw [hw.1]; simp) hw.2.committed

/-- A worker has begun a session for a pending job. -/
structure Working (T : Terms) (jobId : JobId) (w : World) : Prop extends Loaded T jobId w where
  pending : Pending T jobId w

theorem Working.same {w w' : World} (hs : SameBooks w w') (h : Working T jobId w) : Working T jobId w' :=
  ⟨h.toLoaded.same hs, h.pending.same hs⟩

/-- An attempt to process a pending job charges it for at most what it was admitted for. -/
theorem triple_processGenerationJob (settings : Settings) (rel : Relations) (hp : 0 ≤ T.reservation.promptTokens)
    (hm : 1 ≤ T.reservation.maxTokens) (hn : T.streams = false) :
    Triple (Pending T jobId) (do beginSession; processGenerationJob settings (jobChat settings) jobId rel)
      (Attempted T jobId) fun _ w => T.Fine w.committed := by
  have hsteady : Steady (fun _ : Unit => Working T jobId) fun _ => True := steady_of_sameBooks Working.same trivial
  have hrun : ∀ {α : Type} {R : α → Prop} {x : Prog α}, KeepsAll (fun _ : Unit => Working T jobId) R (fun _ => True) x →
      Triple (Working T jobId) x (fun a w => Working T jobId w ∧ R a) fun _ w => T.Fine w.committed :=
    fun hx => (hx ()).conseq (fun _ h => h) (fun _ _ h => h) fun _ _ h => h.1.pending.committed
  refine triple_bind (Q := fun _ => Working T jobId) (triple_modify fun w hw => ?_) fun _ => ?_
  · exact ⟨⟨⟨⟨hw.toGoing, hw.committed, hw.unused, hw.cache⟩, hw.room⟩, hw.job⟩,
      ⟨hw.toGoing, hw.unused, hw.cache, hw.room, hw.job⟩⟩
  refine triple_bind (Q := fun job w => Working T jobId w ∧ ∀ j ∈ job, Matches T j) ?_ fun job => ?_
  · exact triple_bind (hrun (hsteady.await)) fun _ => triple_modifyGet fun w hw => ⟨hw.1, hw.1.job⟩
  cases job with
  | none => exact triple_pure fun w hw => attempted_of_ne (by simp) hw.1.pending.committed
  | some job =>
    rintro w ⟨hw, hmatches⟩
    have hj := hmatches job rfl
    dsimp only
    split_ifs
    · exact attempted_of_ne (by simp) hw.pending.committed
    · exact triple_failEarly _ w hw.toAdmitted
    refine triple_bind (hrun (keeps_lookupExactCache hsteady (fun _ h => h.toAdmitted) settings (jobKey job)))
      (fun cached => ?_) w hw
    cases cached with
    | some cached =>
      rintro w ⟨hw, hcached⟩
      obtain ⟨h0, hle⟩ := hcached cached rfl
      have hfits : cached.completionTokens ≤ T.reservation.maxTokens := hle.trans_eq hj.capacity
      refine (triple_completeFromCache hj hp h0 hfits).conseq (fun _ h => h) (fun a w h => ?_) (fun _ _ h => h.1) w
        hw.toAdmitted
      exact attempted_of_ne (by rw [h.1]; simp) h.2.committed
    | none =>
      rintro w ⟨hw, -⟩
      unfold processOnBackend
      rcases rel.routes with _ | _ | routes
      · exact triple_failEarly _ w hw.toAdmitted
      · exact triple_raise (fun w hw => hw.toAdmitted.committed) w hw
      · refine triple_bind (hrun (steady_chooseRoute hsteady routes)) (fun backend => ?_) w hw
        cases backend with
        | none =>
          refine Triple.pre (P := Working T jobId) ?_ fun _ h => h.1
          refine triple_bind (hrun hsteady.await) fun _ => triple_pure fun w hw => ?_
          exact ⟨hw.1.pending.committed, fun _ => hw.1.pending⟩
        | some backend =>
          rintro w ⟨hw, -⟩
          refine (triple_runOn hj hp hm hn settings backend).conseq (fun _ h => h) (fun a w h => ?_) (fun _ _ h => h) w
            hw.toAdmitted
          exact attempted_of_ne h.1 h.2

end LlmStore.Inference.Terms

namespace LlmStore.Jobs

open LlmStore.Calendar LlmStore.Lib LlmStore.Usage LlmStore.Inference Program

/-! ## Requests one after another -/

/-- A request of one of the three kinds. A job is processed as soon as it is made, and again as often as no backend has
a slot for it; each attempt has what is loaded with the job. -/
inductive Service where
  | chatCompletions (prepared : Except HTTPException ChatRequest)
  | portalTestChat (prepared : Except HTTPException ChatRequest)
  | chatCompletionsAsync (prepared : Except HTTPException ChatRequest) (jobId : JobId) (attempts : List Relations)

def Service.prepared : Service → Except HTTPException ChatRequest
  | .chatCompletions prepared => prepared
  | .portalTestChat prepared => prepared
  | .chatCompletionsAsync prepared _ _ => prepared

/-- A request with what it is answered from outside. -/
structure Visit where
  env : Environment
  service : Service

/-- The attempts to process a job, until one does not put it back. -/
def processAttempts (settings : Settings) (jobId : JobId) : List Relations → World → World
  | [], w => w
  | rel :: attempts, w =>
    match (do beginSession; processGenerationJob settings (jobChat settings) jobId rel : Prog JobResult).exec w with
    | (.ok .requeue, w) => processAttempts settings jobId attempts w
    | (_, w) => w

/-- The world after the request. -/
def serveVisit (settings : Settings) (w : World) (visit : Visit) : World :=
  let w := { w with env := visit.env }
  match visit.service with
  | .chatCompletions prepared => ((chatCompletions settings prepared).exec w).2
  | .portalTestChat prepared => ((portalTestChat settings prepared).exec w).2
  | .chatCompletionsAsync prepared jobId attempts =>
    match (chatCompletionsAsync prepared jobId).exec w with
    | (.ok (), w) => processAttempts settings jobId attempts w
    | (.error _, w) => w

/-- `record_usage` has added at most `n`, once or not at all. -/
def ChargedAtMost (c : ClientId) (n : ℤ) (before after : UsageTables) : Prop :=
  (∀ k, tokensOf after k = tokensOf before k) ∨ ∃ d total, 0 ≤ total ∧ total ≤ n ∧
    ∀ k, tokensOf after k = tokensOf before k + if Counts c d k then total else 0

/-- What the request may change of the counters: nothing if it is refused before its admission, else what it was
admitted for. -/
def Visit.Charges (visit : Visit) (before after : UsageTables) : Prop :=
  match visit.service.prepared with
  | .error _ => ∀ k, tokensOf after k = tokensOf before k
  | .ok r => ChargedAtMost r.clientId (r.promptTokens + r.maxTokens) before after

def WithinQuotas (limits : ClientId → PeriodType → ℤ) (usage : UsageTables) : Prop :=
  ∀ k, tokensOf usage k ≤ limits k.clientId k.periodType

/-- What is prepared of a request: its client's quotas, and a cache key that goes with the tokens asked for. -/
structure WellPrepared (limits : ClientId → PeriodType → ℤ) (capacity : String → ℤ) (r : ChatRequest) : Prop where
  capacity : capacity r.cacheKey = r.maxTokens
  promptTokens : 0 ≤ r.promptTokens
  maxTokens : 1 ≤ r.maxTokens
  dailyTokenQuota : r.dailyTokenQuota = limits r.clientId .daily
  monthlyTokenQuota : r.monthlyTokenQuota = limits r.clientId .monthly

/-- The answer is streamed: only plain chat requests may ask for that. -/
def Service.streams : Service → Bool
  | .chatCompletions (.ok r) => r.stream
  | _ => false

/-- The request is well prepared, the clock does not go back meanwhile, and each answer that is not streamed is short
enough. -/
structure Visit.Fits (limits : ClientId → PeriodType → ℤ) (capacity : String → ℤ) (visit : Visit) : Prop where
  prepared : ∀ r, visit.service.prepared = .ok r → WellPrepared limits capacity r
  clock : ∀ i j, i ≤ j → (visit.env.clock i).date ≤ (visit.env.clock j).date
  short : ∀ r, visit.service.prepared = .ok r → visit.service.streams = false → ∀ i statusCode body shown,
    visit.env.answers i = .response statusCode (some body) shown → isSuccess statusCode = true →
      ShortAnswer r.maxTokens body

/-- The first request is over when the second one comes. -/
def Visit.Before (a b : Visit) : Prop := ∀ i j, (a.env.clock i).date ≤ (b.env.clock j).date

/-- The days on which the requests are served. -/
def daysOf (visits : List Visit) (d : Date) : Prop := ∃ visit ∈ visits, ∃ i, (visit.env.clock i).date = d

/-! ## One request -/

section Step

variable {limits : ClientId → PeriodType → ℤ} {capacity : String → ℤ}

/-- The terms of a prepared request. -/
def terms (limits : ClientId → PeriodType → ℤ) (capacity : String → ℤ) (w : World) (visit : Visit) (r : ChatRequest) :
    Terms :=
  { limits, capacity, days := daysOf [visit], reservation := r.reservation, streams := visit.service.streams
    base := w.committed }

/-- A run ends in a state of which both outcomes hold. -/
theorem fine_of_triple {T : Terms} {P : World → Prop} {α : Type} {x : Prog α}
    (hx : Triple P x (fun _ w => T.Fine w.committed) fun _ w => T.Fine w.committed) {w : World} (hw : P w) :
    T.Fine (x.exec w).2.committed := by
  have h := hx w hw
  rcases hr : x.exec w with ⟨_ | a, t⟩ <;> rw [hr] at h <;> exact h

theorem fine_processAttempts (settings : Settings) {T : Terms} (hp : 0 ≤ T.reservation.promptTokens)
    (hm : 1 ≤ T.reservation.maxTokens) (hn : T.streams = false) {jobId : JobId} (attempts : List Relations) {w : World}
    (hw : T.Pending jobId w) : T.Fine (processAttempts settings jobId attempts w).committed := by
  induction attempts generalizing w with
  | nil => exact hw.committed
  | cons rel attempts ih =>
    have h := Terms.triple_processGenerationJob settings rel hp hm hn w hw
    unfold processAttempts
    rcases hr : (do beginSession; processGenerationJob settings (jobChat settings) jobId rel : Prog JobResult).exec w with
      ⟨_ | result, t⟩ <;> rw [hr] at h
    · exact h
    · cases result with
      | requeue => exact ih (h.2 rfl)
      | missing => exact h.1
      | skipped => exact h.1
      | failed => exact h.1
      | completed => exact h.1

/-- A request that is refused before its admission ends in an exception and commits nothing. -/
theorem exec_refused {α : Type} (e : Exc) (w : World) :
    ∃ e' t, (do beginSession; await; raise e : Prog α).exec w = (.error e', t) ∧ t.committed = w.committed := by
  have hsteady : Steady (fun _ : Unit => fun t : World => t.committed = w.committed) fun _ => True :=
    steady_of_sameBooks (fun hs h => hs.committed.trans h) trivial
  have h : Triple (fun t => t.committed = w.committed) (do beginSession; await; raise e : Prog α)
      (fun _ _ => False) fun _ t => t.committed = w.committed := by
    refine triple_bind (Q := fun _ t => t.committed = w.committed) (triple_modify fun _ ht => ht) fun _ => ?_
    refine triple_bind ((hsteady.await ()).conseq (fun _ h => h) (fun _ _ h => h.1) fun _ _ h => h.1) fun _ => ?_
    exact triple_raise fun _ ht => ht
  have hw := h w rfl
  rcases hr : (do beginSession; await; raise e : Prog α).exec w with ⟨e' | a, t⟩ <;> rw [hr] at hw
  · exact ⟨e', t, rfl, hw⟩
  · exact hw.elim

/-- What holds between the requests, with those still to come. -/
structure Kept (limits : ClientId → PeriodType → ℤ) (capacity : String → ℤ) (visits : List Visit) (db : Database) :
    Prop where
  solvent : Terms.Solvent limits (daysOf visits) db.usage
  cache : CacheFits capacity db.responseCache

variable {visit : Visit} {visits : List Visit} {r : ChatRequest}

theorem Kept.fewer {db : Database} (h : Kept limits capacity (visit :: visits) db) : Kept limits capacity visits db :=
  ⟨⟨h.solvent.nonneg, h.solvent.within, fun k d hu ⟨v, hv, hd⟩ =>
    h.solvent.begun k d hu ⟨v, List.mem_cons_of_mem _ hv, hd⟩⟩, h.cache⟩

/-- The day of a booking is not before the first day of the counter's period. -/
theorem periodStart_le {c : ClientId} {d : Date} {k : PeriodKey} (h : Counts c d k) : k.periodStart ≤ d := by
  rcases h with rfl | rfl
  · exact Date.le_refl d
  · exact Date.firstDay_le d

/-- A fine database is one from which the next requests may start. -/
theorem kept_of_fine {w : World} {db : Database} (hw : Kept limits capacity (visit :: visits) w.committed)
    (hbefore : ∀ later ∈ visits, visit.Before later) (h : (terms limits capacity w visit r).Fine db) :
    Kept limits capacity visits db := by
  refine ⟨?_, h.cache⟩
  rcases h.charged with hunused | ⟨d, ⟨v, hv, i, hd⟩, hroom, total, h0, hle, hcharged⟩
  · obtain ⟨hnonneg, hwithin, hbegun⟩ := hw.fewer.solvent
    exact ⟨fun k => hunused k ▸ hnonneg k, fun k => hunused k ▸ hwithin k, fun k d hu => hbegun k d (hunused k ▸ hu)⟩
  obtain rfl := List.mem_singleton.mp hv
  replace hcharged : ∀ k, tokensOf db.usage k =
    tokensOf w.committed.usage k + if Counts r.clientId d k then total else 0 := hcharged
  refine ⟨fun k => ?_, fun k => ?_, fun k d' hu hd' => ?_⟩
  · have := hw.solvent.nonneg k
    rw [hcharged]
    split_ifs <;> omega
  · have hwithin := hw.solvent.within k
    rw [hcharged]
    split_ifs with hk
    · rcases hk with rfl | rfl
      · exact (add_le_add_right hle _).trans (hroom .daily)
      · exact (add_le_add_right hle _).trans (hroom .monthly)
    · omega
  · by_cases hk : Counts r.clientId d k
    · obtain ⟨later, hlater, j, rfl⟩ := hd'
      exact Date.le_trans (periodStart_le hk) (hd ▸ hbefore later hlater i j)
    · have heq := hcharged k
      rw [if_neg hk, add_zero] at heq
      exact hw.fewer.solvent.begun k d' (heq ▸ hu) hd'

theorem charged_of_fine {w : World} {db : Database} (h : (terms limits capacity w visit r).Fine db) :
    ChargedAtMost r.clientId (r.promptTokens + r.maxTokens) w.committed.usage db.usage := by
  rcases h.charged with hunused | ⟨d, -, -, total, h0, hle, hcharged⟩
  · exact .inl hunused
  · exact .inr ⟨d, total, h0, hle, hcharged⟩

/-- A request that is well prepared and answered shortly leaves a fine database. -/
theorem fine_serveVisit (settings : Settings) {w : World} (hw : Kept limits capacity (visit :: visits) w.committed)
    (hfits : visit.Fits limits capacity) (hr : visit.service.prepared = .ok r) :
    (terms limits capacity w visit r).Fine (serveVisit settings w visit).committed := by
  have hprep := hfits.prepared r hr
  have hs : Terms.Solvent limits (daysOf [visit]) w.committed.usage := by
    refine ⟨hw.solvent.nonneg, hw.solvent.within, fun k d hu => ?_⟩
    rintro ⟨v, hv, hd⟩
    obtain rfl := List.mem_singleton.mp hv
    exact hw.solvent.begun k d hu ⟨v, List.mem_cons_self, hd⟩
  have hstream : r.stream = false → visit.service.streams = false := by
    intro hs
    unfold Service.streams
    split
    · rename_i he
      rw [he] at hr
      exact Except.ok.inj hr ▸ hs
    · rfl
  have hreq : (terms limits capacity w visit r).Fits r :=
    ⟨rfl, hprep.capacity, hprep.promptTokens, hprep.maxTokens, hstream, hprep.dailyTokenQuota, hprep.monthlyTokenQuota⟩
  have hstarts : Terms.Starts (terms limits capacity w visit r) { w with env := visit.env } :=
    ⟨⟨hfits.clock, fun i => ⟨visit, List.mem_singleton_self _, i, rfl⟩, hfits.short r hr⟩, rfl, hw.cache⟩
  obtain ⟨env, service⟩ := visit
  cases service with
  | chatCompletions prepared =>
    obtain rfl : prepared = .ok r := hr
    exact fine_of_triple (Terms.triple_chatCompletions settings hs hreq) hstarts
  | portalTestChat prepared =>
    obtain rfl : prepared = .ok r := hr
    exact fine_of_triple (Terms.triple_portalTestChat settings hs hreq rfl) hstarts
  | chatCompletionsAsync prepared jobId attempts =>
    obtain rfl : prepared = .ok r := hr
    have h := Terms.triple_chatCompletionsAsync jobId hs hreq _ hstarts
    unfold serveVisit
    dsimp only
    rcases hrun : (chatCompletionsAsync (.ok r) jobId).exec { w with env } with ⟨e | _, t⟩ <;> rw [hrun] at h
    · exact h
    · exact fine_processAttempts settings hprep.promptTokens hprep.maxTokens rfl attempts h

theorem committed_serveVisit_error (settings : Settings) (w : World) {e : HTTPException}
    (he : visit.service.prepared = .error e) : (serveVisit settings w visit).committed = w.committed := by
  obtain ⟨env, service⟩ := visit
  cases service with
  | chatCompletions prepared =>
    obtain rfl : prepared = .error e := he
    obtain ⟨e', t, hrun, ht⟩ := exec_refused (α := ℕ × String) (.http e.statusCode (.text e.detail)) { w with env }
    exact (congrArg (fun r => r.2.committed) hrun).trans ht
  | portalTestChat prepared =>
    obtain rfl : prepared = .error e := he
    obtain ⟨e', t, hrun, ht⟩ := exec_refused (α := ℕ × String) (.http e.statusCode (.text e.detail)) { w with env }
    exact (congrArg (fun r => r.2.committed) hrun).trans ht
  | chatCompletionsAsync prepared jobId attempts =>
    obtain rfl : prepared = .error e := he
    obtain ⟨e', t, hrun, ht⟩ := exec_refused (α := Unit) (.http e.statusCode (.text e.detail)) { w with env }
    have hasync : (chatCompletionsAsync (.error e) jobId).exec { w with env } = (.error e', t) := hrun
    simp only [serveVisit, hasync]
    exact ht

/-- One request is charged at most what it was admitted for, and the next ones may start from what it leaves. -/
theorem serveVisit_kept (settings : Settings) {w : World} (hw : Kept limits capacity (visit :: visits) w.committed)
    (hfits : visit.Fits limits capacity) (hbefore : ∀ later ∈ visits, visit.Before later) :
    visit.Charges w.committed.usage (serveVisit settings w visit).committed.usage ∧
      Kept limits capacity visits (serveVisit settings w visit).committed := by
  unfold Visit.Charges
  cases hr : visit.service.prepared with
  | error e =>
    rw [committed_serveVisit_error settings w hr]
    exact ⟨fun _ => rfl, hw.fewer⟩
  | ok r =>
    have hfine := fine_serveVisit settings hw hfits hr
    exact ⟨charged_of_fine hfine, kept_of_fine hw hbefore hfine⟩

end Step

/-- **No request is charged more than it was admitted for, and no counter goes over its quota**, in any sequence of
requests served one after another whose answers are short enough for the estimate. -/
theorem charges_within (settings : Settings) (limits : ClientId → PeriodType → ℤ) (capacity : String → ℤ) :
    ∀ (visits : List Visit) (w : World), Terms.Solvent limits (daysOf visits) w.committed.usage →
      CacheFits capacity w.committed.responseCache → visits.Pairwise Visit.Before →
      (∀ visit ∈ visits, visit.Fits limits capacity) →
      ∀ served visit later, visits = served ++ visit :: later →
        let before := served.foldl (serveVisit settings) w
        let after := serveVisit settings before visit
        visit.Charges before.committed.usage after.committed.usage ∧ WithinQuotas limits after.committed.usage := by
  intro visits w hsolvent hcache horder hfits served
  induction served generalizing visits w with
  | nil =>
    rintro visit later rfl
    obtain ⟨hcharges, hkept⟩ := serveVisit_kept settings ⟨hsolvent, hcache⟩ (hfits visit List.mem_cons_self)
      (List.pairwise_cons.mp horder).1
    exact ⟨hcharges, hkept.solvent.within⟩
  | cons first served ih =>
    rintro visit later rfl
    obtain ⟨hbefore, horder⟩ := List.pairwise_cons.mp horder
    obtain ⟨-, hkept⟩ := serveVisit_kept settings ⟨hsolvent, hcache⟩ (hfits first List.mem_cons_self) hbefore
    exact ih _ _ hkept.solvent hkept.cache horder (fun v hv => hfits v (List.mem_cons_of_mem _ hv)) visit later rfl

/-! ### Short and long answers -/

/-- The same quotas for every client. -/
def quotas (daily monthly : ℤ) : ClientId → PeriodType → ℤ
  | _, .daily => daily
  | _, .monthly => monthly

/-- One request after another of each kind, with the same answers from outside. -/
def threeVisits : List Visit :=
  [⟨freshWorld.env, .chatCompletions (.ok smallRequest)⟩, ⟨freshWorld.env, .portalTestChat (.ok smallRequest)⟩,
    ⟨freshWorld.env, .chatCompletionsAsync (.ok smallRequest) 7 [oneRoute]⟩]

theorem solvent_fresh {limits : ClientId → PeriodType → ℤ} (h : ∀ c p, 0 ≤ limits c p) (days : Date → Prop) :
    Terms.Solvent limits days freshWorld.committed.usage :=
  ⟨fun _ => le_refl 0, fun _ => h _ _, fun _ _ hu => absurd rfl hu⟩

theorem fits_small {visit : Visit} (he : visit.env = freshWorld.env) (hp : visit.service.prepared = .ok smallRequest) :
    visit.Fits (quotas 1000 10000) fun _ => 10 := by
  refine ⟨fun r hr => ?_, fun i j _ => ?_, fun r hr _ i statusCode body shown ha _ => ?_⟩
  · obtain rfl := Except.ok.inj (hp.symm.trans hr)
    exact ⟨rfl, by decide, by decide, rfl, rfl⟩
  · rw [he]
    exact Date.le_refl _
  · obtain rfl := Except.ok.inj (hp.symm.trans hr)
    rw [he] at ha
    by_cases hi : i = 0
    · subst hi
      cases ha
      decide
    · simp [freshWorld, hi] at ha

theorem charges_within_three :
    let before := (threeVisits.take 2).foldl (serveVisit cachelessSettings) freshWorld
    let after := threeVisits.foldl (serveVisit cachelessSettings) freshWorld
    ChargedAtMost 0 15 before.committed.usage after.committed.usage ∧
      WithinQuotas (quotas 1000 10000) after.committed.usage ∧
      tokensOf after.committed.usage ⟨0, { year := 2025, month := 6, day := 15 }, .daily⟩ = 21 := by
  have h := charges_within cachelessSettings (quotas 1000 10000) (fun _ => 10) threeVisits freshWorld
    (solvent_fresh (fun _ p => by cases p <;> norm_num [quotas]) _) (fun _ _ h => by cases h)
    (by simp [threeVisits, Visit.Before, freshWorld, Date.le_refl])
    (by
      simp only [threeVisits, List.forall_mem_cons]
      exact ⟨fits_small rfl rfl, fits_small rfl rfl, fits_small rfl rfl, by simp⟩)
    (threeVisits.take 2) ⟨freshWorld.env, .chatCompletionsAsync (.ok smallRequest) 7
      [oneRoute]⟩ [] rfl
  exact ⟨h.1, h.2, by decide +kernel⟩

/-- An answer of ten words. -/
def tenWords : String :=
  "\x7b\"id\":\"1\",\"object\":\"chat.completion\",\"created\":0,\"model\":\"m\",\"choices\":[\x7b\"index\":0," ++
    "\"finish_reason\":\"stop\",\"message\":\x7b\"role\":\"assistant\",\"content\":\"a b c d e f g h i j\"\x7d\x7d]\x7d"

def wordyEnvironment : Environment :=
  { freshWorld.env with answers := fun n => if n = 0 then .response 200 (some tenWords) "" else .response 400 none "no" }

/-- A request that is admitted for just what is left of the day. -/
def lastRequest : ChatRequest := { smallRequest with dailyTokenQuota := 15 }

/-- **An answer of ten words overcharges a request for ten tokens**, and takes the counter over its quota. -/
theorem short_answer_overcharged :
    let visit : Visit := ⟨wordyEnvironment, .chatCompletions (.ok lastRequest)⟩
    let after := serveVisit cachelessSettings freshWorld visit
    (Text.split tenWords.toList).length = 10 ∧ lastRequest.maxTokens = 10 ∧
      tokensOf after.committed.usage ⟨0, { year := 2025, month := 6, day := 15 }, .daily⟩ = 18 ∧
        ¬ visit.Charges freshWorld.committed.usage after.committed.usage ∧
          ¬ WithinQuotas (quotas 15 10000) after.committed.usage := by
  intro visit after
  have hused : tokensOf after.committed.usage ⟨0, { year := 2025, month := 6, day := 15 }, .daily⟩ = 18 := by
    decide +kernel
  refine ⟨by decide +kernel, rfl, hused, ?_, fun h => ?_⟩
  · rintro (h | ⟨d, total, h0, hle, h⟩)
    · exact absurd (hused.symm.trans (h _)) (by decide)
    · have hk := hused.symm.trans (h ⟨0, { year := 2025, month := 6, day := 15 }, .daily⟩)
      have hzero : ∀ k, tokensOf freshWorld.committed.usage k = 0 := fun _ => rfl
      have htotal : total ≤ 15 := hle
      rw [hzero] at hk
      split_ifs at hk <;> omega
  · exact absurd (hused.symm.trans_le (h _)) (by decide)

end LlmStore.Jobs
