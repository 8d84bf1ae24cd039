import LlmStore.Inference.Steady
import LlmStore.Lib.LazyRows

/-!
# Chat requests that make the same rows

A request of `chat_completions` selects counters, usage records and a cached response, and inserts the row where it
finds none: the counters of the day and of the month in `ensure_quota`, the cached response in `store_exact_cache`, and
counters and usage records in `record_usage`. All of it is one transaction, open while the backend answers, on tables
with unique keys (`uq_quota_counter_period`, `uq_usage_record_period`, `uq_response_cache_lookup`). A counter and a
usage record are flushed where they are made, a cached response at the next select.

A row that a session has changed and flushed stays locked until its commit. The lock makes a later writer of the row
wait, so it only excludes some of the interleavings here. In particular requests with the same API key come one after
another, since `require_client` flushes the `last_used_at` of the key.

No request fails with a uniqueness violation if none commits a row that another has looked for in vain and is about to
insert, and only then if each is answered (`no_collision_iff`). Alone, a request makes the rows that `ensureQuota`,
`storeExactCache` and `recordUsage` make (`solo_rows`).
-/

namespace LlmStore.Inference.RowCollisions

open LlmStore.Calendar LlmStore.Lib LlmStore.Usage Program

/-- The rows that are made when they are first needed, by their unique keys. -/
inductive RowKey where
  | counter (k : PeriodKey)
  | usageRecord (k : PeriodKey)
  | cached (k : CacheKey)
  deriving DecidableEq

/-- The rows of a database. -/
def Present (db : Database) : RowKey → Prop
  | .counter k => (db.usage.quotaCounters.lookup k).isSome
  | .usageRecord k => (db.usage.usageRecords.lookup k).isSome
  | .cached k => (db.responseCache.lookup k).isSome

instance (db : Database) : DecidablePred (Present db)
  | .counter k => inferInstanceAs (Decidable ((db.usage.quotaCounters.lookup k).isSome = true))
  | .usageRecord k => inferInstanceAs (Decidable ((db.usage.usageRecords.lookup k).isSome = true))
  | .cached k => inferInstanceAs (Decidable ((db.responseCache.lookup k).isSome = true))

/-- The selects of `ensure_quota`. -/
def quotaRows (clientId : ClientId) (today : Date) : List RowKey :=
  [.counter (periodKey clientId today .daily), .counter (periodKey clientId today .monthly)]

/-- The selects of `record_usage`. -/
def usageRows (clientId : ClientId) (today : Date) : List RowKey :=
  [.counter (periodKey clientId today .daily), .usageRecord (periodKey clientId today .daily),
    .counter (periodKey clientId today .monthly), .usageRecord (periodKey clientId today .monthly)]

/-- The select of `store_exact_cache`. -/
def cacheRows (settings : Settings) (key : CacheKey) : List RowKey :=
  if settings.responseCacheEnabled then [.cached key] else []

/-- The key under which `chat_completions` caches an answer. -/
def chatKey (r : ChatRequest) : CacheKey := ⟨"/v1/chat/completions", r.model, r.cacheKey⟩

/-- The selects after the answer, which comes from the cache (`hit`) or from a backend. -/
def answerRows (settings : Settings) (r : ChatRequest) (hit : Bool) (today : Date) : List RowKey :=
  (if r.stream || hit then [] else cacheRows settings (chatKey r)) ++ usageRows r.clientId today

/-! ## What the helpers make -/

section Helpers

variable (db : Database) (clientId : ClientId) (today : Date)

theorem present_insertCounter (usage : UsageTables) (k : PeriodKey) (counter : QuotaCounter) (row : RowKey) :
    Present { db with usage := { usage with quotaCounters := usage.quotaCounters.insert k counter } } row ↔
      Present { db with usage } row ∨ row = .counter k := by
  cases row with
  | counter k' =>
    by_cases hk : k' = k
    · subst hk
      simp [Present]
    · simp [Present, AList.lookup_insert_ne hk, hk]
  | usageRecord | cached => simp [Present]

theorem present_insertRecord (usage : UsageTables) (k : PeriodKey) (record : UsageRecord) (row : RowKey) :
    Present { db with usage := { usage with usageRecords := usage.usageRecords.insert k record } } row ↔
      Present { db with usage } row ∨ row = .usageRecord k := by
  cases row with
  | usageRecord k' =>
    by_cases hk : k' = k
    · subst hk
      simp [Present]
    · simp [Present, AList.lookup_insert_ne hk, hk]
  | counter | cached => simp [Present]

theorem present_getOrCreateCounter (usage : UsageTables) (k : PeriodKey) (row : RowKey) :
    Present { db with usage := (getOrCreateCounter usage k).2 } row ↔
      Present { db with usage } row ∨ row = .counter k := by
  unfold getOrCreateCounter
  cases hk : usage.quotaCounters.lookup k with
  | some counter =>
    refine ⟨.inl, ?_⟩
    rintro (h | rfl)
    · exact h
    · simp [Present, hk]
  | none => exact present_insertCounter db usage k {} row

theorem present_getOrCreateUsageRecord (usage : UsageTables) (k : PeriodKey) (row : RowKey) :
    Present { db with usage := (getOrCreateUsageRecord usage k).2 } row ↔
      Present { db with usage } row ∨ row = .usageRecord k := by
  unfold getOrCreateUsageRecord
  cases hk : usage.usageRecords.lookup k with
  | some record =>
    refine ⟨.inl, ?_⟩
    rintro (h | rfl)
    · exact h
    · simp [Present, hk]
  | none => exact present_insertRecord db usage k {} row

/-- `ensure_quota` makes the counters of the day and of the month, also for a request that it refuses. -/
theorem present_ensureQuota (dl ml n : ℤ) (row : RowKey) :
    Present { db with usage := (Usage.ensureQuota db.usage clientId today dl ml n).2 } row ↔
      Present db row ∨ row ∈ quotaRows clientId today := by
  have husage : (Usage.ensureQuota db.usage clientId today dl ml n).2 =
      (getOrCreateCounter (getOrCreateCounter db.usage (periodKey clientId today .daily)).2
        (periodKey clientId today .monthly)).2 := by
    simp only [Usage.ensureQuota]
    split_ifs <;> rfl
  rw [husage, present_getOrCreateCounter, present_getOrCreateCounter]
  simp only [quotaRows, List.mem_cons, List.not_mem_nil, or_false, or_assoc]

theorem present_recordPeriod (usage : UsageTables) (k : PeriodKey) (p c : ℤ) (row : RowKey) :
    Present { db with usage := recordPeriod usage k p c } row ↔
      Present { db with usage } row ∨ row = .counter k ∨ row = .usageRecord k := by
  simp only [recordPeriod, present_insertRecord, present_getOrCreateUsageRecord, present_insertCounter,
    present_getOrCreateCounter, or_assoc]
  tauto

end Helpers

/-! ## What a request makes -/

theorem triple_any {α : Type} (x : Prog α) : Triple (fun _ => True) x (fun _ _ => True) fun _ _ => True := by
  intro w _
  rcases hx : x.exec w with ⟨_ | a, w'⟩ <;> trivial

/-- The session sees no row outside `R`. -/
def Within (R : RowKey → Prop) (w : World) : Prop := ∀ row, Present w.current row → R row

section Handler

variable {R : RowKey → Prop}

theorem steady_within (R : RowKey → Prop) : Steady (fun _ : Unit => Within R) fun _ => True := by
  refine steady_of_sameBooks (fun {w w'} hs hw row hrow => hw row ?_) trivial
  cases row with
  | counter | usageRecord =>
    simp only [Present, hs.usage] at hrow ⊢
    exact hrow
  | cached k =>
    obtain ⟨row', hrow'⟩ := Option.isSome_iff_exists.mp hrow
    obtain ⟨row, hrow, -⟩ := hs.cache k row' hrow'
    exact Option.isSome_iff_exists.mpr ⟨row, hrow⟩

/-- What a backend answers does not matter to the rows. -/
theorem backends_within (R : RowKey → Prop) :
    Backends (fun _ : Unit => Within R) (fun _ => True) fun _ => True where
  toSteady := steady_within R
  payload := fun _ _ _ _ _ _ _ _ => trivial
  stream := trivial
  other := trivial
  http := fun _ _ => trivial
  routesFailed := fun _ _ _ => trivial

/-- A call that makes no row. -/
theorem triple_within {α : Type} {P : α → Prop} {x : Prog α}
    (hx : KeepsAll (fun _ : Unit => Within R) P (fun _ => True) x) :
    Triple (Within R) x (fun _ => Within R) fun _ _ => True :=
  (hx ()).conseq (fun _ h => h) (fun _ _ h => h.1) fun _ _ _ => trivial

theorem triple_await : Triple (Within R) await (fun _ => Within R) fun _ _ => True :=
  triple_within (steady_within R).await

theorem triple_utcNow : Triple (Within R) utcNow (fun _ => Within R) fun _ _ => True :=
  triple_within (steady_within R).utcNow

theorem triple_changeUsage {f : UsageTables → UsageTables} {keys : List RowKey}
    (hf : ∀ db row, Present { db with usage := f db.usage } row → Present db row ∨ row ∈ keys) :
    Triple (Within R) (changeUsage f) (fun _ => Within fun row => R row ∨ row ∈ keys) fun _ _ => True :=
  triple_modify fun w hw row hrow => (hf w.current row hrow).imp_left (hw row)

theorem triple_ensureQuota (clientId : ClientId) (dl ml n : ℤ) :
    Triple (Within R) (ensureQuota clientId dl ml n)
      (fun _ w => ∃ today, Within (fun row => R row ∨ row ∈ quotaRows clientId today) w) fun _ _ => True := by
  refine triple_bind triple_utcNow fun now => triple_bind triple_await fun _ => ?_
  refine triple_bind (Q := fun _ => Within fun row => R row ∨ row ∈ quotaRows clientId now.date)
    (triple_modifyGet fun w hw row hrow => ?_) fun verdict => ?_
  · exact ((present_ensureQuota w.current clientId now.date dl ml n row).mp hrow).imp_left (hw row)
  · cases verdict with
    | ok => exact triple_pure fun w hw => ⟨now.date, hw⟩
    | error => exact triple_raise fun _ _ => trivial

theorem triple_recordUsage (clientId : ClientId) (p c : ℤ) :
    Triple (Within R) (recordUsage clientId p c)
      (fun _ w => ∃ today, Within (fun row => R row ∨ row ∈ usageRows clientId today) w) fun _ _ => True := by
  refine triple_bind triple_utcNow fun now => triple_bind triple_await fun _ => ?_
  have hperiod : ∀ (R : RowKey → Prop) k, Triple (Within R) (changeUsage fun usage => recordPeriod usage k p c)
      (fun _ => Within fun row => R row ∨ row ∈ [RowKey.counter k, .usageRecord k]) fun _ _ => True := by
    intro R k
    refine triple_changeUsage fun db row hrow => ?_
    simpa using (present_recordPeriod db db.usage k p c row).mp hrow
  refine triple_bind (hperiod R _) fun _ => triple_bind triple_await fun _ => (hperiod _ _).conseq (fun _ h => h)
    (fun _ w hw => ⟨now.date, fun row hrow => ?_⟩) fun _ _ _ => trivial
  simpa only [usageRows, List.mem_cons, List.not_mem_nil, or_false, or_assoc] using hw row hrow

theorem triple_storeExactCache (settings : Settings) (key : CacheKey) (fingerprint json : String) (p q : ℤ) :
    Triple (Within R) (storeExactCache settings key fingerprint json p q)
      (fun _ => Within fun row => R row ∨ row ∈ cacheRows settings key) fun _ _ => True := by
  unfold storeExactCache cacheRows
  split
  · refine triple_bind triple_utcNow fun now => triple_bind triple_await fun _ => triple_modify fun w hw row hrow => ?_
    by_cases hkey : row = .cached key
    · exact .inr (List.mem_singleton.mpr hkey)
    · refine .inl (hw row ?_)
      cases row with
      | counter | usageRecord => exact hrow
      | cached key' =>
        have hne : key' ≠ key := fun h => hkey (congrArg RowKey.cached h)
        simpa [Present, World.setCurrent, AList.lookup_insert_ne hne] using hrow
  · exact triple_pure fun _ hw row hrow => .inl (hw row hrow)

theorem triple_bookAnswer (tag : RequestTag) (result : ForwardResult) (n : ℤ) (isStream cacheHit : Bool) :
    Triple (Within R) (bookAnswer tag result n isStream cacheHit)
      (fun _ w => ∃ today, Within (fun row => R row ∨ row ∈ usageRows tag.clientId today) w) fun _ _ => True := by
  refine triple_bind (triple_recordUsage tag.clientId tag.promptTokens n) fun _ w ⟨today, hw⟩ => ?_
  refine triple_bind (triple_await (R := fun row => R row ∨ row ∈ usageRows tag.clientId today)) (fun _ => ?_) w hw
  exact triple_modify fun _ hw => ⟨today, hw⟩

/-- No row outside `R` is committed. -/
def Committed (R : RowKey → Prop) (w : World) : Prop := ∀ row, Present w.committed row → R row

theorem triple_commit : Triple (Within R) commit (fun _ => Committed R) fun _ _ => True := by
  refine triple_bind (Q := fun _ => Within R) (triple_modifyGet fun w hw => hw) fun fault => ?_
  cases fault with
  | false => exact triple_modify fun _ hw => hw
  | true =>
    refine triple_bind (Q := fun _ _ => True) (triple_modifyGet fun _ _ => trivial) fun committed => ?_
    cases committed with
    | true => exact triple_bind (triple_modify (Q := fun _ _ => True) fun _ _ => trivial) fun _ =>
        triple_raise fun _ _ => trivial
    | false => exact triple_raise fun _ _ => trivial

/-- The rows of a request that has made counters of `first` and was answered on `today`. -/
def Made (settings : Settings) (r : ChatRequest) (R : RowKey → Prop) (w : World) : Prop :=
  ∃ hit today, Committed (fun row => R row ∨ row ∈ answerRows settings r hit today) w

theorem triple_answerChat (settings : Settings) (r : ChatRequest) (monthlyUsedBefore : ℤ) :
    Triple (Within R) (answerChat settings r (r.tag "/v1/chat/completions" monthlyUsedBefore))
      (fun _ => Made settings r R) fun _ _ => True := by
  have hend : ∀ {R' : RowKey → Prop} hit today (answer : ℕ × String),
      (∀ row, R' row → R row ∨ row ∈ answerRows settings r hit today) →
      Triple (Within R') (do commit; pure answer) (fun _ => Made settings r R) fun _ _ => True :=
    fun {R'} hit today answer hR' => triple_bind triple_commit fun _ =>
      triple_pure fun w hw => ⟨hit, today, fun row hrow => hR' row (hw row hrow)⟩
  refine triple_bind (triple_within (P := fun _ => True) (.ite (keepsAll_pure trivial)
    (((steady_within R).lookupExactCache (R := fun _ => True) settings _ fun _ _ _ _ _ => trivial).mono
      (fun _ _ => trivial) fun _ _ => trivial))) fun cached => ?_
  cases cached with
  | some cached =>
    refine triple_bind (triple_bookAnswer _ cached.result _ _ _) fun _ w ⟨today, hw⟩ => ?_
    refine hend true today _ (fun row hrow => ?_) w hw
    rw [answerRows, Bool.or_true, if_pos rfl]
    exact hrow
  | none =>
    have hchat := (backends_within R).chatWithFallback settings r.routes r.stream
    refine triple_bind (triple_within hchat) fun result => ?_
    dsimp only
    by_cases hstream : r.stream = true
    · rw [if_pos hstream]
      refine triple_bind (triple_bookAnswer _ result _ _ _) fun _ w ⟨today, hw⟩ => ?_
      refine hend false today _ (fun row hrow => ?_) w hw
      rw [answerRows, hstream, Bool.true_or, if_pos rfl]
      exact hrow
    · rw [if_neg hstream]
      refine triple_bind (triple_storeExactCache settings _ _ _ _ _) fun _ => ?_
      refine triple_bind (triple_bookAnswer _ result _ _ _) fun _ w ⟨today, hw⟩ => ?_
      refine hend false today _ (fun row hrow => ?_) w hw
      rw [answerRows, Bool.or_false, if_neg hstream, List.mem_append, ← or_assoc]
      exact hrow

/-- **A request that is answered has made no rows but those of its selects.** -/
theorem chat_rows (settings : Settings) (r : ChatRequest) (R : RowKey → Prop) :
    Triple (Committed R) (chatCompletions settings (.ok r))
      (fun _ w => ∃ first, Made settings r (fun row => R row ∨ row ∈ quotaRows r.clientId first) w)
      fun _ _ => True := by
  refine triple_bind (Q := fun _ => Within R) (triple_modify fun _ hw => hw) fun _ => ?_
  refine triple_bind triple_await fun _ => ?_
  have hchecks : Triple (Within R) (tooManyRequests do
        enforceIpRateLimit r.sourceIp 60
        enforceRateLimit r.rateLimitPerMinute
        ensureQuota r.clientId r.dailyTokenQuota r.monthlyTokenQuota (r.promptTokens + r.maxTokens))
      (fun _ w => ∃ first, Within (fun row => R row ∨ row ∈ quotaRows r.clientId first) w) fun _ _ => True := by
    refine triple_tryExcept (E := fun _ _ => True) ?_ fun exc => ?_
    · refine triple_bind (triple_within ((steady_within R).enforceIpRateLimit (fun _ => trivial) _ _)) fun _ => ?_
      refine triple_bind (triple_within ((steady_within R).enforceRateLimit (fun _ => trivial) _)) fun _ => ?_
      exact triple_ensureQuota _ _ _ _
    · cases exc <;> exact triple_raise fun _ _ => trivial
  refine triple_bind hchecks fun _ w ⟨first, hw⟩ => ?_
  have hsteady := steady_within fun row => R row ∨ row ∈ quotaRows r.clientId first
  refine triple_bind (triple_within (hsteady.currentUsage r.clientId)) (fun used => ?_) w hw
  refine triple_bind (triple_within (hsteady.maybeRecordRepeatedLargePrompt _ _)) fun _ => ?_
  refine triple_bind (triple_within (hsteady.maybeRecordPlanUsageAnomaly _ _ _ _ _ _)) fun _ => ?_
  refine triple_tryExcept (E := fun _ _ => True) ((triple_answerChat settings r used.2).conseq (fun _ h => h)
    (fun _ _ h => ⟨first, h⟩) fun _ _ h => h) fun exc => ?_
  -- the handler raises the exception again
  dsimp only
  split
  · exact triple_raise fun _ _ => trivial
  · refine triple_bind (triple_any _) fun _ => triple_bind (triple_any _) fun _ => ?_
    exact triple_bind (triple_any commit) fun _ => triple_raise fun _ _ => trivial

end Handler

/-! ## Requests at the same time -/

inductive Phase where
  /-- Before `ensure_quota`, or refused by a limit of Redis. -/
  | arrived
  | admitted
  | answered
  | ended
  deriving DecidableEq

structure State (τ : Type*) where
  rows : LazyRows.State τ RowKey
  phase : τ → Phase

inductive Action (τ : Type*) where
  /-- `ensure_quota` begins. -/
  | ensureQuota (t : τ) (today : Date)
  /-- It has raised `QuotaExceeded`, and the session is closed. -/
  | refuse (t : τ)
  /-- The request has its answer: from the cache (`hit`) or from a backend. -/
  | answer (t : τ) (hit : Bool) (today : Date)
  | select (t : τ)
  /-- `session.flush()` after a select without a row, or the autoflush of the next select. -/
  | insert (t : τ)
  | commit (t : τ)

section Chat

variable {τ : Type*} [DecidableEq τ] (settings : Settings) (requests : τ → ChatRequest)

/-- What the request of the action does to the rows. -/
def Action.onRows : Action τ → LazyRows.Action τ RowKey
  | .ensureQuota t today => .need t (quotaRows (requests t).clientId today)
  | .refuse t => .abort t
  | .answer t hit today => .need t (answerRows settings (requests t) hit today)
  | .select t => .look t
  | .insert t => .insert t
  | .commit t => .commit t

/-- The request has come to where it does this. `lookup_exact_cache` finds only rows that its session sees. -/
def Action.Due (s : State τ) : Action τ → Prop
  | .ensureQuota t _ => s.phase t = .arrived
  | .refuse t => s.phase t = .admitted
  | .answer t hit _ => s.phase t = .admitted ∧ (hit = true →
      (requests t).stream = false ∧ settings.responseCacheEnabled = true ∧
        s.rows.sees t (.cached (chatKey (requests t))))
  | .select t | .insert t => s.phase t = .admitted ∨ s.phase t = .answered
  | .commit t => s.phase t = .answered

instance (s : State τ) : DecidablePred (Action.Due settings requests s)
  | .ensureQuota t _ => inferInstanceAs (Decidable (s.phase t = .arrived))
  | .refuse t => inferInstanceAs (Decidable (s.phase t = .admitted))
  | .answer t hit _ => inferInstanceAs (Decidable (s.phase t = .admitted ∧ (hit = true →
      (requests t).stream = false ∧ settings.responseCacheEnabled = true ∧
        s.rows.sees t (.cached (chatKey (requests t))))))
  | .select t | .insert t => inferInstanceAs (Decidable (s.phase t = .admitted ∨ s.phase t = .answered))
  | .commit t => inferInstanceAs (Decidable (s.phase t = .answered))

def Action.nextPhase (phase : τ → Phase) : Action τ → τ → Phase
  | .ensureQuota t _ => Function.update phase t .admitted
  | .answer t _ _ => Function.update phase t .answered
  | .refuse t | .commit t => Function.update phase t .ended
  | .select _ | .insert _ => phase

def chatStep (s : State τ) (a : Action τ) : Option (State τ) :=
  if a.Due settings requests s then
    (LazyRows.step s.rows (a.onRows settings requests)).map fun rows => ⟨rows, a.nextPhase s.phase⟩
  else none

/-- The requests arrive at a database. -/
def start (db : Database) : State τ :=
  ⟨LazyRows.init fun row => if Present db row then .committed else .absent, fun _ => .arrived⟩

/-- No request has failed with a uniqueness violation. -/
def NoCollision (s : State τ) : Prop := ∀ t, (s.rows.session t).outcome ≠ .violated

/-- A request that commits has made no row that another one has looked for in vain and is about to insert. -/
def InTurn (s : State τ) : Action τ → Prop
  | .commit t => ∀ t', t' ≠ t → ∀ row ∈ (s.rows.session t').missed, s.rows.table row ≠ .pending t
  | _ => True

variable {settings requests}

/-- The requests take the steps of transactions that make rows when they first need them. -/
theorem onRows_step (s : State τ) (a : Action τ) (s' : State τ) (h : chatStep settings requests s a = some s') :
    LazyRows.step s.rows (a.onRows settings requests) = some s'.rows := by
  unfold chatStep at h
  split at h
  · obtain ⟨rows, hrows, rfl⟩ := Option.map_eq_some_iff.mp h
    exact hrows
  · cases h

omit [DecidableEq τ] in
theorem clear_onRows (s : State τ) (a : Action τ) :
    LazyRows.Clear s.rows (a.onRows settings requests) ↔ InTurn s a := by
  cases a <;> exact Iff.rfl

/-- **Requests do not collide** in a run whose commits are in turn; and if no request is about to insert a row at its
end, only in such a run. -/
theorem no_collision_iff {db : Database} {actions : List (Action τ)} {s : State τ}
    (h : run (chatStep settings requests) (start db) actions = some s) :
    (Along (chatStep settings requests) InTurn (start db) actions → NoCollision s) ∧
      ((∀ t, (s.rows.session t).missed = none) → NoCollision s →
        Along (chatStep settings requests) InTurn (start db) actions) := by
  have hrows := run_map onRows_step h
  have hclear : Along LazyRows.step LazyRows.Clear (start db).rows (actions.map (Action.onRows settings requests)) ↔
      Along (chatStep settings requests) InTurn (start db) actions := by
    rw [along_map onRows_step h]
    simp only [clear_onRows]
  rw [← hclear]
  exact ⟨LazyRows.kept_of_clear hrows, LazyRows.clear_of_kept hrows⟩

/-! ## One request alone -/

theorem chatStep_eq {s : State τ} {a : Action τ} {rows : LazyRows.State τ RowKey} (hdue : a.Due settings requests s)
    (hrows : LazyRows.step s.rows (a.onRows settings requests) = some rows) :
    chatStep settings requests s a = some ⟨rows, a.nextPhase s.phase⟩ := by
  rw [chatStep, if_pos hdue, hrows]
  rfl

/-- The selects of one helper. -/
theorem run_selects {t : τ} {s : State τ} {keys : List RowKey}
    (hphase : s.phase t = .admitted ∨ s.phase t = .answered) (hs : s.rows.session t = ⟨keys, none, .running⟩)
    (halone : LazyRows.Alone s.rows.table t) :
    ∃ actions, run (chatStep settings requests) s actions =
      some ⟨{ s.rows with table := LazyRows.makeRows s.rows.table t keys }.put t ⟨[], none, .running⟩, s.phase⟩ := by
  obtain ⟨actions, hactions, h⟩ := LazyRows.run_solo keys hs halone
  generalize LazyRows.State.put _ t _ = rows at h ⊢
  clear hs halone
  induction actions generalizing s with
  | nil =>
    cases h
    exact ⟨[], rfl⟩
  | cons a actions ih =>
    obtain ⟨rows', hrows', h⟩ := run_cons_iff.mp h
    obtain ⟨ha, hactions⟩ := List.forall_mem_cons.mp hactions
    obtain ⟨b, hstep⟩ : ∃ b : Action τ, chatStep settings requests s b = some ⟨rows', s.phase⟩ := by
      rcases ha with rfl | rfl
      · exact ⟨.select t, chatStep_eq hphase hrows'⟩
      · exact ⟨.insert t, chatStep_eq hphase hrows'⟩
    obtain ⟨actions', hrun⟩ := ih (s := ⟨rows', s.phase⟩) hphase hactions h
    exact ⟨b :: actions', run_cons_iff.mpr ⟨_, hstep, hrun⟩⟩

/-- Alone, a request that a backend answers makes the rows of its selects. -/
theorem solo_rows (db : Database) (t : τ) (first today : Date) :
    ∃ actions s, run (chatStep settings requests) (start db) actions = some s ∧
      (s.rows.session t).outcome = .committed ∧
      ∀ row, s.rows.table row = .committed ↔ Present db row ∨ row ∈ quotaRows (requests t).clientId first ∨
        row ∈ answerRows settings (requests t) false today := by
  let quota := quotaRows (requests t).clientId first
  let answer := answerRows settings (requests t) false today
  let table : RowKey → LazyRows.Entry τ := fun row => if Present db row then .committed else .absent
  have halone : LazyRows.Alone table t := by
    intro k t' hk
    simp only [table] at hk
    split_ifs at hk
  -- the state after each helper, and after its selects
  let s₁ : State τ :=
    ⟨(LazyRows.init table).put t ⟨quota, none, .running⟩, Function.update (fun _ => .arrived) t .admitted⟩
  let s₂ : State τ := ⟨{ s₁.rows with table := LazyRows.makeRows table t quota }.put t ⟨[], none, .running⟩, s₁.phase⟩
  let s₃ : State τ := ⟨s₂.rows.put t ⟨answer, none, .running⟩, Function.update s₂.phase t .answered⟩
  let s₄ : State τ :=
    ⟨{ s₃.rows with table := LazyRows.makeRows s₂.rows.table t answer }.put t ⟨[], none, .running⟩, s₃.phase⟩
  let s₅ : State τ :=
    ⟨(s₄.rows.settle t .committed).put t ⟨[], none, .committed⟩, Function.update s₄.phase t .ended⟩
  have h₁ : chatStep settings requests (start db) (.ensureQuota t first) = some s₁ := chatStep_eq rfl rfl
  obtain ⟨selects, h₂⟩ : ∃ actions, run (chatStep settings requests) s₁ actions = some s₂ :=
    run_selects (.inl (by simp [s₁])) (by simp [s₁]) halone
  have h₃ : chatStep settings requests s₂ (.answer t false today) = some s₃ := by
    refine chatStep_eq ⟨by simp [s₂, s₁], nofun⟩ ?_
    simp [Action.onRows, LazyRows.step, s₂, answer]
  obtain ⟨selects', h₄⟩ : ∃ actions, run (chatStep settings requests) s₃ actions = some s₄ :=
    run_selects (.inr (by simp [s₃])) (by simp [s₃]) (halone.makeRows quota)
  have h₅ : chatStep settings requests s₄ (.commit t) = some s₅ := by
    refine chatStep_eq (by simp [Action.Due, s₄, s₃]) ?_
    simp [Action.onRows, LazyRows.step, s₄]
  refine ⟨.ensureQuota t first :: (selects ++ .answer t false today :: (selects' ++ [.commit t])), s₅, ?_, ?_,
    fun row => ?_⟩
  · exact run_cons_iff.mpr ⟨s₁, h₁, run_append_iff.mpr ⟨s₂, h₂, run_cons_iff.mpr ⟨s₃, h₃,
      run_append_iff.mpr ⟨s₄, h₄, run_cons_iff.mpr ⟨_, h₅, rfl⟩⟩⟩⟩⟩
  · simp [s₅]
  · have htable : s₅.rows.table row = if s₄.rows.table row = .pending t then .committed else s₄.rows.table row := rfl
    rw [htable]
    by_cases hrow : Present db row <;> by_cases hq : row ∈ quota <;> by_cases ha : row ∈ answer <;>
      simp [s₄, s₂, LazyRows.makeRows, table, hrow, hq, ha, quota, answer]

end Chat

/-! ## One question of two clients -/

/-- Clients 0 and 1 send the same body. -/
def question (second : Bool) : ChatRequest :=
  { clientId := if second then 1 else 0, sourceIp := "", model := "m", routes := [], stream := false, promptTokens := 1
    maxTokens := 1, rateLimitPerMinute := 60, dailyTokenQuota := 100, monthlyTokenQuota := 100
    overagePricePer1kTokens := 0, cacheKey := "k", cacheFingerprint := "" }

abbrev questionStep : State Bool → Action Bool → Option (State Bool) := chatStep ⟨true, 60, 1⟩ question

/-- Nobody has used anything yet. -/
def nothingYet : State Bool := start ⟨⟨∅, ∅⟩, [], ∅, [], ∅⟩

def septemberDay : Date := ⟨2026, 9, 17, by decide, by decide, by decide, by decide⟩

/-- A request makes its two counters. -/
def admitted (t : Bool) : List (Action Bool) :=
  [.ensureQuota t septemberDay, .select t, .insert t, .select t, .insert t]

/-- A request sees its two counters, makes its usage records, and commits. -/
def booked (t : Bool) : List (Action Bool) := [.select t, .select t, .insert t, .select t, .select t, .insert t, .commit t]

/-- A backend answers the first client, and the cache the second one. -/
def oneAfterTheOther : List (Action Bool) :=
  admitted false ++ .answer false false septemberDay :: .select false :: .insert false :: booked false ++
    (admitted true ++ .answer true true septemberDay :: booked true)

theorem in_turn_one_after_the_other :
    ∃ s, run questionStep nothingYet oneAfterTheOther = some s ∧ NoCollision s ∧
      Along questionStep InTurn nothingYet oneAfterTheOther := by
  have hsessions : ((run questionStep nothingYet oneAfterTheOther).map fun s t =>
      ((s.rows.session t).missed, (s.rows.session t).outcome)) = some fun _ => (none, .committed) := by decide +kernel
  obtain ⟨s, hs, hend⟩ := Option.map_eq_some_iff.mp hsessions
  have hidle : ∀ t, (s.rows.session t).missed = none := fun t => congrArg Prod.fst (congrFun hend t)
  have hkept : NoCollision s := by
    intro t
    have hcommitted : (s.rows.session t).outcome = .committed := congrArg Prod.snd (congrFun hend t)
    rw [hcommitted]
    exact nofun
  exact ⟨s, hs, hkept, (no_collision_iff hs).2 hidle hkept⟩

/-- **Requests collide**: backends answer both clients, and both look for the cached answer before one of them has
stored it. -/
theorem requests_collide : ¬ ∀ actions s, run questionStep nothingYet actions = some s → NoCollision s := by
  intro h
  let actions : List (Action Bool) :=
    admitted false ++ admitted true ++ .answer false false septemberDay :: .answer true false septemberDay ::
      .select false :: .select true :: .insert false :: booked false ++ [.insert true]
  have hviolated : ((run questionStep nothingYet actions).map fun s => (s.rows.session true).outcome) =
      some .violated := by decide +kernel
  obtain ⟨s, hs, hend⟩ := Option.map_eq_some_iff.mp hviolated
  exact h actions s hs true hend

end LlmStore.Inference.RowCollisions
