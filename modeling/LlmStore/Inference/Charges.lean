import LlmStore.Inference.Steady

/-!
# What a request is charged

`ensure_quota` admits a request for its prompt and for the tokens that it may get, `record_usage` charges it for the
prompt and for an estimate of what it has got. If the estimate of each answer, new or cached, keeps to the tokens asked
for, a request books at most what it was admitted for, at most once, and on counters that have room for it: its
transaction ends in a database that is `Fine`.
-/

namespace LlmStore.Inference

open LlmStore.Calendar LlmStore.Lib LlmStore.Usage Program

/-- The tokens on a counter. -/
def tokensOf (usage : UsageTables) (k : PeriodKey) : ℤ := (usage.counter k).usedTokens

/-- The key is that of the client's counter for the day or for its month. -/
def Counts (c : ClientId) (d : Date) (k : PeriodKey) : Prop :=
  k = periodKey c d .daily ∨ k = periodKey c d .monthly

instance (c : ClientId) (d : Date) (k : PeriodKey) : Decidable (Counts c d k) := by unfold Counts; infer_instance

/-- What a request is admitted for. -/
structure Reservation where
  clientId : ClientId
  promptTokens : ℤ
  maxTokens : ℤ

def Reservation.incomingTokens (v : Reservation) : ℤ := v.promptTokens + v.maxTokens

def ChatRequest.reservation (r : ChatRequest) : Reservation := ⟨r.clientId, r.promptTokens, r.maxTokens⟩

/-- The estimate for a text of so many words keeps to the tokens asked for. -/
def ShortAnswer (maxTokens : ℤ) (body : String) : Prop :=
  13 * ((Text.split body.toList).length : ℤ) < 10 * (maxTokens + 1)

instance (maxTokens : ℤ) (body : String) : Decidable (ShortAnswer maxTokens body) := by
  unfold ShortAnswer; infer_instance

theorem estimate_of_short {maxTokens : ℤ} (hm : 1 ≤ maxTokens) {body : String} (h : ShortAnswer maxTokens body) :
    0 ≤ estimateTokensFromText body ∧ estimateTokensFromText body ≤ maxTokens := by
  unfold estimateTokensFromText ShortAnswer at *
  split
  · omega
  · omega

/-- The completion tokens of the cached answers keep to what their key allows: the key is a hash of the request, of
which `max_tokens` is a part. -/
def CacheFits (capacity : String → ℤ) (cache : Table CacheKey ResponseCache) : Prop :=
  ∀ key row, cache.lookup key = some row →
    0 ≤ row.completionTokensEstimated ∧ row.completionTokensEstimated ≤ capacity key.requestHash

/-- What is given for one request: the quotas of the clients, what the cache keys allow, the days on which the request
is worked on, what it is admitted for, whether its answer is streamed, and the database before it. -/
structure Terms where
  limits : ClientId → PeriodType → ℤ
  capacity : String → ℤ
  days : Date → Prop
  reservation : Reservation
  streams : Bool
  base : Database

namespace Terms

variable (T : Terms)

def clientId : ClientId := T.reservation.clientId

def incomingTokens : ℤ := T.reservation.incomingTokens

/-- The counters of the client have room for the request on the day. -/
def Room (d : Date) : Prop :=
  ∀ p, tokensOf T.base.usage (periodKey T.clientId d p) + T.incomingTokens ≤ T.limits T.clientId p

/-- No token is booked. -/
def Unused (usage : UsageTables) : Prop := ∀ k, tokensOf usage k = tokensOf T.base.usage k

/-- One booking of at most what the request was admitted for. -/
def Booked (usage : UsageTables) : Prop :=
  ∃ d, T.days d ∧ T.Room d ∧ ∃ total, 0 ≤ total ∧ total ≤ T.incomingTokens ∧
    ∀ k, tokensOf usage k = tokensOf T.base.usage k + if Counts T.clientId d k then total else 0

/-- What the request may leave behind: the counters as they were, or one booking. -/
structure Fine (db : Database) : Prop where
  charged : T.Unused db.usage ∨ T.Booked db.usage
  cache : CacheFits T.capacity db.responseCache

/-- The clock does not go back and shows only the days of the request, and the answers to come are short. A streamed
answer may be of any length: it is charged as the tokens asked for. -/
structure Going (env : Environment) : Prop where
  clock : ∀ i j, i ≤ j → (env.clock i).date ≤ (env.clock j).date
  today : ∀ i, T.days (env.clock i).date
  answers : T.streams = false → ∀ i statusCode body shown, env.answers i = .response statusCode (some body) shown →
    isSuccess statusCode = true → ShortAnswer T.reservation.maxTokens body

/-- Nothing is booked in the session. -/
structure Open (w : World) : Prop extends T.Going w.env where
  committed : T.Fine w.committed
  unused : T.Unused w.current.usage
  cache : CacheFits T.capacity w.current.responseCache

/-- The counters have room for the request, today and on each day to come. -/
structure Admitted (w : World) : Prop extends T.Open w where
  room : ∀ i, T.Room (w.env.clock i).date

/-- The session may be committed. -/
structure Closed (w : World) : Prop where
  committed : T.Fine w.committed
  current : T.Fine w.current

variable {T}

/-! ## The invariants are steady -/

theorem cacheFits_same {capacity : String → ℤ} {w w' : World} (hs : SameBooks w w')
    (h : CacheFits capacity w.current.responseCache) : CacheFits capacity w'.current.responseCache := by
  intro key row' hrow'
  obtain ⟨row, hrow, he⟩ := hs.cache key row' hrow'
  rw [he]
  exact h key row hrow

theorem Going.same {w w' : World} (hs : SameBooks w w') (h : T.Going w.env) : T.Going w'.env := by
  obtain ⟨k, hclock⟩ := hs.clock
  obtain ⟨k', hanswers⟩ := hs.answers
  refine ⟨fun i j hij => ?_, fun i => ?_, fun hn i statusCode body shown ha => ?_⟩
  · rw [hclock, hclock]
    exact h.clock _ _ (by omega)
  · rw [hclock]
    exact h.today _
  · exact h.answers hn _ statusCode body shown ((hanswers i).symm.trans ha)

theorem Open.same {w w' : World} (hs : SameBooks w w') (h : T.Open w) : T.Open w' where
  toGoing := h.toGoing.same hs
  committed := hs.committed ▸ h.committed
  unused := hs.usage ▸ h.unused
  cache := cacheFits_same hs h.cache

theorem Admitted.same {w w' : World} (hs : SameBooks w w') (h : T.Admitted w) : T.Admitted w' where
  toOpen := h.toOpen.same hs
  room := by
    obtain ⟨k, hclock⟩ := hs.clock
    intro i
    rw [hclock]
    exact h.room _

theorem Closed.same {w w' : World} (hs : SameBooks w w') (h : T.Closed w) : T.Closed w' :=
  ⟨hs.committed ▸ h.committed, hs.usage ▸ h.current.charged, cacheFits_same hs h.current.cache⟩

theorem Open.closed {w : World} (h : T.Open w) : T.Closed w := ⟨h.committed, .inl h.unused, h.cache⟩

/-! ## Admission -/

/-- The counters before the request: none is negative or over its limit, and none that is in use is of a period after
the days of the request. -/
structure Solvent (limits : ClientId → PeriodType → ℤ) (days : Date → Prop) (usage : UsageTables) : Prop where
  nonneg : ∀ k, 0 ≤ tokensOf usage k
  within : ∀ k, tokensOf usage k ≤ limits k.clientId k.periodType
  begun : ∀ k d, tokensOf usage k ≠ 0 → days d → k.periodStart ≤ d

/-- Room on a day is room on the later days: a counter that is not that of the day is not in use yet. -/
theorem room_of_le (hs : Solvent T.limits T.days T.base.usage) {d d' : Date} (hd : T.days d) (hle : d ≤ d')
    (h : T.Room d) : T.Room d' := by
  intro p
  have hday := h p
  have hnonneg := hs.nonneg (periodKey T.clientId d p)
  have hkey : periodKey T.clientId d' p = periodKey T.clientId d p ∨
      tokensOf T.base.usage (periodKey T.clientId d' p) = 0 := by
    by_cases hu : tokensOf T.base.usage (periodKey T.clientId d' p) = 0
    · exact .inr hu
    · left
      have hbegun := hs.begun _ d hu hd
      cases p with
      | daily => rw [show d' = d from Date.le_antisymm hbegun hle]
      | monthly =>
        rcases Date.firstDay_of_le hle with he | hn
        · simp only [periodKey, monthStart, he]
        · exact absurd hbegun hn
  rcases hkey with he | hz
  · rw [he]
    exact hday
  · rw [hz]
    omega

/-- The steps of an open session. -/
theorem steady_open {F : Exc → Prop} (hF : F .other) : Steady (fun _ : Unit => T.Open) F :=
  steady_of_sameBooks Open.same hF

theorem steady_admitted {F : Exc → Prop} (hF : F .other) : Steady (fun _ : Unit => T.Admitted) F :=
  steady_of_sameBooks Admitted.same hF

theorem steady_closed {F : Exc → Prop} (hF : F .other) : Steady (fun _ : Unit => T.Closed) F :=
  steady_of_sameBooks Closed.same hF

/-- The day that the clock shows is one of the request's, and the clock does not go back behind it. -/
def Since (d : Date) (w : World) : Prop := T.days d ∧ ∀ i, d ≤ (w.env.clock i).date

theorem Since.same {d : Date} {w w' : World} (hs : SameBooks w w') (h : Since (T := T) d w) : Since (T := T) d w' := by
  obtain ⟨k, hclock⟩ := hs.clock
  refine ⟨h.1, fun i => ?_⟩
  rw [hclock]
  exact h.2 _

theorem tokensOf_ensureQuota (usage : UsageTables) (c : ClientId) (today : Date) (dl ml n : ℤ) (k : PeriodKey) :
    tokensOf (Usage.ensureQuota usage c today dl ml n).2 k = tokensOf usage k := by
  rw [tokensOf, ensureQuota_counter, tokensOf]

/-- A request that `ensure_quota` lets pass has room on its counters from then on. -/
theorem triple_ensureQuota (hs : Solvent T.limits T.days T.base.usage) :
    Triple T.Open (ensureQuota T.clientId (T.limits T.clientId .daily) (T.limits T.clientId .monthly) T.incomingTokens)
      (fun _ => T.Admitted) fun _ => T.Open := by
  refine triple_bind (Q := fun now w => T.Open w ∧ Since (T := T) now.date w) (triple_modifyGet fun w hw => ?_)
    fun now => ?_
  · refine ⟨hw.same { SameBooks.refl w with clock := ⟨1, fun _ => rfl⟩ }, hw.today 0, fun i => ?_⟩
    exact hw.clock 0 (i + 1) (Nat.zero_le _)
  have hsteady : Steady (fun _ : Unit => fun w => T.Open w ∧ Since (T := T) now.date w) fun _ => True :=
    steady_of_sameBooks (fun hs h => ⟨h.1.same hs, Since.same hs h.2⟩) trivial
  refine triple_bind ((hsteady.await ()).conseq (fun _ h => h) (fun _ _ h => h.1) fun _ _ h => h.1.1) fun _ => ?_
  refine triple_bind (Q := fun verdict w => T.Open w ∧ (verdict = .ok () → T.Admitted w)) (triple_modifyGet ?_)
    fun verdict => ?_
  · rintro w ⟨hw, hd, hle⟩
    have hopen : T.Open (w.setCurrent fun db => { db with
        usage := (Usage.ensureQuota db.usage T.clientId now.date (T.limits T.clientId .daily)
          (T.limits T.clientId .monthly) T.incomingTokens).2 }) :=
      ⟨hw.toGoing, hw.committed, fun k => (tokensOf_ensureQuota _ _ _ _ _ _ k).trans (hw.unused k), hw.cache⟩
    refine ⟨hopen, fun hok => ⟨hopen, fun i => room_of_le hs hd (hle i) ?_⟩⟩
    obtain ⟨hdaily, hmonthly⟩ := ensureQuota_ok_iff.mp hok
    have hunused := hw.unused
    intro p
    rw [← hunused]
    cases p with
    | daily => exact hdaily
    | monthly => exact hmonthly
  · cases verdict with
    | ok _ => exact triple_pure fun w hw => hw.2 rfl
    | error e => exact triple_raise fun w hw => hw.1

/-! ## Booking -/

theorem tokensOf_recordPeriod (usage : UsageTables) (k k' : PeriodKey) (p q : ℤ) :
    tokensOf (recordPeriod usage k p q) k' = tokensOf usage k' + if k' = k then p + q else 0 := by
  simp only [tokensOf, recordPeriod_counter]
  split_ifs with h
  · rw [h]
    rfl
  · rw [add_zero]

/-- An exception that is no `HTTPException`: the session is lost. -/
def Stray (T : Terms) (e : Exc) (w : World) : Prop := T.Fine w.committed ∧ e.httpError = none

/-- What awaited calls raise. -/
def IsOther (e : Exc) : Prop := e = .other

/-- Programs on a session that may be committed. -/
theorem triple_of_steady {P : World → Prop} {α : Type} {x : Prog α}
    (hx : KeepsAll (fun _ : Unit => P) (fun _ => True) IsOther x) (hP : ∀ w, P w → T.Fine w.committed) :
    Triple P x (fun _ => P) (Stray T) :=
  (hx ()).conseq (fun _ h => h) (fun _ _ h => h.1) fun e w h => ⟨hP w h.1, by rw [show e = .other from h.2]; rfl⟩

theorem fine_of_stray {P : World → Prop} {α : Type} {Q : α → World → Prop} {x : Prog α} (hx : Triple P x Q (Stray T)) :
    Triple P x Q fun _ w => T.Fine w.committed :=
  hx.conseq (fun _ h => h) (fun _ _ h => h) fun _ _ h => h.1

/-- The client's counter of the day has been charged, that of the month has not. -/
structure Half (T : Terms) (d : Date) (total : ℤ) (w : World) : Prop where
  committed : T.Fine w.committed
  cache : CacheFits T.capacity w.current.responseCache
  charged : ∀ k, tokensOf w.current.usage k =
    tokensOf T.base.usage k + if k = periodKey T.clientId d .daily then total else 0

theorem Half.same {d : Date} {total : ℤ} {w w' : World} (hs : SameBooks w w') (h : Half T d total w) :
    Half T d total w' :=
  ⟨hs.committed ▸ h.committed, cacheFits_same hs h.cache, hs.usage ▸ h.charged⟩

/-- `record_usage` books within the room that was found. -/
theorem triple_recordUsage {p q : ℤ} (h0 : 0 ≤ p + q) (hle : p + q ≤ T.incomingTokens) :
    Triple T.Admitted (recordUsage T.clientId p q) (fun _ => T.Closed) (Stray T) := by
  refine triple_bind (Q := fun now w => T.Admitted w ∧ T.days now.date ∧ T.Room now.date)
    (triple_modifyGet fun w hw => ?_) fun now => ?_
  · exact ⟨hw.same { SameBooks.refl w with clock := ⟨1, fun _ => rfl⟩ }, hw.today 0, hw.room 0⟩
  have hsteady : Steady (fun _ : Unit => fun w => T.Admitted w ∧ T.days now.date ∧ T.Room now.date)
      IsOther := steady_of_sameBooks (fun hs h => ⟨h.1.same hs, h.2⟩) rfl
  refine triple_bind (triple_of_steady hsteady.await fun w hw => hw.1.committed) fun _ => ?_
  refine triple_bind (Q := fun _ w => Half T now.date (p + q) w ∧ T.days now.date ∧ T.Room now.date)
    (triple_modify ?_) fun _ => ?_
  · rintro w ⟨hw, hd, hroom⟩
    refine ⟨⟨hw.committed, hw.cache, fun k => ?_⟩, hd, hroom⟩
    exact (tokensOf_recordPeriod _ _ _ _ _).trans (by rw [hw.unused])
  have hhalf : Steady (fun _ : Unit => fun w => Half T now.date (p + q) w ∧ T.days now.date ∧ T.Room now.date)
      IsOther := steady_of_sameBooks (fun hs h => ⟨h.1.same hs, h.2⟩) rfl
  refine triple_bind (triple_of_steady hhalf.await fun w hw => hw.1.committed) fun _ => triple_modify ?_
  rintro w ⟨hw, hd, hroom⟩
  refine ⟨hw.committed, .inr ⟨now.date, hd, hroom, p + q, h0, hle, fun k => ?_⟩, hw.cache⟩
  refine (tokensOf_recordPeriod _ _ _ _ _).trans ?_
  rw [hw.charged, add_assoc]
  congr 1
  have hne : periodKey T.clientId now.date .daily ≠ periodKey T.clientId now.date .monthly :=
    fun h => by cases periodKey_injective T.clientId now.date h
  by_cases hk : k = periodKey T.clientId now.date .daily
  · rw [if_pos hk, if_neg (fun h => hne (hk ▸ h)), if_pos (.inl hk), add_zero]
  · by_cases hm : k = periodKey T.clientId now.date .monthly
    · rw [if_neg hk, if_pos hm, if_pos (.inr hm), zero_add]
    · rw [if_neg hk, if_neg hm, if_neg fun h => h.elim hk hm, add_zero]

theorem triple_logRequest (row : RequestLog) : Triple T.Closed (logRequest row) (fun _ => T.Closed) (Stray T) :=
  triple_bind (triple_of_steady (steady_closed (F := IsOther) rfl).await fun _ hw => hw.committed) fun _ =>
    triple_modify fun _ hw => ⟨hw.committed, hw.current.charged, hw.current.cache⟩

/-- A commit of a session that leads from `P` to `Q`. -/
theorem triple_commit_of {P Q : World → Prop} (hsame : ∀ {w w' : World}, SameBooks w w' → P w → P w')
    (hcommit : ∀ w, P w → Q { w with committed := w.current }) (hP : ∀ w, P w → T.Fine w.committed)
    (hQ : ∀ w, Q w → T.Fine w.committed) : Triple P commit (fun _ => Q) (Stray T) := by
  have hfault : Triple P nextFault (fun _ => P) (Stray T) :=
    triple_modifyGet fun w hw => hsame { SameBooks.refl w with } hw
  refine triple_bind hfault fun fault => ?_
  split
  · refine triple_bind hfault fun committed => ?_
    split
    · exact triple_bind (Q := fun _ => Q) (triple_modify hcommit) fun _ => triple_raise fun w hw => ⟨hQ w hw, rfl⟩
    · exact triple_raise fun w hw => ⟨hP w hw, rfl⟩
  · exact triple_modify hcommit

theorem triple_commit : Triple T.Closed commit (fun _ => T.Closed) (Stray T) :=
  triple_commit_of Closed.same (fun _ hw => ⟨hw.current, hw.current⟩) (fun _ hw => hw.committed)
    fun _ hw => hw.committed

/-- The tag is that of the request. -/
def Tags (T : Terms) (tag : RequestTag) : Prop :=
  tag.clientId = T.clientId ∧ tag.promptTokens = T.reservation.promptTokens

/-- An answer of at most the tokens asked for is booked. -/
theorem triple_bookAnswer {tag : RequestTag} (ht : Tags T tag) (hp : 0 ≤ T.reservation.promptTokens)
    (result : ForwardResult) {completionTokens : ℤ} (h0 : 0 ≤ completionTokens)
    (hle : completionTokens ≤ T.reservation.maxTokens) (isStream cacheHit : Bool) :
    Triple T.Admitted (bookAnswer tag result completionTokens isStream cacheHit) (fun _ => T.Closed) (Stray T) := by
  refine triple_bind ?_ fun _ => triple_logRequest _
  rw [ht.1, ht.2]
  refine triple_recordUsage (add_nonneg hp h0) ?_
  exact add_le_add_right hle _

/-- An answer that fits its key is stored. -/
theorem triple_storeExactCache (settings : Settings) (key : CacheKey) (fingerprint json : String) (p : ℤ) {q : ℤ}
    (h0 : 0 ≤ q) (hle : q ≤ T.capacity key.requestHash) :
    Triple T.Admitted (storeExactCache settings key fingerprint json p q) (fun _ => T.Admitted) (Stray T) := by
  unfold storeExactCache
  split
  · have hadm : Steady (fun _ : Unit => T.Admitted) IsOther := steady_admitted rfl
    refine triple_bind (triple_of_steady hadm.utcNow fun _ hw => hw.committed) fun now => ?_
    refine triple_bind (triple_of_steady hadm.await fun _ hw => hw.committed) fun _ => triple_modify ?_
    rintro w hw
    refine ⟨⟨hw.toGoing, hw.committed, hw.unused, fun key' row hrow => ?_⟩, hw.room⟩
    by_cases hk : key' = key
    · subst hk
      rw [World.setCurrent, AList.lookup_insert, Option.some.injEq] at hrow
      rw [← hrow]
      exact ⟨h0, hle⟩
    · rw [World.setCurrent, AList.lookup_insert_ne hk] at hrow
      exact hw.cache key' row hrow
  · exact triple_pure fun _ hw => hw

/-! ## The handlers -/

/-- An `HTTPException` finds nothing booked in the session, and no exception has committed anything wrong. -/
def Caught (T : Terms) (e : Exc) (w : World) : Prop := T.Fine w.committed ∧ (e.httpError ≠ none → T.Open w)

theorem Stray.caught {e : Exc} {w : World} (h : Stray T e w) : Caught T e w := ⟨h.1, fun he => absurd h.2 he⟩

theorem caught_of_stray {P : World → Prop} {α : Type} {Q : α → World → Prop} {x : Prog α}
    (hx : Triple P x Q (Stray T)) : Triple P x Q (Caught T) :=
  hx.conseq (fun _ h => h) (fun _ _ h => h) fun _ _ h => h.caught

/-- An exception in a session in which nothing is booked. -/
theorem triple_caught {α : Type} {R : α → Prop} {F : Exc → Prop} {x : Prog α}
    (hx : KeepsAll (fun _ : Unit => T.Admitted) R F x) :
    Triple T.Admitted x (fun a w => T.Admitted w ∧ R a) (Caught T) :=
  (hx ()).conseq (fun _ h => h) (fun _ _ h => h) fun _ _ h => ⟨h.1.committed, fun _ => h.1.toOpen⟩

/-- The request has the terms' reservation, and its cache key allows what it asks for. -/
structure Fits (T : Terms) (r : ChatRequest) : Prop where
  reservation : T.reservation = r.reservation
  capacity : T.capacity r.cacheKey = r.maxTokens
  promptTokens : 0 ≤ r.promptTokens
  maxTokens : 1 ≤ r.maxTokens
  stream : r.stream = false → T.streams = false
  dailyTokenQuota : r.dailyTokenQuota = T.limits r.clientId .daily
  monthlyTokenQuota : r.monthlyTokenQuota = T.limits r.clientId .monthly

theorem backends_admitted (T : Terms) (hm : 1 ≤ T.reservation.maxTokens) :
    Backends (fun _ : Unit => T.Admitted) (fun _ => True)
      fun body => T.streams = false → ShortAnswer T.reservation.maxTokens body where
  toSteady := steady_admitted trivial
  payload := fun _ _ hw statusCode body shown ha hs hn => hw.answers hn 0 statusCode body shown ha hs
  stream := by
    intro _
    have hs : Text.split "".toList = [] := rfl
    rw [ShortAnswer, hs]
    simp only [List.length_nil]
    omega
  other := trivial
  http := fun _ _ => trivial
  routesFailed := fun _ _ _ => trivial

/-- What the cache gives an admitted request. -/
theorem keeps_lookupExactCache {P : World → Prop} {F : Exc → Prop} (h : Steady (fun _ : Unit => P) F)
    (hP : ∀ w, P w → T.Admitted w) (settings : Settings) (key : CacheKey) :
    KeepsAll (fun _ : Unit => P)
      (fun cached => ∀ a ∈ cached, 0 ≤ a.completionTokens ∧ a.completionTokens ≤ T.capacity key.requestHash) F
      (lookupExactCache settings key) :=
  h.lookupExactCache (R := fun n => 0 ≤ n ∧ n ≤ T.capacity key.requestHash) settings key fun _ _ row hw hrow =>
    (hP _ hw).cache key row hrow

variable {r : ChatRequest}

/-- The `try` of the handlers charges the request for at most what it was admitted for. -/
theorem triple_answerChat (settings : Settings) (hr : T.Fits r) {tag : RequestTag} (ht : Tags T tag) :
    Triple T.Admitted (answerChat settings r tag) (fun _ => T.Closed) (Caught T) := by
  have hp : 0 ≤ T.reservation.promptTokens := by rw [hr.reservation]; exact hr.promptTokens
  have hmax : T.reservation.maxTokens = r.maxTokens := by rw [hr.reservation]; rfl
  have hm : 1 ≤ T.reservation.maxTokens := by rw [hmax]; exact hr.maxTokens
  have hend : ∀ answer : ℕ × String, Triple T.Closed (do commit; pure answer) (fun _ => T.Closed) (Stray T) :=
    fun answer => triple_bind triple_commit fun _ => triple_pure fun _ hw => hw
  have hlookup : KeepsAll (fun _ : Unit => T.Admitted)
      (fun cached => ∀ a ∈ cached, 0 ≤ a.completionTokens ∧ a.completionTokens ≤ T.capacity r.cacheKey) (fun _ => True)
      (if r.stream then pure none else lookupExactCache settings ⟨tag.endpoint, r.model, r.cacheKey⟩) :=
    .ite (keepsAll_pure fun _ ha => by cases ha)
      (keeps_lookupExactCache (steady_admitted trivial) (fun _ hw => hw) settings _)
  refine triple_bind (triple_caught hlookup) fun cached => ?_
  cases cached with
  | some cached =>
    rintro w ⟨hw, hcached⟩
    obtain ⟨h0, hle⟩ := hcached cached rfl
    rw [hr.capacity, ← hmax] at hle
    exact caught_of_stray (triple_bind (triple_bookAnswer ht hp _ h0 hle _ _) fun _ => hend _) w hw
  | none =>
    refine Triple.pre (P := T.Admitted) ?_ fun _ hw => hw.1
    have hchat := (backends_admitted T hm).chatWithFallback settings r.routes r.stream
    refine triple_bind (triple_caught hchat) fun result => ?_
    rintro w ⟨hw, -, hshort⟩
    refine caught_of_stray ?_ w hw
    dsimp only
    split
    · have h0 : 0 ≤ r.maxTokens := zero_le_one.trans hr.maxTokens
      exact triple_bind (triple_bookAnswer ht hp result h0 hmax.ge _ _) fun _ => hend _
    · rename_i hstream
      obtain ⟨h0, hle⟩ := estimate_of_short hm (hshort (hr.stream (Bool.eq_false_of_not_eq_true hstream)))
      have hstored := hle.trans_eq (hmax.trans hr.capacity.symm)
      refine triple_bind (triple_storeExactCache settings _ _ _ _ h0 hstored) fun _ => ?_
      exact triple_bind (triple_bookAnswer ht hp result h0 hle _ _) fun _ => hend _

/-- `except HTTPException` commits nothing but its log row. -/
theorem triple_orLogFailure {tag : RequestTag} {isStream : Bool} {between : HTTPError → Prog Unit}
    {x : Prog (ℕ × String)} (hx : Triple T.Admitted x (fun _ => T.Closed) (Caught T))
    (hb : ∀ e, KeepsAll (fun _ : Unit => T.Closed) (fun _ => True) IsOther (between e)) :
    Triple T.Admitted (orLogFailure tag isStream between x) (fun _ w => T.Fine w.committed)
      fun _ w => T.Fine w.committed := by
  refine triple_tryExcept (hx.conseq (fun _ h => h) (fun _ _ h => h.committed) fun _ _ h => h) fun exc => ?_
  rintro w ⟨hcom, hcaught⟩
  cases he : exc.httpError with
  | none => exact hcom
  | some e =>
    have hclosed : T.Closed w := (hcaught (by rw [he]; simp)).closed
    have hlog : Triple T.Closed (do
        logFailure tag isStream (e.backendErrors.getLast?.map (·.backendName)) e
        between e
        commit
        raise exc : Prog (ℕ × String)) (fun _ w => T.Fine w.committed) fun _ w => T.Fine w.committed := by
      refine triple_bind (fine_of_stray (triple_logRequest _)) fun _ => ?_
      refine triple_bind (fine_of_stray (triple_of_steady (hb e) fun _ hw => hw.committed)) fun _ => ?_
      exact triple_bind (fine_of_stray triple_commit) fun _ => triple_raise fun _ hw => hw.committed
    exact hlog w hclosed

/-- The request starts on the database of its terms. -/
structure Starts (T : Terms) (w : World) : Prop extends T.Going w.env where
  base : w.committed = T.base
  cache : CacheFits T.capacity T.base.responseCache

theorem triple_beginSession : Triple (Starts T) beginSession (fun _ => T.Open) fun _ w => T.Fine w.committed := by
  refine triple_modify fun w hw => ⟨hw.toGoing, ?_, ?_, ?_⟩
  · exact hw.base ▸ ⟨.inl fun _ => rfl, hw.cache⟩
  · exact hw.base ▸ fun _ => rfl
  · exact hw.base ▸ hw.cache

/-- The request is let pass only if its counters have room for it. -/
theorem triple_quota (hs : Solvent T.limits T.days T.base.usage) (hr : T.Fits r) :
    Triple T.Open (ensureQuota r.clientId r.dailyTokenQuota r.monthlyTokenQuota (r.promptTokens + r.maxTokens))
      (fun _ => T.Admitted) fun _ => T.Open := by
  have h := triple_ensureQuota hs
  have hid : T.clientId = r.clientId := by rw [clientId, hr.reservation]; rfl
  have hn : T.incomingTokens = r.promptTokens + r.maxTokens := by rw [incomingTokens, hr.reservation]; rfl
  rw [hid, hn, ← hr.dailyTokenQuota, ← hr.monthlyTokenQuota] at h
  exact h

/-- A neutral call on the way to the quota. -/
theorem triple_open {α : Type} {x : Prog α} (hx : KeepsAll (fun _ : Unit => T.Open) (fun _ => True) (fun _ => True) x) :
    Triple T.Open x (fun _ => T.Open) fun _ => T.Open :=
  (hx ()).conseq (fun _ h => h) (fun _ _ h => h.1) fun _ _ h => h.1

theorem triple_tooManyRequests {checks : Prog Unit}
    (hc : Triple T.Open checks (fun _ => T.Admitted) fun _ => T.Open) :
    Triple T.Open (tooManyRequests checks) (fun _ => T.Admitted) fun _ w => T.Fine w.committed := by
  refine triple_tryExcept hc fun exc => ?_
  cases exc <;> exact triple_raise fun _ hw => hw.committed

/-- A neutral call of an admitted request. -/
theorem triple_admitted {α : Type} {x : Prog α} (hx : KeepsAll (fun _ : Unit => T.Admitted) (fun _ => True) IsOther x) :
    Triple T.Admitted x (fun _ => T.Admitted) fun _ w => T.Fine w.committed :=
  (hx ()).conseq (fun _ h => h) (fun _ _ h => h.1) fun _ _ h => h.1.committed

/-- The session of a request begins. -/
theorem triple_started {α : Type} {x : Prog α} {Q : α → World → Prop}
    (hx : Triple T.Open x Q fun _ w => T.Fine w.committed) :
    Triple (Starts T) (do beginSession; await; x) Q fun _ w => T.Fine w.committed := by
  refine triple_bind triple_beginSession fun _ => triple_bind (Q := fun _ => T.Open) ?_ fun _ => hx
  exact ((steady_open (F := fun _ => True) trivial).await ()).conseq (fun _ h => h) (fun _ _ h => h.1)
    fun _ _ h => h.1.committed

theorem tags_tag (hr : T.Fits r) (endpoint : String) (n : ℤ) : Tags T (r.tag endpoint n) := by
  refine ⟨?_, ?_⟩
  · rw [clientId, hr.reservation]
    rfl
  · rw [hr.reservation]
    rfl

/-- `chat_completions` leaves a fine database. -/
theorem triple_chatCompletions (settings : Settings) (hs : Solvent T.limits T.days T.base.usage) (hr : T.Fits r) :
    Triple (Starts T) (chatCompletions settings (.ok r)) (fun _ w => T.Fine w.committed)
      fun _ w => T.Fine w.committed := by
  have hopen : Steady (fun _ : Unit => T.Open) fun _ => True := steady_open trivial
  have hadm : Steady (fun _ : Unit => T.Admitted) IsOther := steady_admitted rfl
  refine triple_started (triple_bind (triple_tooManyRequests ?_) fun _ => ?_)
  · refine triple_bind (triple_open (hopen.enforceIpRateLimit (fun _ => trivial) _ _)) fun _ => ?_
    refine triple_bind (triple_open (hopen.enforceRateLimit (fun _ => trivial) _)) fun _ => triple_quota hs hr
  · refine triple_bind (triple_admitted (hadm.currentUsage _)) fun used => ?_
    refine triple_bind (triple_admitted (hadm.maybeRecordRepeatedLargePrompt _ _)) fun _ => ?_
    refine triple_bind (triple_admitted (hadm.maybeRecordPlanUsageAnomaly _ _ _ _ _ _)) fun _ => ?_
    exact triple_orLogFailure (triple_answerChat settings hr (tags_tag hr _ _)) fun e =>
      (steady_closed (F := IsOther) rfl).maybeRecordRequestErrorBurst _ _

/-- `portal_test_chat` leaves a fine database. -/
theorem triple_portalTestChat (settings : Settings) (hs : Solvent T.limits T.days T.base.usage) (hr : T.Fits r)
    (hn : T.streams = false) :
    Triple (Starts T) (portalTestChat settings (.ok r)) (fun _ w => T.Fine w.committed)
      fun _ w => T.Fine w.committed := by
  have hopen : Steady (fun _ : Unit => T.Open) fun _ => True := steady_open trivial
  have hadm : Steady (fun _ : Unit => T.Admitted) IsOther := steady_admitted rfl
  have hr' : T.Fits { r with stream := false } := { hr with stream := fun _ => hn }
  refine triple_started (triple_bind (triple_tooManyRequests ?_) fun _ => ?_)
  · exact triple_bind (triple_open (hopen.enforceRateLimit (fun _ => trivial) _)) fun _ => triple_quota hs hr'
  · refine triple_bind (triple_admitted (hadm.currentUsage _)) fun used => ?_
    exact triple_orLogFailure (triple_answerChat settings hr' (tags_tag hr' _ _)) fun e => keepsAll_pure trivial

end Terms

end LlmStore.Inference
