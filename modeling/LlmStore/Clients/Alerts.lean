import LlmStore.Clients.RateLimit
import LlmStore.Core.Json

/-!
# Security alerts

`services/security_monitor.py`: three recorders count what looks like an attack or a fault in Redis. A call increments
the counter of its subject, lets a new counter expire after the window, and from a threshold on records an event if it is
the first to set the gate of the count that it got. Calls of many processes interleave at these points, may end at any of
them, and share Redis with the rest of the program. The gates of two events for one count of a counter are set a window
apart (`events_apart`), and the calls of one window record one event for each count from the threshold on
(`events_complete`).
-/

namespace LlmStore.Clients.Alerts

open LlmStore.Lib LlmStore.Clients.RateLimit

/-! ## The recorders -/

/-- What is counted. -/
inductive Kind where
  | invalidApiKey
  | promptRepeat
  | errorBurst
  deriving DecidableEq

namespace Kind

/-- How the keys of its counters begin. -/
def name : Kind → String
  | invalidApiKey => "security:invalid-api-key:"
  | promptRepeat => "security:prompt-repeat:"
  | errorBurst => "security:error-burst:"

/-- The seconds after which its counters and gates expire. -/
def window : Kind → ℚ
  | invalidApiKey => 600
  | promptRepeat => 900
  | errorBurst => 900

/-- `INVALID_API_ATTEMPT_THRESHOLD`, `REPEATED_PROMPT_THRESHOLD` and `REQUEST_ERROR_THRESHOLD`. -/
def threshold : Kind → ℕ
  | invalidApiKey => 5
  | promptRepeat => 3
  | errorBurst => 5

end Kind

/-- What `log_security_event` is given. -/
structure SecurityEvent where
  eventType : String
  severity : String
  title : String
  clientId : Option String := none
  sourceIp : Option String := none
  apiKeyPrefix : Option String := none
  details : List (String × Json)

/-- One call of a recorder: what it counts and the event for a count. -/
structure Recorder where
  kind : Kind
  subject : String
  event : ℕ → SecurityEvent

namespace Recorder

variable (r : Recorder)

/-- The key of the counter. -/
def key : String := r.kind.name ++ r.subject

/-- The key of the gate of a count. -/
def gate (count : ℕ) : String := r.key ++ ":event:" ++ toString count

end Recorder

/-- `record_invalid_api_key_attempt`. -/
def recordInvalidApiKeyAttempt (sourceIp : String) (apiKeyPrefix : Option String) (reason : String) : Recorder where
  kind := .invalidApiKey
  subject := sourceIp ++ ":" ++ (match apiKeyPrefix with
    | some prefix' => if prefix' = "" then "missing" else prefix'
    | none => "missing")
  event attempts :=
    { eventType := "invalid_api_key_attempts", severity := "high", title := "Many invalid API key attempts",
      sourceIp := some sourceIp, apiKeyPrefix
      details := [("attempts", .int attempts), ("window_seconds", .int 600), ("reason", .str reason.toList)] }

/-- `maybe_record_repeated_large_prompt`, which counts only large prompts. -/
def maybeRecordRepeatedLargePrompt (clientId : String) (promptTokens : ℤ) (promptKey endpoint : String) :
    Option Recorder :=
  if promptTokens < 2048 then none
  else
    some
      { kind := .promptRepeat
        subject := clientId ++ ":" ++ promptKey
        event := fun seen =>
          { eventType := "repeated_large_prompt", severity := "medium",
            title := "Large prompt repeated multiple times", clientId := some clientId
            details := [("endpoint", .str endpoint.toList), ("prompt_tokens", .int promptTokens),
              ("repetitions", .int seen)] } }

/-- `maybe_record_request_error_burst`, which counts only errors. -/
def maybeRecordRequestErrorBurst (clientId endpoint : String) (statusCode : ℕ) (backendName : Option String) :
    Option Recorder :=
  if statusCode < 400 then none
  else
    some
      { kind := .errorBurst
        subject := clientId ++ ":" ++ toString (statusCode / 100)
        event := fun total =>
          { eventType := "request_error_burst", severity := if statusCode ≥ 500 then "high" else "medium",
            title := "Many request errors for client", clientId := some clientId
            details := [("endpoint", .str endpoint.toList), ("status_code", .int statusCode), ("count", .int total),
              ("backend_name", backendName.elim .null fun name => .str name.toList)] } }

/-- `redis.set(key, "1", ex=seconds, nx=True)`. -/
def setNx (redis : Redis) (now : ℚ) (key : String) (seconds : ℚ) : Bool × Redis :=
  match redis.live now key with
  | some _ => (false, redis)
  | none => (true, redis.insert key ⟨1, some (now + seconds)⟩)

/-- The recorders, when nothing comes between their commands. -/
def Recorder.record (r : Recorder) (redis : Redis) (now : ℚ) : Option SecurityEvent × Redis :=
  let (count, redis) := redis.incr now r.key
  let redis := if count = 1 then redis.expire now r.key r.kind.window else redis
  if count ≥ r.kind.threshold then
    let (fresh, redis) := setNx redis now (r.gate count) r.kind.window
    (if fresh then some (r.event count) else none, redis)
  else (none, redis)

/-! ## Calls that interleave -/

/-- The answer to `SET`: none yet, that the gate was there, or that it was set at a time. -/
inductive Gate where
  | pending
  | lost
  | won (time : ℚ)
  deriving DecidableEq

/-- A call whose `INCR` has reached Redis. -/
structure Call where
  recorder : Recorder
  /-- What `INCR` has answered. -/
  count : ℕ
  /-- It has sent `EXPIRE`. -/
  expired : Bool := false
  gate : Gate := .pending
  /-- It has called `log_security_event`. -/
  logged : Bool := false

/-- The calls, first `INCR` first, and Redis. -/
structure State where
  now : ℚ
  redis : Redis
  calls : List Call

inductive Action where
  | incr (recorder : Recorder)
  | expire (i : ℕ)
  | gate (i : ℕ)
  | log (i : ℕ)
  /-- The rest of the program writes or deletes a key. -/
  | other (key : String) (value : Option RedisValue)

/-- What happens at a time of the common clock. -/
structure Event where
  time : ℚ
  action : Action

namespace State

/-- The `INCR` of a new call reaches Redis. -/
def incr (s : State) (time : ℚ) (r : Recorder) : State where
  now := time
  redis := (s.redis.incr time r.key).2
  calls := s.calls ++ [⟨r, (s.redis.incr time r.key).1, false, .pending, false⟩]

/-- The `EXPIRE` of call `i` reaches Redis. -/
def expire (s : State) (time : ℚ) (i : ℕ) (call : Call) : State where
  now := time
  redis := s.redis.expire time call.recorder.key call.recorder.kind.window
  calls := s.calls.set i { call with expired := true }

/-- What `SET` answers to a call. -/
def answer (s : State) (time : ℚ) (call : Call) : Bool × Redis :=
  setNx s.redis time (call.recorder.gate call.count) call.recorder.kind.window

/-- Its `SET` reaches Redis. -/
def gate (s : State) (time : ℚ) (i : ℕ) (call : Call) : State where
  now := time
  redis := (s.answer time call).2
  calls := s.calls.set i { call with gate := if (s.answer time call).1 then .won time else .lost }

/-- It records the event. -/
def log (s : State) (time : ℚ) (i : ℕ) (call : Call) : State where
  now := time
  redis := s.redis
  calls := s.calls.set i { call with logged := true }

def other (s : State) (time : ℚ) (key : String) (value : Option RedisValue) : State where
  now := time
  redis := value.elim (s.redis.erase key) (s.redis.insert key)
  calls := s.calls

end State

/-- The clock does not go back, a call goes on as the recorders do, and other keys are written only outside of
`security:`. -/
def step (s : State) (e : Event) : Option State :=
  if e.time < s.now then none
  else match e.action with
    | .incr r => some (s.incr e.time r)
    | .expire i => (s.calls[i]?).bind fun call =>
        if call.count = 1 ∧ call.expired = false then some (s.expire e.time i call) else none
    | .gate i => (s.calls[i]?).bind fun call =>
        if call.recorder.kind.threshold ≤ call.count ∧ (call.count = 1 → call.expired) ∧ call.gate = .pending then
          some (s.gate e.time i call)
        else none
    | .log i => (s.calls[i]?).bind fun call =>
        if (call.gate ≠ .pending ∧ call.gate ≠ .lost) ∧ call.logged = false then some (s.log e.time i call) else none
    | .other key value => if "security:".toList.isPrefixOf key.toList then none else some (s.other e.time key value)

/-- What a step can be. -/
inductive Step (s : State) (e : Event) : State → Prop
  | incr (r : Recorder) (ha : e.action = .incr r) : Step s e (s.incr e.time r)
  | expire {i : ℕ} {call : Call} (hi : s.calls[i]? = some call) : Step s e (s.expire e.time i call)
  | gate {i : ℕ} {call : Call} (hi : s.calls[i]? = some call) (hthreshold : call.recorder.kind.threshold ≤ call.count)
      (hgate : call.gate = .pending) : Step s e (s.gate e.time i call)
  | log {i : ℕ} {call : Call} {time : ℚ} (hi : s.calls[i]? = some call) (hgate : call.gate = .won time) :
      Step s e (s.log e.time i call)
  | other {key : String} (value : Option RedisValue) (hkey : ¬ "security:".toList <+: key.toList) :
      Step s e (s.other e.time key value)

theorem step_cases {s s' : State} {e : Event} (h : step s e = some s') : s.now ≤ e.time ∧ Step s e s' := by
  unfold step at h
  split_ifs at h with htime
  refine ⟨not_lt.mp htime, ?_⟩
  cases ha : e.action with
  | incr r =>
    rw [ha] at h
    obtain rfl := Option.some.inj h
    exact .incr r ha
  | expire i =>
    rw [ha] at h
    obtain ⟨call, hi, hstep⟩ := Option.bind_eq_some_iff.mp h
    split_ifs at hstep
    obtain rfl := Option.some.inj hstep
    exact .expire hi
  | gate i =>
    rw [ha] at h
    obtain ⟨call, hi, hstep⟩ := Option.bind_eq_some_iff.mp h
    split_ifs at hstep with hc
    obtain rfl := Option.some.inj hstep
    exact .gate hi hc.1 hc.2.2
  | log i =>
    rw [ha] at h
    obtain ⟨call, hi, hstep⟩ := Option.bind_eq_some_iff.mp h
    split_ifs at hstep with hc
    obtain rfl := Option.some.inj hstep
    cases hgate : call.gate with
    | pending => exact absurd hgate hc.1.1
    | lost => exact absurd hgate hc.1.2
    | won time => exact .log hi hgate
  | other key value =>
    rw [ha] at h
    change (if "security:".toList.isPrefixOf key.toList then none else some (s.other e.time key value)) = some s' at h
    split_ifs at h with hkey
    obtain rfl := Option.some.inj h
    exact .other value fun hprefix => hkey (List.isPrefixOf_iff_prefix.mpr hprefix)

/-! ## Redis -/

/-- A key that stays at least until a time. -/
def Lasts (redis : Redis) (key : String) (t : ℚ) : Prop :=
  ∃ v, redis.lookup key = some v ∧ ∀ expiry ∈ v.expiresAt, t ≤ expiry

section Redis

variable {redis redis' : Redis} {key key' : String} {now t seconds : ℚ}

theorem Lasts.congr (h : Lasts redis key t) (hlookup : redis'.lookup key = redis.lookup key) : Lasts redis' key t := by
  unfold Lasts
  rwa [hlookup]

theorem live_congr (hlookup : redis'.lookup key = redis.lookup key) : redis'.live now key = redis.live now key := by
  rw [Redis.live, Redis.live, hlookup]

/-- `INCR` keeps the expiry of a key, and starts an expired one without. -/
theorem Lasts.incr (h : Lasts redis key t) (key' : String) : Lasts (redis.incr now key').2 key t := by
  by_cases hkey : key = key'
  · subst hkey
    obtain ⟨v, hv, hexpiry⟩ := h
    unfold Redis.incr Redis.live
    rw [hv, Option.filter_some]
    split_ifs
    · exact ⟨{ v with value := v.value + 1 }, AList.lookup_insert _, hexpiry⟩
    · exact ⟨⟨1, none⟩, AList.lookup_insert _, fun _ he => absurd he (Option.not_mem_none _)⟩
  · exact h.congr (lookup_incr_ne hkey)

theorem Lasts.expire (h : Lasts redis key t) (ht : key = key' → t ≤ now + seconds) :
    Lasts (redis.expire now key' seconds) key t := by
  by_cases hkey : key = key'
  · subst hkey
    obtain ⟨v, hv, hexpiry⟩ := h
    unfold Redis.expire Redis.live
    rw [hv, Option.filter_some]
    split_ifs
    · refine ⟨_, AList.lookup_insert _, fun expiry he => ?_⟩
      obtain rfl := Option.some.inj he
      exact ht rfl
    · exact ⟨v, hv, hexpiry⟩
  · exact h.congr (lookup_expire_ne hkey seconds)

theorem lookup_setNx_ne (hne : key ≠ key') : (setNx redis now key' seconds).2.lookup key = redis.lookup key := by
  unfold setNx
  split
  · rfl
  · exact AList.lookup_insert_ne hne

theorem Lasts.setNx (h : Lasts redis key t) (ht : key = key' → t ≤ now + seconds) :
    Lasts (setNx redis now key' seconds).2 key t := by
  by_cases hkey : key = key'
  · subst hkey
    unfold Alerts.setNx
    split
    · exact h
    · refine ⟨_, AList.lookup_insert _, fun expiry he => ?_⟩
      obtain rfl := Option.some.inj he
      exact ht rfl
  · exact h.congr (lookup_setNx_ne hkey)

theorem setNx_fst : (setNx redis now key seconds).1 = true ↔ redis.live now key = none := by
  unfold setNx
  cases redis.live now key <;> simp

/-- A gate that is set stays until it expires. -/
theorem lasts_of_setNx (h : (setNx redis now key seconds).1 = true) :
    Lasts (setNx redis now key seconds).2 key (now + seconds) := by
  unfold setNx
  rw [setNx_fst.mp h]
  refine ⟨_, AList.lookup_insert _, fun expiry he => ?_⟩
  obtain rfl := Option.some.inj he
  exact le_refl _

/-- A key that stays until a time is not free before it. -/
theorem Lasts.le_of_live (h : Lasts redis key t) (hlive : redis.live now key = none) : t ≤ now := by
  obtain ⟨v, hv, hexpiry⟩ := h
  rw [Redis.live, hv, Option.filter_some] at hlive
  split_ifs at hlive with hall
  cases he : v.expiresAt with
  | none => simp [he] at hall
  | some expiry =>
    have hle : expiry ≤ now := by simpa [he] using hall
    exact (hexpiry expiry he).trans hle

/-- A key that is free stays free. -/
theorem live_mono (h : redis.live now key = none) (hle : now ≤ t) : redis.live t key = none := by
  cases hv : redis.lookup key with
  | none => rw [Redis.live, hv, Option.filter_none]
  | some v =>
    rw [Redis.live, hv, Option.filter_some] at h ⊢
    split_ifs at h with hall
    refine if_neg fun hall' => hall ?_
    rw [Option.all_eq_true] at hall' ⊢
    intro expiry he
    have hlt : t < expiry := by simpa using hall' expiry he
    exact decide_eq_true (lt_of_le_of_lt hle hlt)

end Redis

/-! ## Keys -/

namespace Kind

/-- The letter in which the names differ. -/
def letter : Kind → Char
  | invalidApiKey => 'i'
  | promptRepeat => 'p'
  | errorBurst => 'e'

theorem letter_injective : Function.Injective letter := by
  intro k k' h
  cases k <;> cases k' <;> first | rfl | exact absurd h (by decide)

theorem getElem?_name (k : Kind) (s : String) : (k.name ++ s).toList[9]? = some k.letter := by
  cases k <;> simp [name, letter]

theorem prefix_name (k : Kind) (s : String) : "security:".toList <+: (k.name ++ s).toList := by
  cases k <;> simp [name]

theorem one_lt_threshold (k : Kind) : 1 < k.threshold := by cases k <;> decide

end Kind

namespace Recorder

theorem gate_eq (r : Recorder) (n : ℕ) : r.gate n = r.kind.name ++ (r.subject ++ ":event:" ++ toString n) := by
  simp [gate, key, String.append_assoc]

/-- Counters of one key are of one kind. -/
theorem kind_eq_of_key {r r' : Recorder} (h : r.key = r'.key) : r.kind = r'.kind := by
  have hletters := congrArg (fun s => s.toList[9]?) h
  simp only [key, Kind.getElem?_name, Option.some.injEq] at hletters
  exact Kind.letter_injective hletters

theorem kind_eq_of_gate {r r' : Recorder} {n : ℕ} (h : r.gate n = r'.key) : r.kind = r'.kind := by
  have hletters := congrArg (fun s => s.toList[9]?) h
  simp only [gate_eq, key, Kind.getElem?_name, Option.some.injEq] at hletters
  exact Kind.letter_injective hletters

theorem colon_notMem_repr (n : ℕ) : ':' ∉ (toString n).toList := colon_notMem_toString n

/-- A gate belongs to one count of one counter. -/
theorem gate_inj {r r' : Recorder} {n n' : ℕ} (h : r.gate n = r'.gate n') : r.key = r'.key ∧ n = n' := by
  have hlists := congrArg String.toList h
  simp only [gate, String.toList_append] at hlists
  have hcolons : (r.key.toList ++ ":event".toList) ++ ':' :: (toString n).toList =
      (r'.key.toList ++ ":event".toList) ++ ':' :: (toString n').toList := by simpa [List.append_assoc] using hlists
  obtain ⟨hkeys, hcounts⟩ := append_colon_inj (colon_notMem_repr n) (colon_notMem_repr n') hcolons
  refine ⟨String.toList_inj.mp (List.append_cancel_right hkeys), ?_⟩
  exact eq_of_repr_eq (String.toList_inj.mp hcounts)

end Recorder

/-! ## The events -/

/-- An event that was recorded, with the time at which its gate was set: the row is written later. -/
structure Recorded where
  recorder : Recorder
  count : ℕ
  time : ℚ

def Call.recorded (call : Call) : Option Recorded :=
  match call.gate, call.logged with
  | .won time, true => some ⟨call.recorder, call.count, time⟩
  | _, _ => none

/-- The recorded events, by the order in which their calls sent `INCR`. -/
def State.recorded (s : State) : List Recorded := s.calls.filterMap Call.recorded

theorem Call.recorded_eq_some {call : Call} {event : Recorded} : call.recorded = some event ↔
    call.gate = .won event.time ∧ call.logged = true ∧ event.recorder = call.recorder ∧ event.count = call.count := by
  obtain ⟨r, count, expired, gate, logged⟩ := call
  obtain ⟨r', count', time⟩ := event
  cases gate <;> cases logged <;> simp [Call.recorded]
  constructor
  · rintro ⟨rfl, rfl, rfl⟩
    exact ⟨rfl, rfl, rfl⟩
  · rintro ⟨rfl, rfl, rfl⟩
    exact ⟨rfl, rfl, rfl⟩

/-- The gate of `e'` was set at least a window after that of `e`. -/
def Recorded.Before (e e' : Recorded) : Prop := e.time + e.recorder.kind.window ≤ e'.time

/-- What holds of the gates that were set. -/
structure Apart (s : State) : Prop where
  past : ∀ call ∈ s.calls, ∀ t, call.gate = .won t → t ≤ s.now
  reached : ∀ call ∈ s.calls, ∀ t, call.gate = .won t → call.recorder.kind.threshold ≤ call.count
  lasts : ∀ call ∈ s.calls, ∀ t, call.gate = .won t →
    Lasts s.redis (call.recorder.gate call.count) (t + call.recorder.kind.window)
  apart : ∀ (i j : ℕ) (c d : Call), i ≠ j → s.calls[i]? = some c → s.calls[j]? = some d → c.recorder.key = d.recorder.key →
    c.count = d.count → ∀ t u, c.gate = .won t → d.gate = .won u →
    t + c.recorder.kind.window ≤ u ∨ u + d.recorder.kind.window ≤ t

/-- The step sets no gate. -/
def SetsNone (s s' : State) : Prop :=
  ∀ (i : ℕ) (c' : Call) (t : ℚ), s'.calls[i]? = some c' → c'.gate = .won t →
    ∃ c, s.calls[i]? = some c ∧ c'.recorder = c.recorder ∧ c'.count = c.count ∧ c.gate = .won t

section Apart

variable {s s' : State} {i : ℕ} {call : Call} {time : ℚ}

theorem getElem?_set_of (hi : s.calls[i]? = some call) (c : Call) (j : ℕ) :
    (s.calls.set i c)[j]? = if i = j then some c else s.calls[j]? := by
  rw [List.getElem?_set, if_pos (List.getElem?_eq_some_iff.mp hi).1]

/-- A call changes in a way that does not set its gate. -/
theorem setsNone_set (hi : s.calls[i]? = some call) {call' : Call} (hcalls : s'.calls = s.calls.set i call')
    (hrecorder : call'.recorder = call.recorder) (hcount : call'.count = call.count)
    (hgate : ∀ t, call'.gate = .won t → call.gate = .won t) : SetsNone s s' := by
  intro j c t hj hc
  rw [hcalls, getElem?_set_of hi] at hj
  split_ifs at hj with hij
  · obtain rfl := Option.some.inj hj
    subst hij
    exact ⟨call, hi, hrecorder, hcount, hgate t hc⟩
  · exact ⟨c, hj, rfl, rfl, hc⟩

theorem setsNone_incr (r : Recorder) : SetsNone s (s.incr time r) := by
  intro j c t hj hc
  rw [State.incr, List.getElem?_append] at hj
  split_ifs at hj
  · exact ⟨c, hj, rfl, rfl, hc⟩
  · rw [List.getElem?_singleton] at hj
    split_ifs at hj
    obtain rfl := Option.some.inj hj
    cases hc

theorem Apart.of_setsNone (h : Apart s) (hnone : SetsNone s s') (hnow : s.now ≤ s'.now)
    (hlasts : ∀ (r : Recorder) (n : ℕ) (t : ℚ), t ≤ s.now → Lasts s.redis (r.gate n) (t + r.kind.window) →
      Lasts s'.redis (r.gate n) (t + r.kind.window)) : Apart s' := by
  have hold : ∀ c' ∈ s'.calls, ∀ t, c'.gate = .won t →
      ∃ c ∈ s.calls, c'.recorder = c.recorder ∧ c'.count = c.count ∧ c.gate = .won t := by
    intro c' hc' t ht
    obtain ⟨j, hj⟩ := List.mem_iff_getElem?.mp hc'
    obtain ⟨c, hc, hrecorder, hcount, hgate⟩ := hnone j c' t hj ht
    exact ⟨c, List.mem_of_getElem? hc, hrecorder, hcount, hgate⟩
  refine ⟨fun c' hc' t ht => ?_, fun c' hc' t ht => ?_, fun c' hc' t ht => ?_, ?_⟩
  · obtain ⟨c, hc, -, -, hgate⟩ := hold c' hc' t ht
    exact (h.past c hc t hgate).trans hnow
  · obtain ⟨c, hc, hrecorder, hcount, hgate⟩ := hold c' hc' t ht
    rw [hrecorder, hcount]
    exact h.reached c hc t hgate
  · obtain ⟨c, hc, hrecorder, hcount, hgate⟩ := hold c' hc' t ht
    rw [hrecorder, hcount]
    exact hlasts _ _ t (h.past c hc t hgate) (h.lasts c hc t hgate)
  · intro i j c' d' hij hi hj hkey hcount t u ht hu
    obtain ⟨c, hc, hrecorder, hcount', hgate⟩ := hnone i c' t hi ht
    obtain ⟨d, hd, hrecorder', hcount'', hgate'⟩ := hnone j d' u hj hu
    rw [hrecorder, hrecorder'] at hkey ⊢
    rw [hcount', hcount''] at hcount
    exact h.apart i j c d hij hc hd hkey hcount t u hgate hgate'

theorem lasts_expire {r : Recorder} {n : ℕ} {t : ℚ} (ht : t ≤ time)
    (h : Lasts s.redis (r.gate n) (t + r.kind.window)) (r' : Recorder) :
    Lasts (s.redis.expire time r'.key r'.kind.window) (r.gate n) (t + r.kind.window) := by
  refine h.expire fun hkey => ?_
  rw [Recorder.kind_eq_of_gate hkey]
  linarith

theorem lasts_answer {r : Recorder} {n : ℕ} {t : ℚ} (ht : t ≤ time)
    (h : Lasts s.redis (r.gate n) (t + r.kind.window)) (call : Call) :
    Lasts (s.answer time call).2 (r.gate n) (t + r.kind.window) := by
  refine h.setNx fun hkey => ?_
  rw [Recorder.kind_eq_of_key (Recorder.gate_inj hkey).1]
  linarith

theorem lookup_other {key key' : String} (hkey : ¬ "security:".toList <+: key.toList) (value : Option RedisValue)
    (hkey' : "security:".toList <+: key'.toList) : (s.other time key value).redis.lookup key' = s.redis.lookup key' := by
  have hne : key' ≠ key := fun he => hkey (he ▸ hkey')
  cases value with
  | none => exact AList.lookup_erase_ne hne
  | some v => exact AList.lookup_insert_ne hne

theorem prefix_gate (r : Recorder) (n : ℕ) : "security:".toList <+: (r.gate n).toList := by
  rw [Recorder.gate_eq]
  exact Kind.prefix_name _ _

theorem apart_gate (h : Apart s) (htime : s.now ≤ time) (hi : s.calls[i]? = some call)
    (hthreshold : call.recorder.kind.threshold ≤ call.count) : Apart (s.gate time i call) := by
  by_cases hanswer : (s.answer time call).1 = true
  · have hcalls : (s.gate time i call).calls = s.calls.set i { call with gate := .won time } := by
      rw [State.gate, if_pos hanswer]
    have hlasts : ∀ c ∈ s.calls, ∀ t, c.gate = .won t →
        Lasts (s.answer time call).2 (c.recorder.gate c.count) (t + c.recorder.kind.window) := fun c hc t ht =>
      lasts_answer ((h.past c hc t ht).trans htime) (h.lasts c hc t ht) call
    have hfree : ∀ c ∈ s.calls, c.recorder.key = call.recorder.key → c.count = call.count → ∀ t, c.gate = .won t →
        t + c.recorder.kind.window ≤ time := by
      intro c hc hkey hcount t ht
      have hsame : c.recorder.gate c.count = call.recorder.gate call.count := by
        rw [Recorder.gate, Recorder.gate, hkey, hcount]
      exact (hsame ▸ h.lasts c hc t ht).le_of_live (setNx_fst.mp hanswer)
    have hmem : ∀ c ∈ (s.gate time i call).calls, c = { call with gate := .won time } ∨ c ∈ s.calls := by
      intro c hc
      rw [hcalls] at hc
      exact (List.mem_or_eq_of_mem_set hc).symm
    refine ⟨fun c hc t ht => ?_, fun c hc t ht => ?_, fun c hc t ht => ?_, ?_⟩
    · rcases hmem c hc with rfl | hc
      · obtain rfl := Gate.won.inj ht
        exact le_refl _
      · exact (h.past c hc t ht).trans htime
    · rcases hmem c hc with rfl | hc
      · exact hthreshold
      · exact h.reached c hc t ht
    · rcases hmem c hc with rfl | hc
      · obtain rfl := Gate.won.inj ht
        exact lasts_of_setNx hanswer
      · exact hlasts c hc t ht
    · intro a b c d hab ha hb hkey hcount t u ht hu
      rw [hcalls, getElem?_set_of hi] at ha hb
      split_ifs at ha with hia
      · obtain rfl := Option.some.inj ha
        obtain rfl := Gate.won.inj ht
        rw [if_neg (hia ▸ hab)] at hb
        exact .inr (hfree d (List.mem_of_getElem? hb) hkey.symm hcount.symm u hu)
      · split_ifs at hb with hib
        · obtain rfl := Option.some.inj hb
          obtain rfl := Gate.won.inj hu
          exact .inl (hfree c (List.mem_of_getElem? ha) hkey hcount t ht)
        · exact h.apart a b c d hab ha hb hkey hcount t u ht hu
  · refine h.of_setsNone ?_ htime fun r n t ht hl => lasts_answer (ht.trans htime) hl call
    refine setsNone_set hi rfl rfl rfl fun t ht => ?_
    rw [if_neg hanswer] at ht
    cases ht

theorem step_apart {e : Event} (h : step s e = some s') (hs : Apart s) : Apart s' := by
  obtain ⟨htime, hstep⟩ := step_cases h
  cases hstep with
  | incr r ha => exact hs.of_setsNone (setsNone_incr r) htime fun _ _ _ _ hl => hl.incr _
  | expire hi =>
    exact hs.of_setsNone (setsNone_set hi rfl rfl rfl fun _ => id) htime fun _ _ _ ht hl =>
      lasts_expire (ht.trans htime) hl _
  | gate hi hthreshold _ => exact apart_gate hs htime hi hthreshold
  | log hi hgate => exact hs.of_setsNone (setsNone_set hi rfl rfl rfl fun _ => id) htime fun _ _ _ _ hl => hl
  | other value hkey =>
    exact hs.of_setsNone (fun i c t hi ht => ⟨c, hi, rfl, rfl, ht⟩) htime fun r n t _ hl =>
      hl.congr (lookup_other hkey value (prefix_gate r n))

theorem run_apart {es : List Event} (hs : s.calls = []) (h : run step s es = some s') : Apart s' := by
  refine run_inv (I := Apart) (fun _ _ _ hi hstep => step_apart hstep hi) ⟨?_, ?_, ?_, ?_⟩ h <;> simp [hs]

end Apart

/-! ## The calls of one window -/

/-- The key is not that of a gate. -/
def Recorder.Plain (r : Recorder) : Prop := ∀ (base : String) (n : ℕ), r.key ≠ base ++ ":event:" ++ toString n

/-- The counts that the calls for a key got, first call first. -/
def State.counts (s : State) (key : String) : List ℕ :=
  s.calls.filterMap fun call => if call.recorder.key = key then some call.count else none

theorem filterMap_set {α β : Type} {a b : α} (g : α → Option β) (hg : g b = g a) :
    ∀ {l : List α} (i : ℕ), l[i]? = some a → (l.set i b).filterMap g = l.filterMap g
  | [], _, hi => by simp at hi
  | c :: l, 0, hi => by
    obtain rfl : c = a := by simpa using hi
    rw [List.set_cons_zero, List.filterMap_cons, List.filterMap_cons, hg]
  | c :: l, i + 1, hi => by
    rw [List.set_cons_succ, List.filterMap_cons, List.filterMap_cons, filterMap_set g hg i (by simpa using hi)]

/-- The counter of a recorder whose window has begun at `start`: the calls got the counts 1, 2, 3 and so on, and each that
asked for its gate set it. -/
structure Window (r : Recorder) (start : ℚ) (s : State) : Prop where
  start_le : start ≤ s.now
  plain : ∀ call ∈ s.calls, call.recorder.kind = r.kind → call.recorder.Plain
  counts : s.counts r.key = List.range' 1 (s.counts r.key).length
  unused : s.counts r.key = [] → s.redis.live s.now r.key = none
  lasts : s.counts r.key ≠ [] → Lasts s.redis r.key (start + r.kind.window)
  value : s.counts r.key ≠ [] → (s.redis.lookup r.key).map RedisValue.value = some (s.counts r.key).length
  gates : ∀ n, (∀ call ∈ s.calls, call.recorder.key = r.key → call.count = n → call.gate = .pending) →
    s.redis.live s.now (r.gate n) = none
  won : ∀ call ∈ s.calls, call.recorder.key = r.key → call.gate ≠ .lost

section Window

variable {r : Recorder} {start time : ℚ} {s s' : State} {i : ℕ} {call : Call}

theorem Recorder.Plain.ne_gate {r' : Recorder} (h : r'.kind = r.kind → r'.Plain) (n : ℕ) : r.gate n ≠ r'.key :=
  fun he => h (kind_eq_of_gate he).symm r.key n he.symm

theorem counts_set (hi : s.calls[i]? = some call) {call' : Call} (hcalls : s'.calls = s.calls.set i call')
    (hrecorder : call'.recorder = call.recorder) (hcount : call'.count = call.count) (key : String) :
    s'.counts key = s.counts key := by
  rw [State.counts, hcalls]
  exact filterMap_set _ (by rw [hrecorder, hcount]) i hi

theorem counts_incr (r' : Recorder) : (s.incr time r').counts r.key =
    s.counts r.key ++ if r'.key = r.key then [(s.redis.incr time r'.key).1] else [] := by
  rw [State.counts, State.incr, List.filterMap_append, State.counts]
  split_ifs with hkey <;> simp [hkey]

/-- A count belongs to one call. -/
theorem Window.unique (h : Window r start s) {j : ℕ} {d : Call} (hi : s.calls[i]? = some call)
    (hj : s.calls[j]? = some d) (hkey : call.recorder.key = r.key) (hkey' : d.recorder.key = r.key)
    (hcount : d.count = call.count) : i = j := by
  have hnodup : (s.counts r.key).Nodup := by
    rw [h.counts]
    exact List.nodup_range'
  rw [State.counts, List.Nodup, List.pairwise_filterMap, List.pairwise_iff_getElem] at hnodup
  obtain ⟨hil, rfl⟩ := List.getElem?_eq_some_iff.mp hi
  obtain ⟨hjl, rfl⟩ := List.getElem?_eq_some_iff.mp hj
  rcases Nat.lt_trichotomy i j with hlt | heq | hgt
  · exact absurd hcount.symm (hnodup i j hil hjl hlt _ (if_pos hkey) _ (if_pos hkey'))
  · exact heq
  · exact absurd hcount (hnodup j i hjl hil hgt _ (if_pos hkey') _ (if_pos hkey))

/-- A call changes, and its command leaves the counter of the window alone or keeps its value and its expiry. -/
theorem Window.set (h : Window r start s) (hnow : s.now ≤ s'.now) (hi : s.calls[i]? = some call) {call' : Call}
    (hcalls : s'.calls = s.calls.set i call') (hrecorder : call'.recorder = call.recorder)
    (hcount : call'.count = call.count) (hpending : call'.gate = .pending → call.gate = .pending)
    (hwon : call.recorder.key = r.key → call'.gate ≠ .lost)
    (hlookup : call.recorder.key ≠ r.key → s'.redis.lookup r.key = s.redis.lookup r.key)
    (hlasts : Lasts s.redis r.key (start + r.kind.window) → Lasts s'.redis r.key (start + r.kind.window))
    (hvalue : (s'.redis.lookup r.key).map RedisValue.value = (s.redis.lookup r.key).map RedisValue.value)
    (hgates : ∀ n, (call.recorder.key = r.key → call.count = n → call'.gate = .pending) →
      s'.redis.lookup (r.gate n) = s.redis.lookup (r.gate n)) : Window r start s' := by
  have hcounts := counts_set hi hcalls hrecorder hcount r.key
  have hmem : ∀ c ∈ s'.calls, c = call' ∨ c ∈ s.calls := by
    intro c hc
    rw [hcalls] at hc
    exact (List.mem_or_eq_of_mem_set hc).symm
  have hcall : call ∈ s.calls := List.mem_of_getElem? hi
  have hmem' : call' ∈ s'.calls := by
    rw [hcalls]
    exact List.mem_set (List.getElem?_eq_some_iff.mp hi).1 _
  refine ⟨h.start_le.trans hnow, fun c hc hkind => ?_, ?_, fun hnone => ?_, fun hsome => ?_, fun hsome => ?_,
    fun n hall => ?_, fun c hc hkey => ?_⟩
  · rcases hmem c hc with rfl | hc
    · rw [hrecorder] at hkind ⊢
      exact h.plain call hcall hkind
    · exact h.plain c hc hkind
  · rw [hcounts]
    exact h.counts
  · rw [hcounts] at hnone
    have hother : call.recorder.key ≠ r.key := by
      intro hkey
      have hin : call.count ∈ s.counts r.key := List.mem_filterMap.mpr ⟨call, hcall, if_pos hkey⟩
      rw [hnone] at hin
      exact List.not_mem_nil hin
    rw [live_congr (hlookup hother)]
    exact live_mono (h.unused hnone) hnow
  · rw [hcounts] at hsome
    exact hlasts (h.lasts hsome)
  · rw [hcounts] at hsome ⊢
    rw [hvalue]
    exact h.value hsome
  · rw [live_congr (hgates n fun hkey hn => hall call' hmem' (hrecorder ▸ hkey) (hcount ▸ hn))]
    refine live_mono (h.gates n fun c hc hkey hn => ?_) hnow
    obtain ⟨j, hj⟩ := List.mem_iff_getElem?.mp hc
    by_cases hij : i = j
    · subst hij
      obtain rfl := Option.some.inj (hi.symm.trans hj)
      exact hpending (hall call' hmem' (hrecorder ▸ hkey) (hcount ▸ hn))
    · refine hall c (List.mem_of_getElem? (i := j) ?_) hkey hn
      rw [hcalls, getElem?_set_of hi, if_neg hij, hj]
  · rcases hmem c hc with rfl | hc
    · exact hwon (hrecorder ▸ hkey)
    · exact h.won c hc hkey

theorem window_expire (h : Window r start s) (htime : s.now ≤ time) (hi : s.calls[i]? = some call) :
    Window r start (s.expire time i call) := by
  have hcall : call ∈ s.calls := List.mem_of_getElem? hi
  refine h.set htime hi rfl rfl rfl id (h.won call hcall) (fun hkey => lookup_expire_ne hkey.symm _)
    (fun hlasts => hlasts.expire fun hkey => ?_) ?_ fun n _ => lookup_expire_ne ?_ _
  · rw [Recorder.kind_eq_of_key hkey]
    linarith [h.start_le]
  · by_cases hkey : call.recorder.key = r.key
    · rw [State.expire, hkey]
      exact value_expire _
    · exact congrArg _ (lookup_expire_ne (Ne.symm hkey) _)
  · exact Recorder.Plain.ne_gate (h.plain call hcall) n

theorem window_gate (h : Window r start s) (hr : r.Plain) (htime : s.now ≤ time) (hi : s.calls[i]? = some call)
    (hgate : call.gate = .pending) : Window r start (s.gate time i call) := by
  have hne : r.key ≠ call.recorder.gate call.count := hr call.recorder.key call.count
  have hlookup : (s.gate time i call).redis.lookup r.key = s.redis.lookup r.key := lookup_setNx_ne hne
  refine h.set htime hi rfl rfl rfl (fun _ => hgate) (fun hkey hlost => ?_) (fun _ => hlookup)
    (fun hlasts => hlasts.congr hlookup) (congrArg _ hlookup) fun n hpending => lookup_setNx_ne fun he => ?_
  · -- No other call has got the count, so its gate is free.
    have hsame : r.gate call.count = call.recorder.gate call.count := by rw [Recorder.gate, Recorder.gate, hkey]
    have hfree : s.redis.live s.now (r.gate call.count) = none := by
      refine h.gates call.count fun d hd hkey' hcount => ?_
      obtain ⟨j, hj⟩ := List.mem_iff_getElem?.mp hd
      obtain rfl := h.unique hi hj hkey hkey' hcount
      obtain rfl := Option.some.inj (hi.symm.trans hj)
      exact hgate
    have hanswer : (s.answer time call).1 = true := setNx_fst.mpr (by rw [← hsame]; exact live_mono hfree htime)
    rw [if_pos hanswer] at hlost
    cases hlost
  · obtain ⟨hkey, hcount⟩ := Recorder.gate_inj he
    have habsurd := hpending hkey.symm hcount.symm
    split_ifs at habsurd

/-- A new call of the window gets the next count. -/
theorem Window.incr_own (h : Window r start s) (htime : s.now ≤ time) (hbefore : time < start + r.kind.window) :
    ∃ v, s.redis.incr time r.key = ((s.counts r.key).length + 1, s.redis.insert r.key v) ∧
      v.value = (s.counts r.key).length + 1 ∧ ∀ expiry ∈ v.expiresAt, start + r.kind.window ≤ expiry := by
  by_cases hnone : s.counts r.key = []
  · refine ⟨⟨1, none⟩, ?_, by rw [hnone]; rfl, fun _ he => absurd he (Option.not_mem_none _)⟩
    rw [Redis.incr, live_mono (h.unused hnone) htime, hnone]
    rfl
  · obtain ⟨v, hv, hexpiry⟩ := h.lasts hnone
    have hvalue := h.value hnone
    rw [hv, Option.map_some, Option.some.injEq] at hvalue
    refine ⟨{ v with value := v.value + 1 }, ?_, congrArg (· + 1) hvalue, hexpiry⟩
    rw [incr_of_live hv fun t ht => hbefore.trans_le (hexpiry t ht), hvalue]

theorem window_incr (h : Window r start s) (htime : s.now ≤ time) (hbefore : time < start + r.kind.window)
    {r' : Recorder} (hplain : r'.kind = r.kind → r'.Plain) : Window r start (s.incr time r') := by
  have hmem : ∀ c ∈ (s.incr time r').calls, c ∈ s.calls ∨ c.recorder = r' ∧ c.gate = .pending := by
    intro c hc
    rcases List.mem_append.mp hc with hc | hc
    · exact .inl hc
    · obtain rfl := List.mem_singleton.mp hc
      exact .inr ⟨rfl, rfl⟩
  have hplain' : ∀ c ∈ (s.incr time r').calls, c.recorder.kind = r.kind → c.recorder.Plain := by
    intro c hc hkind
    rcases hmem c hc with hc | ⟨rfl, -⟩
    · exact h.plain c hc hkind
    · exact hplain hkind
  have hwon : ∀ c ∈ (s.incr time r').calls, c.recorder.key = r.key → c.gate ≠ .lost := by
    intro c hc hkey
    rcases hmem c hc with hc | ⟨-, hgate⟩
    · exact h.won c hc hkey
    · rw [hgate]
      nofun
  have hgates : ∀ n, (∀ c ∈ (s.incr time r').calls, c.recorder.key = r.key → c.count = n → c.gate = .pending) →
      (s.incr time r').redis.live time (r.gate n) = none := by
    intro n hall
    have hlookup : (s.incr time r').redis.lookup (r.gate n) = s.redis.lookup (r.gate n) :=
      lookup_incr_ne (Recorder.Plain.ne_gate hplain n)
    rw [live_congr hlookup]
    exact live_mono (h.gates n fun c hc => hall c (List.mem_append_left _ hc)) htime
  by_cases hkey : r'.key = r.key
  · obtain ⟨v, hincr, hvalue, hexpiry⟩ := h.incr_own htime hbefore
    have hcounts : (s.incr time r').counts r.key = s.counts r.key ++ [(s.counts r.key).length + 1] := by
      rw [counts_incr, if_pos hkey, hkey, hincr]
    have hlookup : (s.incr time r').redis.lookup r.key = some v := by
      rw [State.incr, hkey, hincr]
      exact AList.lookup_insert _
    refine ⟨h.start_le.trans htime, hplain', ?_, fun hnone => ?_, fun _ => ⟨v, hlookup, hexpiry⟩, fun _ => ?_, hgates,
      hwon⟩
    · rw [hcounts, List.length_append, List.length_singleton, List.range'_concat, ← h.counts, Nat.one_mul, Nat.add_comm 1]
    · rw [hcounts] at hnone
      exact absurd hnone (List.append_ne_nil_of_right_ne_nil _ (List.cons_ne_nil _ _))
    · rw [hlookup, hcounts, List.length_append, List.length_singleton, Option.map_some, hvalue]
  · have hcounts : (s.incr time r').counts r.key = s.counts r.key := by
      rw [counts_incr, if_neg hkey, List.append_nil]
    have hlookup : (s.incr time r').redis.lookup r.key = s.redis.lookup r.key := lookup_incr_ne (Ne.symm hkey)
    refine ⟨h.start_le.trans htime, hplain', ?_, fun hnone => ?_, fun hsome => ?_, fun hsome => ?_, hgates, hwon⟩
    · rw [hcounts]
      exact h.counts
    · rw [hcounts] at hnone
      rw [live_congr hlookup]
      exact live_mono (h.unused hnone) htime
    · rw [hcounts] at hsome
      exact (h.lasts hsome).congr hlookup
    · rw [hcounts] at hsome ⊢
      rw [hlookup]
      exact h.value hsome

theorem window_other (h : Window r start s) (htime : s.now ≤ time) {key : String}
    (hkey : ¬ "security:".toList <+: key.toList) (value : Option RedisValue) : Window r start (s.other time key value) := by
  have hlookup : (s.other time key value).redis.lookup r.key = s.redis.lookup r.key :=
    lookup_other hkey value (Kind.prefix_name _ _)
  refine ⟨h.start_le.trans htime, h.plain, h.counts, fun hnone => ?_, fun hsome => (h.lasts hsome).congr hlookup,
    fun hsome => ?_, fun n hall => ?_, h.won⟩
  · rw [live_congr hlookup]
    exact live_mono (h.unused hnone) htime
  · rw [hlookup]
    exact h.value hsome
  · rw [live_congr (lookup_other hkey value (prefix_gate r n))]
    exact live_mono (h.gates n hall) htime

/-- The event belongs to the window and does not count under the key of a gate. -/
def InWindow (r : Recorder) (start : ℚ) (e : Event) : Prop :=
  e.time < start + r.kind.window ∧ ∀ r', e.action = .incr r' → r'.kind = r.kind → r'.Plain

theorem step_window {e : Event} (h : step s e = some s') (hr : r.Plain) (he : InWindow r start e)
    (hs : Window r start s) : Window r start s' := by
  obtain ⟨htime, hstep⟩ := step_cases h
  cases hstep with
  | incr r' ha => exact window_incr hs htime he.1 (he.2 r' ha)
  | expire hi => exact window_expire hs htime hi
  | gate hi _ hgate => exact window_gate hs hr htime hi hgate
  | log hi hgate =>
    exact hs.set htime hi rfl rfl rfl id (hs.won _ (List.mem_of_getElem? hi)) (fun _ => rfl) id rfl fun _ _ => rfl
  | other value hkey => exact window_other hs htime hkey value

theorem run_window {es : List Event} (h : run step s es = some s') (hr : r.Plain)
    (hes : ∀ e ∈ es, InWindow r start e) (hs : Window r start s) : Window r start s' := by
  induction es generalizing s with
  | nil =>
    obtain rfl := Option.some.inj h
    exact hs
  | cons e es ih =>
    obtain ⟨t, ht, h⟩ := run_cons_iff.mp h
    exact ih h (fun e' he' => hes e' (List.mem_cons_of_mem _ he')) (step_window ht hr (hes e List.mem_cons_self) hs)

end Window

theorem filter_range' {t : ℕ} (ht : 0 < t) (n : ℕ) :
    (List.range' 1 n).filter (fun m => t ≤ m) = List.range' t (n + 1 - t) := by
  induction n with
  | zero => rw [Nat.sub_eq_zero_of_le (by omega)]; rfl
  | succ n ih =>
    rw [List.range'_concat, List.filter_append, ih, Nat.one_mul, Nat.add_comm 1]
    by_cases hle : t ≤ n + 1
    · have hsub : n + 1 + 1 - t = (n + 1 - t) + 1 := by omega
      have hlast : t + 1 * (n + 1 - t) = n + 1 := by omega
      rw [hsub, List.range'_concat, hlast]
      simp [hle]
    · rw [Nat.sub_eq_zero_of_le (by omega), Nat.sub_eq_zero_of_le (by omega)]
      simp [hle]

/-- The call has run to its end. -/
def Call.Finished (call : Call) : Prop :=
  call.recorder.kind.threshold ≤ call.count → call.gate ≠ .pending ∧ ∀ t, call.gate = .won t → call.logged = true

/-- Calls that record exactly from a count on. -/
theorem map_count_recorded {key : String} {threshold : ℕ} : ∀ {calls : List Call},
    (∀ call ∈ calls, call.recorder.key = key → if threshold ≤ call.count then
      ∃ t, call.recorded = some ⟨call.recorder, call.count, t⟩ else call.recorded = none) →
    ((calls.filterMap Call.recorded).filter fun e => e.recorder.key = key).map Recorded.count =
      (calls.filterMap fun call => if call.recorder.key = key then some call.count else none).filter
        fun n => threshold ≤ n
  | [], _ => rfl
  | call :: calls, h => by
    have ih := map_count_recorded fun c hc => h c (List.mem_cons_of_mem _ hc)
    rw [List.filterMap_cons, List.filterMap_cons]
    by_cases hkey : call.recorder.key = key
    · have hcall := h call List.mem_cons_self hkey
      rw [if_pos hkey]
      split_ifs at hcall with hthreshold
      · obtain ⟨t, hrecorded⟩ := hcall
        rw [hrecorded]
        simp [hkey, hthreshold, ih]
      · rw [hcall]
        simp [hthreshold, ih]
    · rw [if_neg hkey]
      cases hrecorded : call.recorded with
      | none => exact ih
      | some e =>
        obtain ⟨-, -, hrecorder, -⟩ := Call.recorded_eq_some.mp hrecorded
        simp [hrecorder, hkey, ih]

theorem length_counts (s : State) (key : String) :
    (s.counts key).length = (s.calls.filter fun call => call.recorder.key = key).length := by
  rw [State.counts]
  induction s.calls with
  | nil => rfl
  | cons call calls ih =>
    by_cases hkey : call.recorder.key = key <;> simp [hkey, ih]

/-- Counters of clients, whose ids have no colon, do not count under the key of a gate. -/
theorem plain_of_client {r : Recorder} {clientId tail : String} (hsubject : r.subject = clientId ++ ":" ++ tail)
    (hclient : ':' ∉ clientId.toList) (hevent : clientId ≠ "event") (htail : ':' ∉ tail.toList) : r.Plain := by
  intro base n h
  have hlists := congrArg String.toList h
  rw [Recorder.key, hsubject] at hlists
  simp only [String.toList_append] at hlists
  have hcolons : (r.kind.name.toList ++ clientId.toList) ++ ':' :: tail.toList =
      (base.toList ++ ":event".toList) ++ ':' :: (toString n).toList := by simpa [List.append_assoc] using hlists
  obtain ⟨hnames, -⟩ := append_colon_inj htail (Recorder.colon_notMem_repr n) hcolons
  obtain ⟨name, hname⟩ : ∃ name : List Char, r.kind.name.toList = name ++ [':'] := by
    cases r.kind <;> exact ⟨_, (List.dropLast_append_getLast (List.cons_ne_nil _ _)).symm⟩
  have hsplit : name ++ ':' :: clientId.toList = base.toList ++ ':' :: "event".toList := by
    rw [hname] at hnames
    simpa [List.append_assoc] using hnames
  exact hevent (String.toList_inj.mp (append_colon_inj hclient (by decide) hsplit).2)

theorem plain_of_largePrompt {clientId promptKey endpoint : String} {promptTokens : ℤ} {r : Recorder}
    (h : maybeRecordRepeatedLargePrompt clientId promptTokens promptKey endpoint = some r)
    (hclient : ':' ∉ clientId.toList) (hevent : clientId ≠ "event") (hkey : ':' ∉ promptKey.toList) : r.Plain := by
  unfold maybeRecordRepeatedLargePrompt at h
  split_ifs at h
  obtain rfl := Option.some.inj h
  exact plain_of_client rfl hclient hevent hkey

theorem plain_of_errorBurst {clientId endpoint : String} {statusCode : ℕ} {backendName : Option String} {r : Recorder}
    (h : maybeRecordRequestErrorBurst clientId endpoint statusCode backendName = some r)
    (hclient : ':' ∉ clientId.toList) (hevent : clientId ≠ "event") : r.Plain := by
  unfold maybeRecordRequestErrorBurst at h
  split_ifs at h <;> obtain rfl := Option.some.inj h <;> exact plain_of_client rfl hclient hevent (Recorder.colon_notMem_repr _)

/-! ## A call alone -/

/-- The events of the database. -/
def State.events (s : State) : List SecurityEvent := s.recorded.map fun e => e.recorder.event e.count

section Alone

variable {calls : List Call} {call : Call} {redis : Redis} {time : ℚ}

theorem step_expire_last (hcount : call.count = 1) (hexpired : call.expired = false) :
    step ⟨time, redis, calls ++ [call]⟩ ⟨time, .expire calls.length⟩ =
      some ⟨time, redis.expire time call.recorder.key call.recorder.kind.window,
        calls ++ [{ call with expired := true }]⟩ := by
  simp [step, State.expire, hcount, hexpired]

theorem step_gate_last (hthreshold : call.recorder.kind.threshold ≤ call.count) (hexpired : call.count = 1 → call.expired)
    (hgate : call.gate = .pending) :
    step ⟨time, redis, calls ++ [call]⟩ ⟨time, .gate calls.length⟩ =
      some ⟨time, (setNx redis time (call.recorder.gate call.count) call.recorder.kind.window).2,
        calls ++ [{ call with gate :=
          if (setNx redis time (call.recorder.gate call.count) call.recorder.kind.window).1 then .won time else .lost }]⟩ := by
  simp [step, State.gate, State.answer, hthreshold, hgate]
  exact ⟨hexpired, rfl⟩

theorem step_log_last {t : ℚ} (hgate : call.gate = .won t) (hlogged : call.logged = false) :
    step ⟨time, redis, calls ++ [call]⟩ ⟨time, .log calls.length⟩ =
      some ⟨time, redis, calls ++ [{ call with logged := true }]⟩ := by
  simp [step, State.log, hgate, hlogged]

theorem events_last : State.events ⟨time, redis, calls ++ [call]⟩ =
    State.events ⟨time, redis, calls⟩ ++ (call.recorded.map fun e => e.recorder.event e.count).toList := by
  rw [State.events, State.recorded, List.filterMap_append, List.map_append, State.events, State.recorded]
  cases h : call.recorded <;> simp [h]

/-- A call that nothing comes between leaves Redis and the events as the function of the source does. -/
theorem run_alone {s : State} (htime : s.now ≤ time) (r : Recorder) : ∃ es s', (∀ e ∈ es, e.time = time) ∧
    run step s es = some s' ∧ s'.redis = (r.record s.redis time).2 ∧
    s'.events = s.events ++ (r.record s.redis time).1.toList := by
  obtain ⟨count, redis, hincr⟩ : ∃ count redis, s.redis.incr time r.key = (count, redis) := ⟨_, _, rfl⟩
  have hstep : step s ⟨time, .incr r⟩ = some ⟨time, redis, s.calls ++ [⟨r, count, false, .pending, false⟩]⟩ := by
    simp [step, not_lt.mpr htime, State.incr, hincr]
  have hthreshold := r.kind.one_lt_threshold
  by_cases hone : count = 1
  · -- The counter is new.
    have hrecord : r.record s.redis time = (none, redis.expire time r.key r.kind.window) := by
      have hbelow : ¬ count ≥ r.kind.threshold := by omega
      simp only [Recorder.record, hincr, if_pos hone, if_neg hbelow]
    refine ⟨[⟨time, .incr r⟩, ⟨time, .expire s.calls.length⟩], _, by simp, run_cons_iff.mpr ⟨_, hstep,
      run_cons_iff.mpr ⟨_, step_expire_last hone rfl, rfl⟩⟩, ?_, ?_⟩
    · rw [hrecord]
    · rw [hrecord, events_last]
      rfl
  by_cases hbelow : count < r.kind.threshold
  · have hrecord : r.record s.redis time = (none, redis) := by
      simp only [Recorder.record, hincr, if_neg hone, if_neg (not_le.mpr hbelow)]
    refine ⟨[⟨time, .incr r⟩], _, by simp, run_cons_iff.mpr ⟨_, hstep, rfl⟩, ?_, ?_⟩
    · rw [hrecord]
    · rw [hrecord, events_last]
      rfl
  · obtain ⟨fresh, redis', hanswer⟩ : ∃ fresh redis', setNx redis time (r.gate count) r.kind.window = (fresh, redis') :=
      ⟨_, _, rfl⟩
    have hgate : step ⟨time, redis, s.calls ++ [⟨r, count, false, .pending, false⟩]⟩ ⟨time, .gate s.calls.length⟩ =
        some ⟨time, (setNx redis time (r.gate count) r.kind.window).2, s.calls ++ [⟨r, count, false,
          if (setNx redis time (r.gate count) r.kind.window).1 then .won time else .lost, false⟩]⟩ :=
      step_gate_last (not_lt.mp hbelow) (fun he => absurd he hone) rfl
    have hrecord : r.record s.redis time = (if fresh then some (r.event count) else none, redis') := by
      simp only [Recorder.record, hincr, if_neg hone, if_pos (not_lt.mp hbelow), hanswer]
    simp only [hanswer] at hgate
    cases fresh with
    | false =>
      refine ⟨[⟨time, .incr r⟩, ⟨time, .gate s.calls.length⟩], _, by simp, run_cons_iff.mpr ⟨_, hstep,
        run_cons_iff.mpr ⟨_, hgate, rfl⟩⟩, ?_, ?_⟩
      · rw [hrecord]
      · rw [hrecord, events_last]
        rfl
    | true =>
      refine ⟨[⟨time, .incr r⟩, ⟨time, .gate s.calls.length⟩, ⟨time, .log s.calls.length⟩], _, by simp,
        run_cons_iff.mpr ⟨_, hstep, run_cons_iff.mpr ⟨_, hgate, run_cons_iff.mpr ⟨_, step_log_last rfl rfl, rfl⟩⟩⟩,
        ?_, ?_⟩
      · rw [hrecord]
      · rw [hrecord, events_last]
        rfl

end Alone

/-! ## The alerts -/

/-- However calls interleave, end early or follow each other, the gates of two events for the same count of one counter
are set at least a window apart, and no event is recorded below the threshold. -/
theorem events_apart {s s' : State} {es : List Event} (hs : s.calls = []) (h : run step s es = some s') :
    (∀ e ∈ s'.recorded, e.recorder.kind.threshold ≤ e.count) ∧
      s'.recorded.Pairwise fun e e' =>
        e.recorder.key = e'.recorder.key → e.count = e'.count → e.Before e' ∨ e'.Before e := by
  have hapart := run_apart hs h
  constructor
  · intro e he
    obtain ⟨call, hcall, hrecorded⟩ := List.mem_filterMap.mp he
    obtain ⟨hgate, -, hrecorder, hcount⟩ := Call.recorded_eq_some.mp hrecorded
    rw [hrecorder, hcount]
    exact hapart.reached call hcall _ hgate
  · rw [State.recorded, List.pairwise_filterMap, List.pairwise_iff_getElem]
    intro i j hi hj hij e he e' he' hkey hcount
    obtain ⟨hgate, -, hrecorder, hcount'⟩ := Call.recorded_eq_some.mp he
    obtain ⟨hgate', -, hrecorder', hcount''⟩ := Call.recorded_eq_some.mp he'
    rw [hrecorder, hrecorder'] at hkey
    rw [hcount', hcount''] at hcount
    rw [Recorded.Before, Recorded.Before, hrecorder, hrecorder']
    exact hapart.apart i j _ _ hij.ne (List.getElem?_eq_getElem hi) (List.getElem?_eq_getElem hj) hkey hcount _ _ hgate
      hgate'

/-- Three prompts, of which the first lets the counter expire and the last records the event. -/
def threePrompts (r : Recorder) : List Event :=
  [⟨0, .incr r⟩, ⟨1, .expire 0⟩, ⟨2, .incr r⟩, ⟨3, .incr r⟩, ⟨4, .gate 2⟩, ⟨5, .log 2⟩]

theorem run_threePrompts {r : Recorder} (hkind : r.kind = .promptRepeat) (hr : r.Plain) :
    ∃ s', run step ⟨0, ∅, []⟩ (threePrompts r) = some s' ∧
      s'.calls = [⟨r, 1, true, .pending, false⟩, ⟨r, 2, false, .pending, false⟩, ⟨r, 3, false, .won 4, true⟩] := by
  have hne : r.gate 3 ≠ r.key := fun he => hr r.key 3 he.symm
  norm_num [-AList.insert_empty, Option.filter_some, threePrompts, run, step, State.incr, State.expire, State.gate,
    State.answer, State.log, setNx, Redis.incr, Redis.expire, Redis.live, hkind, Kind.threshold, Kind.window, hne]
  exact ⟨_, ⟨⟨by simp, by simp⟩, rfl⟩, rfl⟩

theorem exists_largePrompt : ∃ r : Recorder,
    maybeRecordRepeatedLargePrompt "7" 3000 "c0ffee" "/v1/chat/completions" = some r ∧ r.kind = .promptRepeat ∧
      r.Plain := by
  obtain ⟨r, hr⟩ : ∃ r, maybeRecordRepeatedLargePrompt "7" 3000 "c0ffee" "/v1/chat/completions" = some r := ⟨_, rfl⟩
  refine ⟨r, hr, ?_, plain_of_largePrompt hr (by decide) (by decide) (by decide)⟩
  obtain rfl := Option.some.inj hr
  rfl

theorem events_apart_three : ∃ r s', run step ⟨0, ∅, []⟩ (threePrompts r) = some s' ∧
    (∀ e ∈ s'.recorded, e.recorder.kind.threshold ≤ e.count) ∧
      s'.recorded.Pairwise fun e e' =>
        e.recorder.key = e'.recorder.key → e.count = e'.count → e.Before e' ∨ e'.Before e := by
  obtain ⟨r, -, hkind, hplain⟩ := exists_largePrompt
  obtain ⟨s', hrun, -⟩ := run_threePrompts hkind hplain
  exact ⟨r, s', hrun, events_apart rfl hrun⟩

/-- If a counter and its gates are free when a window begins and no call of its kind counts under the key of a gate, the
calls of the window record, once all have run to their end, one event for each count from the threshold to the number of
the calls and nothing else. -/
theorem events_complete {r : Recorder} (hr : r.Plain) {s s' : State} {es : List Event} (hs : s.calls = [])
    (hcounter : s.redis.live s.now r.key = none) (hgates : ∀ n, s.redis.live s.now (r.gate n) = none)
    (h : run step s es = some s') (hes : ∀ e ∈ es, InWindow r s.now e)
    (hdone : ∀ call ∈ s'.calls, call.recorder.key = r.key → call.Finished) :
    (s'.recorded.filter fun e => e.recorder.key = r.key).map Recorded.count =
      List.range' r.kind.threshold
        ((s'.calls.filter fun call => call.recorder.key = r.key).length + 1 - r.kind.threshold) := by
  have hcounts : s.counts r.key = [] := by rw [State.counts, hs]; rfl
  have hwindow : Window r s.now s' := by
    refine run_window h hr hes ⟨le_refl _, ?_, ?_, fun _ => hcounter, ?_, ?_, fun n _ => hgates n, ?_⟩
    · simp [hs]
    · rw [hcounts]; rfl
    · exact fun hne => absurd hcounts hne
    · exact fun hne => absurd hcounts hne
    · simp [hs]
  have hapart := run_apart hs h
  have hcalls : ∀ call ∈ s'.calls, call.recorder.key = r.key → if r.kind.threshold ≤ call.count then
      ∃ t, call.recorded = some ⟨call.recorder, call.count, t⟩ else call.recorded = none := by
    intro call hcall hkey
    rw [← Recorder.kind_eq_of_key hkey]
    split_ifs with hthreshold
    · obtain ⟨hpending, hlogged⟩ := hdone call hcall hkey hthreshold
      cases hgate : call.gate with
      | pending => exact absurd hgate hpending
      | lost => exact absurd hgate (hwindow.won call hcall hkey)
      | won t => exact ⟨t, Call.recorded_eq_some.mpr ⟨hgate, hlogged t hgate, rfl, rfl⟩⟩
    · refine Option.eq_none_iff_forall_ne_some.mpr fun e he => hthreshold ?_
      exact hapart.reached call hcall e.time (Call.recorded_eq_some.mp he).1
  rw [State.recorded, map_count_recorded hcalls, ← length_counts]
  show (s'.counts r.key).filter _ = _
  rw [hwindow.counts, filter_range' (Nat.lt_of_succ_lt (Kind.one_lt_threshold _)), List.length_range']

theorem events_complete_three : ∃ r s', run step ⟨0, ∅, []⟩ (threePrompts r) = some s' ∧
    (s'.recorded.filter fun e => e.recorder.key = r.key).map Recorded.count =
      List.range' r.kind.threshold
        ((s'.calls.filter fun call => call.recorder.key = r.key).length + 1 - r.kind.threshold) := by
  obtain ⟨r, -, hkind, hplain⟩ := exists_largePrompt
  obtain ⟨s', hrun, hcalls⟩ := run_threePrompts hkind hplain
  refine ⟨r, s', hrun, events_complete hplain rfl rfl (fun _ => rfl) hrun ?_ ?_⟩
  · have hwindow : r.kind.window = 900 := by rw [hkind]; rfl
    intro e he
    simp only [threePrompts, List.mem_cons, List.not_mem_nil, or_false] at he
    rw [InWindow, hwindow]
    rcases he with rfl | rfl | rfl | rfl | rfl | rfl <;> refine ⟨by norm_num, fun r' hr' _ => ?_⟩ <;> cases hr' <;>
      exact hplain
  · intro call hcall _
    have hthreshold : r.kind.threshold = 3 := by rw [hkind]; rfl
    simp only [hcalls, List.mem_cons, List.not_mem_nil, or_false] at hcall
    rcases hcall with rfl | rfl | rfl <;> intro hle
    · exact absurd (hthreshold ▸ hle) (show ¬ 3 ≤ 1 by decide)
    · exact absurd (hthreshold ▸ hle) (show ¬ 3 ≤ 2 by decide)
    · exact ⟨nofun, fun _ _ => rfl⟩

end LlmStore.Clients.Alerts
