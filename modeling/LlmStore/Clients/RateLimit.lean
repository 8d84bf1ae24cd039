import Mathlib.Data.Rat.Floor
import Mathlib.Tactic.Linarith
import LlmStore.Clients.SourceIp
import LlmStore.Lib.Run

/-!
# The limit for a minute

`services/rate_limit.py`: a call reads the clock, increments the counter of its minute and, if it was the first, lets
the counter expire after 65 seconds; it is refused if the counter is over the limit. Calls of many processes interleave
at these three points. As long as an `INCR` reaches Redis less than five seconds after its call read the clock, a counter
outlives the calls of its minute, so the calls get the numbers 1, 2, 3 and so on in the order of their `INCR`
(`minute_admits_first`).
-/

namespace LlmStore.Clients.RateLimit

open LlmStore.Lib

/-! ## The two limiters -/

/-- Whom a limiter counts: a client, or the address that a request comes from. -/
inductive Subject where
  | client (clientId : String)
  | ip (sourceIp : String)
  deriving DecidableEq

/-- `int(time.time() // 60)`. -/
def currentMinute (now : ℚ) : ℤ := (now / 60).floor

/-- The key of a counter. -/
def rateKey : Subject → ℤ → String
  | .client clientId, minute => "ratelimit:client:" ++ clientId ++ ":" ++ toString minute
  | .ip sourceIp, minute => "ratelimit:ip:" ++ sourceIp ++ ":" ++ toString minute

/-- The texts of `RateLimitExceeded`. -/
def exceeded (limitPerMinute : ℤ) : Subject → String
  | .client _ => "client exceeded " ++ toString limitPerMinute ++ " requests per minute"
  | .ip sourceIp => "IP address " ++ sourceIp ++ " exceeded " ++ toString limitPerMinute ++ " requests per minute"

/-- Both functions, when nothing comes between their commands. -/
def enforce (redis : Redis) (now : ℚ) (subject : Subject) (limitPerMinute : ℤ) : Except String Unit × Redis :=
  let key := rateKey subject (currentMinute now)
  let (current, redis) := redis.incr now key
  let redis := if current = 1 then redis.expire now key 65 else redis
  if current > limitPerMinute then (.error (exceeded limitPerMinute subject), redis) else (.ok (), redis)

/-- `enforce_rate_limit`. -/
def enforceRateLimit (redis : Redis) (now : ℚ) (clientId : String) (limitPerMinute : ℤ) : Except String Unit × Redis :=
  enforce redis now (.client clientId) limitPerMinute

theorem enforce_ip (redis : Redis) (now : ℚ) (sourceIp : String) (limitPerMinute : ℤ) :
    enforce redis now (.ip sourceIp) limitPerMinute = enforceIpRateLimit redis now sourceIp limitPerMinute := rfl

/-! ## Keys -/

theorem colon_notMem_toString (m : ℤ) : ':' ∉ (toString m).toList := by
  have hnat : ∀ n : ℕ, ':' ∉ (Nat.repr n).toList := by
    intro n hmem
    have hdigit := Nat.isDigit_of_mem_toDigits (b := 10) (by decide) (by decide)
      (show ':' ∈ Nat.toDigits 10 n by simpa [Nat.repr_eq_ofList_toDigits] using hmem)
    exact absurd hdigit (by decide)
  cases m with
  | ofNat n => exact hnat n
  | negSucc n =>
    intro hmem
    have hrepr : toString (Int.negSucc n) = "-" ++ Nat.repr (n + 1) := rfl
    rw [hrepr, String.toList_append, List.mem_append] at hmem
    rcases hmem with hsign | hdigits
    · exact absurd hsign (by decide)
    · exact hnat _ hdigits

/-- A number is known by its digits. -/
theorem eq_of_repr_eq {m n : ℕ} (h : Nat.repr m = Nat.repr n) : m = n := by
  have hread := congrArg (fun s : String => Nat.ofDigitChars 10 s.toList 0) h
  simpa [Nat.toList_repr] using hread

/-- An integer is known by its sign and its digits. -/
theorem eq_of_toString_eq {m n : ℤ} (h : toString m = toString n) : m = n := by
  have hsign : ∀ k l : ℕ, Nat.repr k ≠ "-" ++ Nat.repr l := by
    intro k l heq
    have hdigit := Nat.isDigit_of_mem_toDigits (b := 10) (c := '-') (n := k) (by decide) (by decide)
      (by rw [← Nat.toList_repr, heq]; simp)
    exact absurd hdigit (by decide)
  cases m with
  | ofNat k =>
    cases n with
    | ofNat l => exact congrArg Int.ofNat (eq_of_repr_eq h)
    | negSucc l => exact absurd h (hsign k (l + 1))
  | negSucc k =>
    cases n with
    | ofNat l => exact absurd h.symm (hsign l (k + 1))
    | negSucc l =>
      have hdigits : Nat.repr (k + 1) = Nat.repr (l + 1) := by
        have hlists := congrArg String.toList h
        refine String.toList_inj.mp ?_
        simpa [Int.repr_eq_if] using hlists
      exact congrArg Int.negSucc (Nat.succ_injective (eq_of_repr_eq hdigits))

/-- What follows the last colon of a text is determined by the text. -/
theorem append_colon_inj {s s' u u' : List Char} (hu : ':' ∉ u) (hu' : ':' ∉ u')
    (h : s ++ ':' :: u = s' ++ ':' :: u') : s = s' ∧ u = u' := by
  rcases List.append_eq_append_iff.mp h with ⟨gap, rfl, hgap⟩ | ⟨gap, rfl, hgap⟩
  · cases gap with
    | nil =>
      rw [List.nil_append, List.cons.injEq] at hgap
      exact ⟨(List.append_nil _).symm, hgap.2⟩
    | cons c gap =>
      rw [List.cons_append, List.cons.injEq] at hgap
      exact absurd (by rw [hgap.2]; simp) hu
  · cases gap with
    | nil =>
      rw [List.nil_append, List.cons.injEq] at hgap
      exact ⟨List.append_nil _, hgap.2.symm⟩
    | cons c gap =>
      rw [List.cons_append, List.cons.injEq] at hgap
      exact absurd (by rw [hgap.2]; simp) hu'

/-- Counters of other subjects and of other minutes have other keys. -/
theorem rateKey_inj {subject subject' : Subject} {m m' : ℤ} (h : rateKey subject m = rateKey subject' m') :
    subject = subject' ∧ m = m' := by
  have htail : ∀ {a a' b b' : String}, a ++ b ++ ":" ++ toString m = a' ++ b' ++ ":" ++ toString m' →
      (a ++ b = a' ++ b') ∧ m = m' := by
    intro a a' b b' hkeys
    have hlists := congrArg String.toList hkeys
    simp only [String.toList_append, List.append_assoc] at hlists
    have hcolons : (a.toList ++ b.toList) ++ ':' :: (toString m).toList =
        (a'.toList ++ b'.toList) ++ ':' :: (toString m').toList := by simpa [List.append_assoc] using hlists
    have hsplit := append_colon_inj (colon_notMem_toString m) (colon_notMem_toString m') hcolons
    refine ⟨String.toList_inj.mp ?_, eq_of_toString_eq (String.toList_inj.mp hsplit.2)⟩
    rw [String.toList_append, String.toList_append]
    exact hsplit.1
  cases subject with
  | client c =>
    cases subject' with
    | client c' =>
      obtain ⟨hc, hm⟩ := htail h
      refine ⟨congrArg Subject.client (String.toList_inj.mp ?_), hm⟩
      have hlists := congrArg String.toList hc
      rwa [String.toList_append, String.toList_append, List.append_cancel_left_eq] at hlists
    | ip s' =>
      have hlists := congrArg String.toList (htail h).1
      rw [String.toList_append, String.toList_append] at hlists
      exact absurd (congrArg (·[10]?) hlists) (by simp)
  | ip s =>
    cases subject' with
    | client c' =>
      have hlists := congrArg String.toList (htail h).1
      rw [String.toList_append, String.toList_append] at hlists
      exact absurd (congrArg (·[10]?) hlists) (by simp)
    | ip s' =>
      obtain ⟨hs, hm⟩ := htail h
      refine ⟨congrArg Subject.ip (String.toList_inj.mp ?_), hm⟩
      have hlists := congrArg String.toList hs
      rwa [String.toList_append, String.toList_append, List.append_cancel_left_eq] at hlists

/-! ## Redis -/

section Redis

variable {redis : Redis} {now : ℚ} {key key' : String}

theorem incr_of_absent (h : redis.lookup key = none) : redis.incr now key = (1, redis.insert key ⟨1, none⟩) := by
  rw [Redis.incr, Redis.live, h]
  rfl

theorem incr_of_live {v : RedisValue} (h : redis.lookup key = some v) (hlive : ∀ t ∈ v.expiresAt, now < t) :
    redis.incr now key = (v.value + 1, redis.insert key { v with value := v.value + 1 }) := by
  have hfilter : redis.live now key = some v := by
    rw [Redis.live, h, Option.filter_some, if_pos]
    simpa [Option.all_eq_true] using hlive
  rw [Redis.incr, hfilter]

theorem lookup_incr_ne (hne : key' ≠ key) : (redis.incr now key).2.lookup key' = redis.lookup key' := by
  unfold Redis.incr
  split <;> exact AList.lookup_insert_ne hne

theorem lookup_expire_ne (hne : key' ≠ key) (seconds : ℚ) :
    (redis.expire now key seconds).lookup key' = redis.lookup key' := by
  unfold Redis.expire
  split
  · exact AList.lookup_insert_ne hne
  · rfl

/-- `EXPIRE` leaves the value alone. -/
theorem value_expire (seconds : ℚ) :
    ((redis.expire now key seconds).lookup key).map RedisValue.value = (redis.lookup key).map RedisValue.value := by
  unfold Redis.expire Redis.live
  cases h : redis.lookup key with
  | none => simp [h]
  | some v =>
    rw [Option.filter_some]
    split_ifs
    · rw [AList.lookup_insert]
      rfl
    · rw [h]

/-- It leaves the time of expiry alone or sets it. -/
theorem expiry_expire {seconds : ℚ} {v : RedisValue} (h : (redis.expire now key seconds).lookup key = some v) :
    v.expiresAt = some (now + seconds) ∨ redis.lookup key = some v := by
  unfold Redis.expire at h
  split at h
  · rw [AList.lookup_insert, Option.some.injEq] at h
    subst h
    exact .inl rfl
  · exact .inr h

end Redis

/-! ## Calls that interleave -/

/-- A call, from when it has read the clock. -/
structure Call where
  subject : Subject
  limit : ℤ
  readAt : ℚ
  /-- What `INCR` has answered. -/
  current : Option ℕ := none
  /-- It has sent `EXPIRE`. -/
  expired : Bool := false

def Call.minute (call : Call) : ℤ := currentMinute call.readAt

def Call.key (call : Call) : String := rateKey call.subject call.minute

/-- `RateLimitExceeded` is not raised. -/
def Call.admitted (call : Call) : Bool := call.current.any fun current : ℕ => ¬ (current : ℤ) > call.limit

/-- The calls so far, by their numbers, and Redis. -/
structure State where
  now : ℚ
  redis : Redis
  calls : List Call
  /-- The calls whose `INCR` has reached Redis, first one first. -/
  arrivals : List ℕ

inductive Action where
  | read (subject : Subject) (limit : ℤ)
  | incr (i : ℕ)
  | expire (i : ℕ)

/-- What happens at a time of the common clock. -/
structure Event where
  time : ℚ
  action : Action

namespace State

/-- A call has read the clock. -/
def read (s : State) (time : ℚ) (subject : Subject) (limit : ℤ) : State :=
  { s with now := time, calls := s.calls ++ [{ subject, limit, readAt := time }] }

/-- The `INCR` of call `i` reaches Redis. -/
def incr (s : State) (time : ℚ) (i : ℕ) (call : Call) : State where
  now := time
  redis := (s.redis.incr time call.key).2
  calls := s.calls.set i { call with current := some (s.redis.incr time call.key).1 }
  arrivals := s.arrivals ++ [i]

/-- Its `EXPIRE` reaches Redis. -/
def expire (s : State) (time : ℚ) (i : ℕ) (call : Call) : State :=
  { s with
    now := time
    redis := s.redis.expire time call.key 65
    calls := s.calls.set i { call with expired := true } }

end State

/-- The clock does not go back, a call sends one `INCR`, and one `EXPIRE` after it if the answer was 1. -/
def step (s : State) (e : Event) : Option State :=
  if e.time < s.now then none
  else match e.action with
    | .read subject limit => some (s.read e.time subject limit)
    | .incr i => (s.calls[i]?).bind fun call => if call.current = none then some (s.incr e.time i call) else none
    | .expire i => (s.calls[i]?).bind fun call =>
        if call.current = some 1 ∧ call.expired = false then some (s.expire e.time i call) else none

/-- An `INCR` reaches Redis less than five seconds after its call has read the clock. -/
def InTime (s : State) (e : Event) : Prop :=
  ∀ i call, e.action = .incr i → s.calls[i]? = some call → e.time < call.readAt + 5

/-- What a step can be. -/
inductive Step (s : State) (e : Event) : State → Prop
  | read (subject : Subject) (limit : ℤ) : Step s e (s.read e.time subject limit)
  | incr {i : ℕ} {call : Call} (ha : e.action = .incr i) (hi : s.calls[i]? = some call) (hc : call.current = none) :
      Step s e (s.incr e.time i call)
  | expire {i : ℕ} {call : Call} (hi : s.calls[i]? = some call) (hc : call.current = some 1) :
      Step s e (s.expire e.time i call)

theorem step_cases {s s' : State} {e : Event} (h : step s e = some s') : s.now ≤ e.time ∧ Step s e s' := by
  unfold step at h
  split_ifs at h with htime
  refine ⟨not_lt.mp htime, ?_⟩
  cases ha : e.action with
  | read subject limit =>
    rw [ha] at h
    obtain rfl := Option.some.inj h
    exact .read subject limit
  | incr i =>
    rw [ha] at h
    obtain ⟨call, hi, hstep⟩ := Option.bind_eq_some_iff.mp h
    split_ifs at hstep with hc
    obtain rfl := Option.some.inj hstep
    exact .incr ha hi hc
  | expire i =>
    rw [ha] at h
    obtain ⟨call, hi, hstep⟩ := Option.bind_eq_some_iff.mp h
    split_ifs at hstep with hc
    obtain rfl := Option.some.inj hstep
    exact .expire hi hc.1

/-- The events of a call when nothing comes between them. -/
def alone (s : State) (time : ℚ) (subject : Subject) (limit : ℤ) : List Event :=
  ⟨time, .read subject limit⟩ :: ⟨time, .incr s.calls.length⟩ ::
    if (s.redis.incr time (rateKey subject (currentMinute time))).1 = 1 then [⟨time, .expire s.calls.length⟩] else []

section Alone

variable {redis : Redis} {now : ℚ} {subject : Subject} {limit : ℤ}

theorem enforce_ok_iff : (enforce redis now subject limit).1 = .ok () ↔
    ¬ ((redis.incr now (rateKey subject (currentMinute now))).1 : ℤ) > limit := by
  unfold enforce
  dsimp only
  by_cases h : ((redis.incr now (rateKey subject (currentMinute now))).1 : ℤ) > limit
  · rw [if_pos h]
    exact iff_of_false nofun (not_not.mpr h)
  · rw [if_neg h]
    exact iff_of_true rfl h

theorem enforce_redis : (enforce redis now subject limit).2 =
    if (redis.incr now (rateKey subject (currentMinute now))).1 = 1 then
      (redis.incr now (rateKey subject (currentMinute now))).2.expire now (rateKey subject (currentMinute now)) 65
    else (redis.incr now (rateKey subject (currentMinute now))).2 := by
  unfold enforce
  dsimp only
  split_ifs <;> rfl

/-- Such a call leaves Redis as the function of the source does, and is refused exactly if that raises. -/
theorem run_alone {s : State} {time : ℚ} (htime : s.now ≤ time) :
    ∃ s', run step s (alone s time subject limit) = some s' ∧ s'.redis = (enforce s.redis time subject limit).2 ∧
      ((s'.calls[s.calls.length]?).any Call.admitted = true ↔ (enforce s.redis time subject limit).1 = .ok ()) := by
  have hread : step s ⟨time, .read subject limit⟩ = some (s.read time subject limit) := if_neg (not_lt.mpr htime)
  have hincr : step (s.read time subject limit) ⟨time, .incr s.calls.length⟩ =
      some ((s.read time subject limit).incr time s.calls.length ⟨subject, limit, time, none, false⟩) := by
    simp [step, State.read]
  have hcalls : ((s.read time subject limit).incr time s.calls.length ⟨subject, limit, time, none, false⟩).calls =
      s.calls ++
        [⟨subject, limit, time, some (s.redis.incr time (rateKey subject (currentMinute time))).1, false⟩] := by
    simp [State.incr, State.read, Call.key, Call.minute]
  have hredis : ((s.read time subject limit).incr time s.calls.length ⟨subject, limit, time, none, false⟩).redis =
      (s.redis.incr time (rateKey subject (currentMinute time))).2 := rfl
  have hnow : ((s.read time subject limit).incr time s.calls.length ⟨subject, limit, time, none, false⟩).now = time :=
    rfl
  generalize (s.read time subject limit).incr time s.calls.length ⟨subject, limit, time, none, false⟩ = s₂
    at hincr hcalls hredis hnow
  have hadmitted : ∀ expired, Call.admitted
      ⟨subject, limit, time, some (s.redis.incr time (rateKey subject (currentMinute time))).1, expired⟩ = true ↔
        (enforce s.redis time subject limit).1 = .ok () := by
    intro expired
    rw [enforce_ok_iff, Call.admitted, Option.any_some, decide_eq_true_eq]
  rw [enforce_redis, alone]
  split_ifs with hone
  · have hrow : s₂.calls[s.calls.length]? = some
        ⟨subject, limit, time, some (s.redis.incr time (rateKey subject (currentMinute time))).1, false⟩ := by
      simp [hcalls]
    have hexpire : step s₂ ⟨time, .expire s.calls.length⟩ = some (s₂.expire time s.calls.length
        ⟨subject, limit, time, some (s.redis.incr time (rateKey subject (currentMinute time))).1, false⟩) := by
      simp [step, hnow, hrow, hone]
    refine ⟨_, run_cons_iff.mpr ⟨_, hread, run_cons_iff.mpr ⟨_, hincr, run_cons_iff.mpr ⟨_, hexpire, rfl⟩⟩⟩, ?_, ?_⟩
    · rw [State.expire, hredis]
      rfl
    · rw [State.expire, List.getElem?_set, if_pos rfl, if_pos (List.getElem?_eq_some_iff.mp hrow).1, Option.any_some]
      exact hadmitted true
  · refine ⟨_, run_cons_iff.mpr ⟨_, hread, run_cons_iff.mpr ⟨_, hincr, rfl⟩⟩, hredis, ?_⟩
    rw [hcalls, List.getElem?_concat_length, Option.any_some]
    exact hadmitted false

end Alone

/-! ## The calls of a minute -/

/-- Call `i` counts for the subject and has read the minute. -/
def State.reads (s : State) (subject : Subject) (m : ℤ) (i : ℕ) : Bool :=
  (s.calls[i]?).any fun call => call.subject = subject && call.minute = m

/-- The calls that have read the minute. -/
def State.readers (s : State) (subject : Subject) (m : ℤ) : List ℕ :=
  (List.range s.calls.length).filter (s.reads subject m)

/-- Those of them whose `INCR` has reached Redis, first one first. -/
def State.arrived (s : State) (subject : Subject) (m : ℤ) : List ℕ := s.arrivals.filter (s.reads subject m)

def State.admits (s : State) (i : ℕ) : Bool := (s.calls[i]?).any Call.admitted

/-- A counter after some calls: without a call there is none. -/
def counterOf : ℕ → Option ℕ
  | 0 => none
  | n + 1 => some (n + 1)

/-- What holds of all calls. -/
structure Sound (s : State) : Prop where
  past : ∀ (i : ℕ) (call : Call), s.calls[i]? = some call → call.readAt ≤ s.now
  nodup : s.arrivals.Nodup
  arrived : ∀ i, i ∈ s.arrivals ↔ ∃ call, s.calls[i]? = some call ∧ call.current ≠ none

/-- The counter of a minute has the number of its calls and does not expire before the last of them, and every call got
its number. -/
structure Counts (subject : Subject) (m : ℤ) (s : State) : Prop where
  value : (s.redis.lookup (rateKey subject m)).map RedisValue.value = counterOf (s.arrived subject m).length
  expiry : ∀ v, s.redis.lookup (rateKey subject m) = some v → ∀ t ∈ v.expiresAt, 60 * m + 65 ≤ t
  rank : ∀ (r i : ℕ) (call : Call), (s.arrived subject m)[r]? = some i → s.calls[i]? = some call →
    call.current = some (r + 1)

theorem currentMinute_le (now : ℚ) : 60 * (currentMinute now : ℚ) ≤ now := by
  have hfloor := Int.floor_le (now / 60)
  have hcast : (currentMinute now : ℚ) ≤ now / 60 := hfloor
  linarith

theorem lt_currentMinute (now : ℚ) : now < 60 * (currentMinute now : ℚ) + 60 := by
  have hfloor := Int.lt_floor_add_one (now / 60)
  have hcast : now / 60 < (currentMinute now : ℚ) + 1 := hfloor
  linarith

section Steps

variable {s s' : State} {subject : Subject} {m : ℤ} {i : ℕ} {call : Call} {time : ℚ}

theorem reads_iff : s.reads subject m i = true ↔
    ∃ call, s.calls[i]? = some call ∧ call.subject = subject ∧ call.minute = m := by
  simp [State.reads, Option.any_eq_true]

/-- A row of a call is written again with the data that it has read. -/
theorem reads_set {call' : Call} (hi : s.calls[i]? = some call) (hcalls : s'.calls = s.calls.set i call')
    (hs : call'.subject = call.subject) (hr : call'.readAt = call.readAt) :
    s'.reads subject m = s.reads subject m := by
  funext j
  have hlt := (List.getElem?_eq_some_iff.mp hi).1
  rw [State.reads, State.reads, hcalls, List.getElem?_set]
  split_ifs with hj
  · subst hj
    rw [hi, Option.any_some, Option.any_some, hs, Call.minute, Call.minute, hr]
  · rfl

/-- Reading the clock does not concern the calls that have arrived. -/
theorem arrived_read (hsound : Sound s) (limit : ℤ) (who : Subject) :
    (s.read time who limit).arrived subject m = s.arrived subject m := by
  refine List.filter_congr fun j hj => ?_
  obtain ⟨call, hcall, -⟩ := (hsound.arrived j).mp hj
  rw [State.reads, State.reads, State.read, List.getElem?_append_left (List.getElem?_eq_some_iff.mp hcall).1]

theorem arrived_incr (hi : s.calls[i]? = some call) :
    (s.incr time i call).arrived subject m =
      s.arrived subject m ++ if call.subject = subject ∧ call.minute = m then [i] else [] := by
  have hreads : (s.incr time i call).reads subject m = s.reads subject m := reads_set hi rfl rfl rfl
  rw [State.arrived, hreads, State.incr, List.filter_append, State.arrived, List.filter_singleton, State.reads, hi,
    Option.any_some]
  by_cases h : call.subject = subject ∧ call.minute = m
  · rw [if_pos h, decide_eq_true h.1, decide_eq_true h.2]
    rfl
  · have hfalse : (decide (call.subject = subject) && decide (call.minute = m)) = false := by
      rw [← Bool.decide_and]
      exact decide_eq_false h
    rw [if_neg h, hfalse]
    rfl

theorem arrived_expire (hi : s.calls[i]? = some call) :
    (s.expire time i call).arrived subject m = s.arrived subject m := by
  have hreads : (s.expire time i call).reads subject m = s.reads subject m := reads_set hi rfl rfl rfl
  rw [State.arrived, hreads]
  rfl

theorem getElem?_incr (hi : s.calls[i]? = some call) (j : ℕ) : (s.incr time i call).calls[j]? =
    if i = j then some { call with current := some (s.redis.incr time call.key).1 } else s.calls[j]? := by
  rw [State.incr, List.getElem?_set, if_pos (List.getElem?_eq_some_iff.mp hi).1]

theorem getElem?_expire (hi : s.calls[i]? = some call) (j : ℕ) : (s.expire time i call).calls[j]? =
    if i = j then some { call with expired := true } else s.calls[j]? := by
  rw [State.expire, List.getElem?_set, if_pos (List.getElem?_eq_some_iff.mp hi).1]

theorem notMem_arrivals (hsound : Sound s) (hi : s.calls[i]? = some call) (hc : call.current = none) :
    i ∉ s.arrivals := by
  intro hmem
  obtain ⟨call', hcall', hne⟩ := (hsound.arrived i).mp hmem
  obtain rfl := Option.some.inj (hi.symm.trans hcall')
  exact hne hc

theorem getElem?_read (who : Subject) (limit : ℤ) (j : ℕ) : (s.read time who limit).calls[j]? =
    if j = s.calls.length then some { subject := who, limit, readAt := time } else s.calls[j]? := by
  rw [State.read, List.getElem?_append, List.getElem?_singleton]
  split_ifs with hlt heq hzero heq
  · omega
  · rfl
  · rfl
  · omega
  · omega
  · rw [List.getElem?_eq_none (not_lt.mp hlt)]

/-- The calls that have arrived before are other ones. -/
theorem getElem?_incr_of_arrived (hsound : Sound s) (hi : s.calls[i]? = some call) (hc : call.current = none) {j : ℕ}
    (hj : j ∈ s.arrivals) : (s.incr time i call).calls[j]? = s.calls[j]? := by
  rw [getElem?_incr hi]
  exact if_neg fun hij : i = j => notMem_arrivals hsound hi hc (hij ▸ hj)

theorem sound_read (hsound : Sound s) (htime : s.now ≤ time) (who : Subject) (limit : ℤ) :
    Sound (s.read time who limit) := by
  refine ⟨fun j call hcall => ?_, hsound.nodup, fun j => ?_⟩
  · rw [getElem?_read] at hcall
    split_ifs at hcall with hj
    · obtain rfl := Option.some.inj hcall
      exact le_refl time
    · exact (hsound.past j call hcall).trans htime
  · rw [getElem?_read]
    split_ifs with hj
    · -- The new call has no answer yet, and no call before it has its number.
      refine iff_of_false (fun hmem => ?_) ?_
      · obtain ⟨call, hcall, -⟩ := (hsound.arrived j).mp hmem
        have hlt := (List.getElem?_eq_some_iff.mp hcall).1
        omega
      · rintro ⟨call, hcall, hne⟩
        obtain rfl := Option.some.inj hcall
        exact hne rfl
    · exact hsound.arrived j

theorem sound_incr (hsound : Sound s) (htime : s.now ≤ time) (hi : s.calls[i]? = some call)
    (hc : call.current = none) : Sound (s.incr time i call) := by
  refine ⟨fun j call' hcall => ?_, ?_, fun j => ?_⟩
  · rw [getElem?_incr hi] at hcall
    split_ifs at hcall with hj
    · obtain rfl := Option.some.inj hcall
      exact (hsound.past i call hi).trans htime
    · exact (hsound.past j call' hcall).trans htime
  · exact List.nodup_append.mpr ⟨hsound.nodup, List.nodup_singleton i, fun a ha b hb hab =>
      notMem_arrivals hsound hi hc (by rwa [← List.mem_singleton.mp hb, ← hab])⟩
  · rw [getElem?_incr hi, State.incr, List.mem_append, List.mem_singleton]
    split_ifs with hj
    · exact iff_of_true (.inr hj.symm) ⟨_, rfl, nofun⟩
    · rw [hsound.arrived j]
      exact or_iff_left (Ne.symm hj)

theorem sound_expire (hsound : Sound s) (htime : s.now ≤ time) (hi : s.calls[i]? = some call)
    (hc : call.current = some 1) : Sound (s.expire time i call) := by
  refine ⟨fun j call' hcall => ?_, hsound.nodup, fun j => ?_⟩
  · rw [getElem?_expire hi] at hcall
    split_ifs at hcall with hj
    · obtain rfl := Option.some.inj hcall
      exact (hsound.past i call hi).trans htime
    · exact (hsound.past j call' hcall).trans htime
  · rw [getElem?_expire hi]
    split_ifs with hj
    · refine iff_of_true ((hsound.arrived j).mpr ⟨call, hj ▸ hi, by rw [hc]; nofun⟩) ⟨_, rfl, by rw [hc]; nofun⟩
    · exact hsound.arrived j

theorem step_sound {e : Event} (h : step s e = some s') (hsound : Sound s) : Sound s' := by
  obtain ⟨htime, hstep⟩ := step_cases h
  cases hstep with
  | read who limit => exact sound_read hsound htime who limit
  | incr ha hi hc => exact sound_incr hsound htime hi hc
  | expire hi hc => exact sound_expire hsound htime hi hc

/-- An `INCR` of the minute's counter gets the next number, and leaves its time of expiry alone. -/
theorem counts_redis_incr {redis : Redis} {key : String} {n : ℕ}
    (hvalue : (redis.lookup key).map RedisValue.value = counterOf n)
    (hlive : ∀ v, redis.lookup key = some v → ∀ t ∈ v.expiresAt, time < t) :
    (redis.incr time key).1 = n + 1 ∧ ∃ v, (redis.incr time key).2.lookup key = some v ∧ v.value = n + 1 ∧
      ∀ t ∈ v.expiresAt, ∃ old, redis.lookup key = some old ∧ t ∈ old.expiresAt := by
  cases h : redis.lookup key with
  | none =>
    rw [h] at hvalue
    cases n with
    | zero =>
      rw [incr_of_absent h]
      exact ⟨rfl, ⟨1, none⟩, AList.lookup_insert _, rfl, fun t ht => absurd ht (Option.not_mem_none t)⟩
    | succ n => cases hvalue
  | some v =>
    rw [h] at hvalue
    cases n with
    | zero => cases hvalue
    | succ n =>
      have hn : v.value = n + 1 := Option.some.inj hvalue
      rw [incr_of_live h (hlive v h)]
      exact ⟨congrArg (· + 1) hn, { v with value := v.value + 1 }, AList.lookup_insert _, congrArg (· + 1) hn,
        fun t ht => ⟨v, rfl, ht⟩⟩

theorem rateKey_ne (h : ¬ (call.subject = subject ∧ call.minute = m)) : rateKey subject m ≠ call.key := by
  intro hkey
  obtain ⟨rfl, rfl⟩ := rateKey_inj hkey
  exact h ⟨rfl, rfl⟩

/-- The counter of a call that has just been in time is still there. -/
theorem live_of_inTime (hcounts : Counts subject m s) (hm : call.minute = m) (htime : time < call.readAt + 5)
    (v : RedisValue) (hv : s.redis.lookup (rateKey subject m) = some v) (t : ℚ) (ht : t ∈ v.expiresAt) : time < t := by
  have hexpiry := hcounts.expiry v hv t ht
  have hread := lt_currentMinute call.readAt
  have hcast : (currentMinute call.readAt : ℚ) = m := by rw [← hm, Call.minute]
  linarith

theorem counts_incr (hsound : Sound s) (hcounts : Counts subject m s) (hi : s.calls[i]? = some call)
    (hc : call.current = none) (htime : time < call.readAt + 5) : Counts subject m (s.incr time i call) := by
  by_cases hown : call.subject = subject ∧ call.minute = m
  · obtain ⟨hs, hm⟩ := hown
    have hkey : call.key = rateKey subject m := by rw [Call.key, hs, hm]
    have harrived : (s.incr time i call).arrived subject m = s.arrived subject m ++ [i] := by
      rw [arrived_incr hi, if_pos ⟨hs, hm⟩]
    obtain ⟨hanswer, v, hv, hvalue, hexpiry⟩ :=
      counts_redis_incr hcounts.value (live_of_inTime hcounts hm htime)
    have hlookup : (s.incr time i call).redis.lookup (rateKey subject m) = some v := by rw [State.incr, hkey]; exact hv
    refine ⟨?_, fun v' hv' t ht => ?_, fun r j call' hr hcall => ?_⟩
    · rw [hlookup, harrived, List.length_append, List.length_singleton, Option.map_some, hvalue]
      rfl
    · obtain rfl := Option.some.inj (hlookup.symm.trans hv')
      obtain ⟨old, hold, ht'⟩ := hexpiry t ht
      exact hcounts.expiry old hold t ht'
    · rw [harrived] at hr
      rcases Nat.lt_or_ge r (s.arrived subject m).length with hlt | hge
      · rw [List.getElem?_append_left hlt] at hr
        rw [getElem?_incr_of_arrived hsound hi hc (List.mem_of_mem_filter (List.mem_of_getElem? hr))] at hcall
        exact hcounts.rank r j call' hr hcall
      · rw [List.getElem?_append_right hge, List.getElem?_singleton] at hr
        split_ifs at hr with hzero
        obtain rfl := Option.some.inj hr
        rw [getElem?_incr hi, if_pos rfl] at hcall
        obtain rfl := Option.some.inj hcall
        have hrank : r = (s.arrived subject m).length := by omega
        rw [hrank, ← hanswer, hkey]
  · have harrived : (s.incr time i call).arrived subject m = s.arrived subject m := by
      rw [arrived_incr hi, if_neg hown, List.append_nil]
    have hlookup : (s.incr time i call).redis.lookup (rateKey subject m) = s.redis.lookup (rateKey subject m) :=
      lookup_incr_ne (rateKey_ne hown)
    refine ⟨by rw [hlookup, harrived]; exact hcounts.value, by rw [hlookup]; exact hcounts.expiry,
      fun r j call' hr hcall => ?_⟩
    rw [harrived] at hr
    rw [getElem?_incr_of_arrived hsound hi hc (List.mem_of_mem_filter (List.mem_of_getElem? hr))] at hcall
    exact hcounts.rank r j call' hr hcall

theorem counts_expire (hsound : Sound s) (hcounts : Counts subject m s) (hi : s.calls[i]? = some call)
    (htime : s.now ≤ time) : Counts subject m (s.expire time i call) := by
  have hrank : ∀ (r j : ℕ) (call' : Call), ((s.expire time i call).arrived subject m)[r]? = some j →
      (s.expire time i call).calls[j]? = some call' → call'.current = some (r + 1) := by
    intro r j call' hr hcall
    rw [arrived_expire hi] at hr
    rw [getElem?_expire hi] at hcall
    split_ifs at hcall with hij
    · obtain rfl := Option.some.inj hcall
      exact hcounts.rank r i call (hij ▸ hr) hi
    · exact hcounts.rank r j call' hr hcall
  by_cases hown : call.subject = subject ∧ call.minute = m
  · obtain ⟨hs, hm⟩ := hown
    have hkey : call.key = rateKey subject m := by rw [Call.key, hs, hm]
    refine ⟨?_, fun v hv t ht => ?_, hrank⟩
    · rw [arrived_expire hi, State.expire, hkey, value_expire]
      exact hcounts.value
    · rw [State.expire, hkey] at hv
      rcases expiry_expire hv with hset | hold
      · -- It is set 65 seconds ahead after the call has read the minute.
        rw [hset, Option.mem_some_iff] at ht
        have hpast := (hsound.past i call hi).trans htime
        have hread := currentMinute_le call.readAt
        have hcast : (currentMinute call.readAt : ℚ) = m := by rw [← hm, Call.minute]
        linarith
      · exact hcounts.expiry v hold t ht
  · have hlookup : (s.expire time i call).redis.lookup (rateKey subject m) = s.redis.lookup (rateKey subject m) :=
      lookup_expire_ne (rateKey_ne hown) 65
    exact ⟨by rw [hlookup, arrived_expire hi]; exact hcounts.value, by rw [hlookup]; exact hcounts.expiry, hrank⟩

theorem step_counts {e : Event} (h : step s e = some s') (hin : InTime s e) (hsound : Sound s)
    (hcounts : Counts subject m s) : Counts subject m s' := by
  obtain ⟨htime, hstep⟩ := step_cases h
  cases hstep with
  | read who limit =>
    refine ⟨by rw [arrived_read hsound]; exact hcounts.value, hcounts.expiry, fun r j call hr hcall => ?_⟩
    rw [arrived_read hsound] at hr
    have hmem : j ∈ s.arrivals := List.mem_of_mem_filter (List.mem_of_getElem? hr)
    obtain ⟨call', hcall', -⟩ := (hsound.arrived j).mp hmem
    have hlt := (List.getElem?_eq_some_iff.mp hcall').1
    rw [getElem?_read, if_neg (by omega)] at hcall
    exact hcounts.rank r j call hr hcall
  | incr ha hi hc => exact counts_incr hsound hcounts hi hc (hin _ _ ha hi)
  | expire hi hc => exact counts_expire hsound hcounts hi htime

end Steps

/-! ## The limit -/

section Limit

variable {s : State} {subject : Subject} {m : ℤ} {limit : ℕ}

theorem mem_readers_iff {i : ℕ} : i ∈ s.readers subject m ↔ s.reads subject m i = true := by
  rw [State.readers, List.mem_filter, List.mem_range]
  refine and_iff_right_of_imp fun hreads => ?_
  obtain ⟨call, hi, -⟩ := reads_iff.mp hreads
  exact (List.getElem?_eq_some_iff.mp hi).1

/-- Admitted are the calls that arrived first. -/
theorem admits_iff (hsound : Sound s) (hcounts : Counts subject m s)
    (hlimit : ∀ (i : ℕ) (call : Call), s.calls[i]? = some call → call.subject = subject → call.minute = m →
      call.limit = limit) {i : ℕ} (hi : i ∈ s.readers subject m) :
    s.admits i = true ↔ i ∈ (s.arrived subject m).take limit := by
  have hreads := mem_readers_iff.mp hi
  obtain ⟨call, hcall, hs, hm⟩ := reads_iff.mp hreads
  have hlim := hlimit i call hcall hs hm
  rw [State.admits, hcall, Option.any_some]
  by_cases hmem : i ∈ s.arrivals
  · have harrived : i ∈ s.arrived subject m := List.mem_filter.mpr ⟨hmem, hreads⟩
    obtain ⟨r, hr⟩ := List.getElem?_of_mem harrived
    have hnodup : (s.arrived subject m).Nodup := hsound.nodup.filter _
    have hcurrent : call.current = some (r + 1) := hcounts.rank r i call hr hcall
    have hadmitted : call.admitted = true ↔ r < limit := by
      rw [Call.admitted, hcurrent, hlim, Option.any_some, decide_eq_true_eq]
      omega
    rw [hadmitted]
    constructor
    · intro hlt
      refine List.mem_of_getElem? (i := r) ?_
      rw [List.getElem?_take_of_lt hlt]
      exact hr
    · intro htake
      obtain ⟨r', hr'⟩ := List.getElem?_of_mem htake
      rw [List.getElem?_take] at hr'
      split_ifs at hr' with hlt
      have heq := (List.getElem?_inj (List.getElem?_eq_some_iff.mp hr).1 hnodup).mp (hr.trans hr'.symm)
      omega
  · have hcurrent : call.current = none := by
      by_contra hne
      exact hmem ((hsound.arrived i).mpr ⟨call, hcall, hne⟩)
    refine iff_of_false ?_ fun htake => hmem (List.mem_of_mem_filter (List.mem_of_mem_take htake))
    rw [Call.admitted, hcurrent]
    exact Bool.false_ne_true

theorem length_admitted (hsound : Sound s) (hadmits : ∀ i ∈ s.readers subject m,
    s.admits i = true ↔ i ∈ (s.arrived subject m).take limit) :
    ((s.readers subject m).filter s.admits).length = min (s.arrived subject m).length limit := by
  have hreaders : (s.readers subject m).Nodup := List.nodup_range.filter _
  have harrived : (s.arrived subject m).Nodup := hsound.nodup.filter _
  have hperm : ((s.readers subject m).filter s.admits).Perm ((s.arrived subject m).take limit) := by
    refine (List.perm_ext_iff_of_nodup (hreaders.filter _) (harrived.sublist (List.take_sublist _ _))).mpr fun i => ?_
    rw [List.mem_filter]
    constructor
    · rintro ⟨hi, ha⟩
      exact (hadmits i hi).mp ha
    · intro htake
      have hi := mem_readers_iff.mpr (List.mem_filter.mp (List.mem_of_mem_take htake)).2
      exact ⟨hi, (hadmits i hi).mpr htake⟩
  rw [hperm.length_eq, List.length_take, min_comm]

/-- When all calls of the minute have arrived, they are those that have read it. -/
theorem length_arrived (hsound : Sound s) (hall : ∀ i ∈ s.readers subject m, i ∈ s.arrivals) :
    (s.arrived subject m).length = (s.readers subject m).length := by
  have hreaders : (s.readers subject m).Nodup := List.nodup_range.filter _
  have hperm : (s.arrived subject m).Perm (s.readers subject m) := by
    refine (List.perm_ext_iff_of_nodup (hsound.nodup.filter _) hreaders).mpr fun i => ?_
    refine List.mem_filter.trans ?_
    rw [← mem_readers_iff]
    exact and_iff_right_of_imp (hall i)
  exact hperm.length_eq

/-- The counter is there as long as calls of the minute can arrive. -/
theorem live_of_counts (hcounts : Counts subject m s) {time : ℚ} (htime : time < 60 * m + 65) :
    (s.redis.live time (rateKey subject m)).map RedisValue.value = counterOf (s.arrived subject m).length := by
  rw [← hcounts.value, Redis.live]
  cases h : s.redis.lookup (rateKey subject m) with
  | none => rfl
  | some v =>
    rw [Option.filter_some, if_pos]
    rw [Option.all_eq_true]
    intro t ht
    exact decide_eq_true (lt_of_lt_of_le htime (hcounts.expiry v h t ht))

theorem run_counts {now : ℚ} {redis : Redis} (hfresh : redis.lookup (rateKey subject m) = none) {es : List Event}
    (hin : Along step InTime ⟨now, redis, [], []⟩ es) (hrun : run step ⟨now, redis, [], []⟩ es = some s) :
    Sound s ∧ Counts subject m s := by
  refine run_inv_along (P := InTime) (I := fun s => Sound s ∧ Counts subject m s) ?_ ⟨?_, ?_⟩ hin hrun
  · rintro t e t' ⟨hsound, hcounts⟩ hintime hstep
    exact ⟨step_sound hstep hsound, step_counts hstep hintime hsound hcounts⟩
  · exact ⟨nofun, List.nodup_nil, fun i => iff_of_false List.not_mem_nil nofun⟩
  · exact ⟨by rw [hfresh]; rfl, fun v hv => absurd (hfresh.symm.trans hv) nofun, nofun⟩

/-- **The limit admits its quota in every minute**: in every run whose `INCR`s are in time, begun before the first call
of the minute, the calls of a client that have read the minute are admitted up to the limit in the order of their
`INCR`, and its counter is not reset as long as such a call can arrive. -/
theorem minute_admits_first (clientId : String) (m : ℤ) (limit : ℕ) {now : ℚ} {redis : Redis}
    (hfresh : redis.lookup (rateKey (.client clientId) m) = none) {es : List Event}
    (hin : Along step InTime ⟨now, redis, [], []⟩ es) {s : State} (hrun : run step ⟨now, redis, [], []⟩ es = some s)
    (hlimit : ∀ (i : ℕ) (call : Call), s.calls[i]? = some call → call.subject = .client clientId → call.minute = m →
      call.limit = limit) :
    (∀ i ∈ s.readers (.client clientId) m, s.admits i = true ↔ i ∈ (s.arrived (.client clientId) m).take limit) ∧
      ((s.readers (.client clientId) m).filter s.admits).length = min (s.arrived (.client clientId) m).length limit ∧
      ((∀ i ∈ s.readers (.client clientId) m, i ∈ s.arrivals) →
        (s.arrived (.client clientId) m).length = (s.readers (.client clientId) m).length) ∧
      ∀ time < 60 * (m : ℚ) + 65, (s.redis.live time (rateKey (.client clientId) m)).map RedisValue.value =
        counterOf (s.arrived (.client clientId) m).length := by
  obtain ⟨hsound, hcounts⟩ := run_counts hfresh hin hrun
  have hadmits : ∀ i ∈ s.readers (.client clientId) m,
      s.admits i = true ↔ i ∈ (s.arrived (.client clientId) m).take limit :=
    fun i hi => admits_iff hsound hcounts hlimit hi
  exact ⟨hadmits, length_admitted hsound hadmits, length_arrived hsound, fun time htime => live_of_counts hcounts htime⟩

instance (s : State) (e : Event) : Decidable (InTime s e) := by
  unfold InTime
  cases e.action with
  | incr j =>
    refine decidable_of_iff (∀ call ∈ s.calls[j]?, e.time < call.readAt + 5) ⟨?_, fun h call => h j call rfl⟩
    rintro h i call hi hcall
    obtain rfl := Action.incr.inj hi
    exact h call hcall
  | read | expire => exact .isTrue nofun

/-- Three calls of a client and one of another read one minute. The last `INCR` of the four is refused, and `EXPIRE`
comes half a minute after them. -/
def mixedCalls : List Event :=
  [⟨58, .read (.client "a") 2⟩, ⟨58, .read (.client "b") 2⟩, ⟨59, .read (.client "a") 2⟩, ⟨59, .read (.client "a") 2⟩,
    ⟨60, .incr 2⟩, ⟨61, .incr 1⟩, ⟨61, .incr 0⟩, ⟨62, .incr 3⟩, ⟨90, .expire 2⟩]

theorem minute_admits_first_two : ∃ s, run step ⟨0, ∅, [], []⟩ mixedCalls = some s ∧
    s.arrived (.client "a") 0 = [2, 0, 3] ∧ s.admits 3 = false ∧
    (∀ i ∈ s.readers (.client "a") 0, s.admits i = true ↔ i ∈ (s.arrived (.client "a") 0).take 2) ∧
    ((s.readers (.client "a") 0).filter s.admits).length = min (s.arrived (.client "a") 0).length 2 ∧
    ∀ time < (65 : ℚ), (s.redis.live time (rateKey (.client "a") 0)).map RedisValue.value = some 3 := by
  have hruns : (run step ⟨0, ∅, [], []⟩ mixedCalls).isSome = true := by decide +kernel
  obtain ⟨s, hs⟩ := Option.isSome_iff_exists.mp hruns
  have hseen : ((run step ⟨0, ∅, [], []⟩ mixedCalls).map fun s =>
      (s.arrived (.client "a") 0, s.admits 3, s.calls.map Call.limit)) = some ([2, 0, 3], false, [2, 2, 2, 2]) := by
    decide +kernel
  rw [hs, Option.map_some, Option.some.injEq, Prod.mk.injEq, Prod.mk.injEq] at hseen
  obtain ⟨harrived, hrefused, hlimits⟩ := hseen
  have hlimit : ∀ (i : ℕ) (call : Call), s.calls[i]? = some call → call.limit = 2 := by
    intro i call hi
    have hmem := List.mem_map_of_mem (f := Call.limit) (List.mem_of_getElem? hi)
    rw [hlimits] at hmem
    simpa using hmem
  obtain ⟨hfirst, hlength, -, hlive⟩ :=
    minute_admits_first "a" 0 2 (AList.lookup_empty _) (by decide +kernel) hs fun i call hi _ _ => hlimit i call hi
  refine ⟨s, hs, harrived, hrefused, hfirst, hlength, fun time htime => ?_⟩
  rw [hlive time (by simpa using htime), harrived]
  rfl

end Limit

end LlmStore.Clients.RateLimit
