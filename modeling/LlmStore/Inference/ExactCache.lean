import LlmStore.Core.JsonEquality
import LlmStore.Inference.Admission
import LlmStore.Lib.Latest

/-!
# The exact cache

The keys of `response_cache.py` and its operations on the table, with the payloads as JSON: a store writes the text of
the payload, and a lookup reads it back. Requests of one kind have one key exactly if their values are the same
(`requestHash_eq_iff`), so the cache is a map on requests whose entries end after the TTL
(`exact_cache_is_timed_map`). Requests whose numbers are equal and not the same have different keys
(`equal_zeros_miss`).
-/

namespace LlmStore.Inference

open LlmStore.Calendar LlmStore.Lib LlmStore.JsonText
open Admission (buildChatCacheKey)

/-! ## Keys -/

/-- `build_completion_cache_key`: the hash and the fingerprint. -/
def buildCompletionCacheKey (hashJson : Json → String) (model prompt : String) (temperature topP maxTokens : Json) :
    String × String :=
  (hashJson (.obj [("kind", .str "completion".toList), ("model", .str model.toList), ("prompt", .str prompt.toList),
    ("temperature", temperature), ("top_p", topP), ("max_tokens", maxTokens)]),
    "completion:" ++ model ++ ":" ++ toString prompt.length)

/-- `_hash_json`, for a hash function on texts. -/
def hashJson (sha256 : List Char → String) (payload : Json) : String := sha256 (dumps .canonical payload)

/-- The arguments of `build_chat_cache_key`. -/
structure ChatArguments where
  model : String
  messages : List Json
  temperature : Json
  topP : Json
  maxTokens : Json
  includeReasoning : Bool

/-- The arguments of `build_completion_cache_key`. -/
structure CompletionArguments where
  model : String
  prompt : String
  temperature : Json
  topP : Json
  maxTokens : Json

inductive CacheRequest where
  | chat (r : ChatArguments)
  | completion (r : CompletionArguments)

namespace CacheRequest

def model : CacheRequest → String
  | chat r => r.model
  | completion r => r.model

/-- The key that the callers build of a request. -/
def cacheKey (sha256 : List Char → String) : CacheRequest → String × String
  | chat r =>
    buildChatCacheKey (hashJson sha256) r.model r.messages r.temperature r.topP r.maxTokens r.includeReasoning
  | completion r => buildCompletionCacheKey (hashJson sha256) r.model r.prompt r.temperature r.topP r.maxTokens

/-- The requests are of one kind, and their values are the same. -/
def Same : CacheRequest → CacheRequest → Prop
  | chat r, chat r' => r.model = r'.model ∧ List.Forall₂ JsonText.Same r.messages r'.messages ∧
    JsonText.Same r.temperature r'.temperature ∧ JsonText.Same r.topP r'.topP ∧
    JsonText.Same r.maxTokens r'.maxTokens ∧ r.includeReasoning = r'.includeReasoning
  | completion r, completion r' => r.model = r'.model ∧ r.prompt = r'.prompt ∧
    JsonText.Same r.temperature r'.temperature ∧ JsonText.Same r.topP r'.topP ∧ JsonText.Same r.maxTokens r'.maxTokens
  | _, _ => False

/-- The requests are of one kind, and their values are equal. -/
def Equal : CacheRequest → CacheRequest → Prop
  | chat r, chat r' => r.model = r'.model ∧ List.Forall₂ JsonText.Equal r.messages r'.messages ∧
    JsonText.Equal r.temperature r'.temperature ∧ JsonText.Equal r.topP r'.topP ∧
    JsonText.Equal r.maxTokens r'.maxTokens ∧ r.includeReasoning = r'.includeReasoning
  | completion r, completion r' => r.model = r'.model ∧ r.prompt = r'.prompt ∧
    JsonText.Equal r.temperature r'.temperature ∧ JsonText.Equal r.topP r'.topP ∧
    JsonText.Equal r.maxTokens r'.maxTokens
  | _, _ => False

/-- The values are values of Python. -/
def Proper : CacheRequest → Prop
  | chat r => (∀ message ∈ r.messages, JsonText.Proper message) ∧ JsonText.Proper r.temperature ∧
    JsonText.Proper r.topP ∧ JsonText.Proper r.maxTokens
  | completion r => JsonText.Proper r.temperature ∧ JsonText.Proper r.topP ∧ JsonText.Proper r.maxTokens

/-- The object that is hashed. -/
def payload : CacheRequest → Json
  | chat r => .obj [("cache_schema_version", .int 2), ("kind", .str "chat".toList), ("model", .str r.model.toList),
    ("messages", .arr r.messages), ("temperature", r.temperature), ("top_p", r.topP), ("max_tokens", r.maxTokens),
    ("include_reasoning", .bool r.includeReasoning)]
  | completion r => .obj [("kind", .str "completion".toList), ("model", .str r.model.toList),
    ("prompt", .str r.prompt.toList), ("temperature", r.temperature), ("top_p", r.topP), ("max_tokens", r.maxTokens)]

theorem hash_eq (sha256 : List Char → String) (r : CacheRequest) :
    (r.cacheKey sha256).1 = sha256 (dumps .canonical r.payload) := by
  cases r <;> rfl

theorem Proper.payload {r : CacheRequest} (h : r.Proper) : JsonText.Proper r.payload := by
  cases r with
  | chat r =>
    obtain ⟨hmessages, htemperature, htopP, hmax⟩ := h
    refine .obj (by simp) fun field hm => ?_
    simp only [List.mem_cons, List.not_mem_nil, or_false] at hm
    rcases hm with rfl | rfl | rfl | rfl | rfl | rfl | rfl | rfl
    · exact .int 2
    · exact .str _
    · exact .str _
    · exact .arr hmessages
    · exact htemperature
    · exact htopP
    · exact hmax
    · exact .bool _
  | completion r =>
    obtain ⟨htemperature, htopP, hmax⟩ := h
    refine .obj (by simp) fun field hm => ?_
    simp only [List.mem_cons, List.not_mem_nil, or_false] at hm
    rcases hm with rfl | rfl | rfl | rfl | rfl | rfl
    · exact .str _
    · exact .str _
    · exact .str _
    · exact htemperature
    · exact htopP
    · exact hmax

theorem same_str_iff {s t : List Char} : JsonText.Same (.str s) (.str t) ↔ s = t :=
  ⟨fun h => by cases h; rfl, fun h => h ▸ .str s⟩

theorem same_bool_iff {b c : Bool} : JsonText.Same (.bool b) (.bool c) ↔ b = c :=
  ⟨fun h => by cases h; rfl, fun h => h ▸ .bool b⟩

theorem same_arr_iff {items items' : List Json} :
    JsonText.Same (.arr items) (.arr items') ↔ List.Forall₂ JsonText.Same items items' :=
  ⟨fun h => by cases h; assumption, .arr⟩

theorem same_obj_iff {fields fields' : List (String × Json)} : JsonText.Same (.obj fields) (.obj fields') ↔
    ∀ key, Option.Rel JsonText.Same (fields.lookup key) (fields'.lookup key) :=
  ⟨fun h => by cases h; assumption, .obj⟩

/-- Objects with the same values under the same keys in the same order are the same. -/
theorem same_obj_of_forall₂ {fields fields' : List (String × Json)}
    (h : List.Forall₂ (fun field field' => field.1 = field'.1 ∧ JsonText.Same field.2 field'.2) fields fields') :
    JsonText.Same (.obj fields) (.obj fields') := by
  refine .obj fun key => ?_
  induction h with
  | nil => exact .none
  | @cons field field' fields fields' hfield _ ih =>
    obtain ⟨k, v⟩ := field
    obtain ⟨k', v'⟩ := field'
    obtain ⟨rfl, hv⟩ := hfield
    rw [List.lookup_cons, List.lookup_cons]
    cases key == k with
    | true => exact .some hv
    | false => exact ih

/-- Objects that are the same have the same value under each key. -/
theorem same_lookup {fields fields' : List (String × Json)} (h : JsonText.Same (.obj fields) (.obj fields')) (key : String)
    {v v' : Json} (hv : fields.lookup key = some v) (hv' : fields'.lookup key = some v') : JsonText.Same v v' := by
  have hrel := same_obj_iff.mp h key
  rw [hv, hv'] at hrel
  exact Option.rel_some_some.mp hrel

/-- The hashed objects are the same exactly if the requests are; the kinds have different values under `"kind"`. -/
theorem same_payload_iff {r r' : CacheRequest} : JsonText.Same r.payload r'.payload ↔ Same r r' := by
  have hkind : ¬ JsonText.Same (.str "chat".toList) (.str "completion".toList) := by
    rw [same_str_iff]
    decide
  have hkind' : ¬ JsonText.Same (.str "completion".toList) (.str "chat".toList) := by
    rw [same_str_iff]
    decide
  cases r with
  | chat r =>
    cases r' with
    | chat r' =>
      constructor
      · intro h
        exact ⟨String.toList_inj.mp (same_str_iff.mp (same_lookup h "model" rfl rfl)),
          same_arr_iff.mp (same_lookup h "messages" rfl rfl), same_lookup h "temperature" rfl rfl,
          same_lookup h "top_p" rfl rfl, same_lookup h "max_tokens" rfl rfl,
          same_bool_iff.mp (same_lookup h "include_reasoning" rfl rfl)⟩
      · rintro ⟨hmodel, hmessages, htemperature, htopP, hmax, hreasoning⟩
        apply same_obj_of_forall₂
        simp only [List.forall₂_cons, List.forall₂_nil_left_iff, and_true, true_and, hmodel, hreasoning]
        exact ⟨.int 2, .str _, .str _, .arr hmessages, htemperature, htopP, hmax, .bool _⟩
    | completion r' => exact ⟨fun h => hkind (same_lookup h "kind" rfl rfl), False.elim⟩
  | completion r =>
    cases r' with
    | chat r' => exact ⟨fun h => hkind' (same_lookup h "kind" rfl rfl), False.elim⟩
    | completion r' =>
      constructor
      · intro h
        exact ⟨String.toList_inj.mp (same_str_iff.mp (same_lookup h "model" rfl rfl)),
          String.toList_inj.mp (same_str_iff.mp (same_lookup h "prompt" rfl rfl)), same_lookup h "temperature" rfl rfl,
          same_lookup h "top_p" rfl rfl, same_lookup h "max_tokens" rfl rfl⟩
      · rintro ⟨hmodel, hprompt, htemperature, htopP, hmax⟩
        apply same_obj_of_forall₂
        simp only [List.forall₂_cons, List.forall₂_nil_left_iff, and_true, true_and, hmodel, hprompt]
        exact ⟨.str _, .str _, .str _, htemperature, htopP, hmax⟩

/-- Without collisions, two requests have one hash exactly if they are the same. -/
theorem requestHash_eq_iff {sha256 : List Char → String} (hsha : Function.Injective sha256) {r r' : CacheRequest}
    (hr : r.Proper) (hr' : r'.Proper) : (r.cacheKey sha256).1 = (r'.cacheKey sha256).1 ↔ Same r r' := by
  rw [hash_eq, hash_eq, hsha.eq_iff, dumps_canonical_iff hr.payload hr'.payload, same_payload_iff]

theorem Same.model_eq {r r' : CacheRequest} (h : Same r r') : r.model = r'.model := by
  cases r <;> cases r' <;> first | exact h.1 | exact h.elim

end CacheRequest

/-! ## Operations -/

/-- `CacheLookupResult`, with `null` for no payload. -/
structure CacheLookupResult where
  hit : Bool
  payload : Json
  completionTokens : ℤ
  promptTokens : ℤ

def CacheLookupResult.miss : CacheLookupResult := ⟨false, .null, 0, 0⟩

/-- `lookup_exact_cache` on the table. -/
def lookupExact (settings : Settings) (now : Instant) (key : CacheKey) (cache : Table CacheKey ResponseCache) :
    Except PyError (CacheLookupResult × Table CacheKey ResponseCache) :=
  if settings.responseCacheEnabled then
    match cache.lookup key with
    | none => .ok (.miss, cache)
    | some row =>
      if row.isActive ∧ row.expiresAt > now then do
        let payload ← loads row.responseJson.toList
        .ok (⟨true, payload, row.completionTokensEstimated, row.promptTokensEstimated⟩,
          cache.insert key { row with hitCount := row.hitCount + 1 })
      else .ok (.miss, cache)
  else .ok (.miss, cache)

/-- `expires_at` of a row that is stored now. -/
def expiry (settings : Settings) (now : Instant) : Instant := addSeconds now settings.responseCacheTtlSeconds

/-- The row that is stored. -/
def storeRow (settings : Settings) (now : Instant) (key : CacheKey) (requestFingerprint : String)
    (responsePayload : Json) (promptTokens completionTokens : ℤ) (cache : Table CacheKey ResponseCache) :
    Table CacheKey ResponseCache :=
  cache.insert key
    { requestFingerprint, responseJson := String.ofList (dumps .default responsePayload)
      promptTokensEstimated := promptTokens, completionTokensEstimated := completionTokens
      expiresAt := expiry settings now, isActive := true
      hitCount := ((cache.lookup key).map (·.hitCount)).getD 0 }

/-- `store_exact_cache` on the table; `none` is its `OverflowError`, where the row would expire at no datetime. -/
def storeExact (settings : Settings) (now : Instant) (key : CacheKey) (requestFingerprint : String)
    (responsePayload : Json) (promptTokens completionTokens : ℤ) (cache : Table CacheKey ResponseCache) :
    Option (Table CacheKey ResponseCache) :=
  if settings.responseCacheEnabled then
    if Representable (expiry settings now) then
      some (storeRow settings now key requestFingerprint responsePayload promptTokens completionTokens cache)
    else none
  else some cache

/-- `clear_response_cache` on the table. -/
def clearResponseCache (_ : Table CacheKey ResponseCache) : Table CacheKey ResponseCache := ∅

/-! The handlers' operations, on the session, are these on its table; where `store_exact_cache` raises, it does so before
it asks the database, which can fail there in any case. -/

theorem storeExactCache_eq (settings : Settings) (key : CacheKey) (fingerprint : String) (payload : Json) (p c : ℤ) :
    storeExactCache settings key fingerprint (String.ofList (dumps .default payload)) p c =
      if settings.responseCacheEnabled then do
        let now ← utcNow
        await
        Program.modify fun w => w.setCurrent fun db =>
          { db with responseCache := storeRow settings now.instant key fingerprint payload p c db.responseCache }
      else pure () := rfl

/-- Every row holds the text of a payload. -/
def Dumped (cache : Table CacheKey ResponseCache) : Prop :=
  ∀ key row, cache.lookup key = some row →
    ∃ payload, JsonText.Proper payload ∧ row.responseJson = String.ofList (dumps .default payload)

/-- `if cached.hit and cached.payload is not None`. -/
def CacheLookupResult.used (found : CacheLookupResult) : Option CachedResponse :=
  match found.hit, found.payload with
  | true, .null => none
  | true, payload => some ⟨String.ofList (dumps .default payload), found.completionTokens⟩
  | false, _ => none

/-- A payload whose text is that of `null` is `null`. -/
theorem dumps_eq_null {payload : Json} (h : JsonText.Proper payload)
    (heq : String.ofList (dumps .default payload) = "null") : payload = .null := by
  have htext : dumps .default payload = dumps .default .null := by
    rw [← String.toList_ofList (l := dumps .default payload), heq]
    rfl
  have hload := loads_dumps readable_default rfl h
  rw [htext, loads_dumps readable_default rfl .null] at hload
  exact (Except.ok.inj hload).symm

theorem used_of_hit {payload : Json} (h : JsonText.Proper payload) (p c : ℤ) :
    (⟨true, payload, c, p⟩ : CacheLookupResult).used =
      if String.ofList (dumps .default payload) = "null" then none
      else some ⟨String.ofList (dumps .default payload), c⟩ := by
  by_cases hnull : payload = .null
  · subst hnull
    rw [if_pos (by decide)]
    rfl
  · rw [if_neg fun heq => hnull (dumps_eq_null h heq)]
    cases payload <;> first | rfl | exact absurd rfl hnull

theorem lookupExactCache_eq {settings : Settings} (henabled : settings.responseCacheEnabled = true) (key : CacheKey) :
    ∃ step : Datetime → World → Option CachedResponse × World,
      lookupExactCache settings key = (do
        let now ← utcNow
        await
        Program.modifyGet (step now)) ∧
      ∀ now w, Dumped w.current.responseCache → ∃ found cache,
        lookupExact settings now.instant key w.current.responseCache = .ok (found, cache) ∧
          step now w = (found.used, w.setCurrent fun db => { db with responseCache := cache }) := by
  refine ⟨_, by rw [lookupExactCache, if_pos henabled], fun now w hw => ?_⟩
  simp only [lookupExact, henabled, if_true]
  cases hrow : w.current.responseCache.lookup key with
  | none => exact ⟨_, _, rfl, rfl⟩
  | some row =>
    obtain ⟨payload, hpayload, htext⟩ := hw key row hrow
    simp only [htext, String.toList_ofList, loads_dumps readable_default rfl hpayload]
    by_cases hfresh : row.isActive = true ∧ row.expiresAt > now.instant
    · rw [if_pos hfresh, if_pos hfresh]
      exact ⟨_, _, rfl, by rw [used_of_hit hpayload]; rfl⟩
    · rw [if_neg hfresh, if_neg hfresh]
      exact ⟨_, _, rfl, rfl⟩

/-- An operation for an endpoint and a request, whose model and key it is called with. -/
inductive CacheOp where
  | store (endpoint : String) (request : CacheRequest) (responsePayload : Json) (promptTokens completionTokens : ℤ)
  | lookup (endpoint : String) (request : CacheRequest)
  | clear

/-- The values of the operation are values of Python. -/
def CacheOp.Proper : CacheOp → Prop
  | store _ request responsePayload _ _ => request.Proper ∧ JsonText.Proper responsePayload
  | lookup _ request => request.Proper
  | clear => True

section Operations

variable (settings : Settings) (sha256 : List Char → String)

/-- The columns under which the callers look for a request. -/
def rowKey (endpoint : String) (request : CacheRequest) : CacheKey :=
  ⟨endpoint, request.model, (request.cacheKey sha256).1⟩

/-- One operation at its time. One that raises leaves the table as it is. -/
def cacheStep (cache : Table CacheKey ResponseCache) (op : Instant × CacheOp) : Table CacheKey ResponseCache :=
  match op.2 with
  | .store endpoint request responsePayload promptTokens completionTokens =>
    (storeExact settings op.1 (rowKey sha256 endpoint request) (request.cacheKey sha256).2 responsePayload promptTokens
      completionTokens cache).getD cache
  | .lookup endpoint request =>
    match lookupExact settings op.1 (rowKey sha256 endpoint request) cache with
    | .ok (_, cache) => cache
    | .error _ => cache
  | .clear => clearResponseCache cache

/-- What a lookup reads of a row. -/
structure Entry where
  expiresAt : Instant
  responseJson : String
  promptTokens : ℤ
  completionTokens : ℤ

def ResponseCache.entry (row : ResponseCache) : Entry :=
  ⟨row.expiresAt, row.responseJson, row.promptTokensEstimated, row.completionTokensEstimated⟩

/-- The entries of the active rows. -/
def cacheView (cache : Table CacheKey ResponseCache) (key : CacheKey) : Option Entry :=
  ((cache.lookup key).filter (·.isActive)).map (·.entry)

def cacheEffect (op : Instant × CacheOp) : Effect CacheKey Entry :=
  match op.2 with
  | .store endpoint request responsePayload promptTokens completionTokens =>
    if Representable (expiry settings op.1) then
      .put (rowKey sha256 endpoint request)
        ⟨expiry settings op.1, String.ofList (dumps .default responsePayload), promptTokens, completionTokens⟩
    else .keep
  | .lookup _ _ => .keep
  | .clear => .clear

theorem cacheView_insert (cache : Table CacheKey ResponseCache) (key : CacheKey) {row : ResponseCache}
    (h : row.isActive = true) :
    cacheView (cache.insert key row) = Function.update (cacheView cache) key (some row.entry) := by
  funext k
  by_cases hk : k = key
  · subst hk
    simp [cacheView, h]
  · simp [cacheView, AList.lookup_insert_ne hk, Function.update_of_ne hk]

variable {settings sha256}

/-- A lookup counts a hit and changes nothing that lookups read. -/
theorem cacheView_lookupExact {now : Instant} {key : CacheKey} {cache cache' : Table CacheKey ResponseCache}
    {found : CacheLookupResult} (h : lookupExact settings now key cache = .ok (found, cache')) :
    cacheView cache' = cacheView cache := by
  unfold lookupExact at h
  split at h
  · split at h
    · cases h
      rfl
    · rename_i row hrow
      split at h
      · rename_i hactive
        cases hload : loads row.responseJson.toList with
        | error e => rw [hload] at h; cases h
        | ok payload =>
          rw [hload] at h
          cases h
          have hview := cacheView_insert cache key
            (show ({ row with hitCount := row.hitCount + 1 } : ResponseCache).isActive = true from hactive.1)
          rw [hview]
          apply Function.update_eq_self_iff.mpr
          simp [cacheView, hrow, hactive.1, ResponseCache.entry]
      · cases h
        rfl
  · cases h
    rfl

/-- Each operation has its effect on the view. -/
theorem cacheView_step (henabled : settings.responseCacheEnabled = true) (cache : Table CacheKey ResponseCache)
    (op : Instant × CacheOp) :
    cacheView (cacheStep settings sha256 cache op) = (cacheEffect settings sha256 op).apply (cacheView cache) := by
  obtain ⟨now, op⟩ := op
  cases op with
  | store endpoint request responsePayload promptTokens completionTokens =>
    simp only [cacheStep, cacheEffect, storeExact, henabled, if_true]
    split_ifs
    · rw [Option.getD_some, storeRow, cacheView_insert _ _ rfl]
      rfl
    · rfl
  | lookup endpoint request =>
    show cacheView (match lookupExact settings now (rowKey sha256 endpoint request) cache with
      | .ok (_, cache) => cache
      | .error _ => cache) = cacheView cache
    split
    · rename_i heq
      exact cacheView_lookupExact heq
    · rfl
  | clear => rfl

/-- The table after some operations on an empty one. -/
def cacheAfter (settings : Settings) (sha256 : List Char → String) (ops : List (Instant × CacheOp)) :
    Table CacheKey ResponseCache :=
  ops.foldl (cacheStep settings sha256) ∅

/-- Since the last clear, the latest store for the endpoint and the same request was at `time`, of this payload; stores
that overflow do not count. -/
def LatestStore (settings : Settings) (ops : List (Instant × CacheOp)) (endpoint : String) (request : CacheRequest)
    (time : Instant) (payload : Json) (promptTokens completionTokens : ℤ) : Prop :=
  ∃ before stored after, ops = before ++ (time, .store endpoint stored payload promptTokens completionTokens) :: after ∧
    CacheRequest.Same stored request ∧ Representable (expiry settings time) ∧ ∀ op ∈ after, op.2 ≠ .clear ∧
      ∀ stored payload' p c, op.2 = .store endpoint stored payload' p c → Representable (expiry settings op.1) →
        ¬ CacheRequest.Same stored request

/-- What a lookup finds is in the view. -/
theorem lookupExact_found (henabled : settings.responseCacheEnabled = true) (now : Instant) (key : CacheKey)
    (cache : Table CacheKey ResponseCache) :
    (lookupExact settings now key cache).map Prod.fst = match cacheView cache key with
      | none => .ok .miss
      | some e =>
        if e.expiresAt > now then
          (loads e.responseJson.toList).map fun payload => ⟨true, payload, e.completionTokens, e.promptTokens⟩
        else .ok .miss := by
  simp only [lookupExact, henabled, if_true, cacheView]
  cases cache.lookup key with
  | none => rfl
  | some row =>
    cases hactive : row.isActive with
    | false => simp [hactive, Option.filter, Except.map]
    | true =>
      simp only [hactive, true_and, Option.filter_some, if_true, Option.map_some, ResponseCache.entry]
      split
      · cases loads row.responseJson.toList <;> rfl
      · rfl

theorem rowKey_eq_iff (hsha : Function.Injective sha256) {endpoint endpoint' : String} {r r' : CacheRequest}
    (hr : r.Proper) (hr' : r'.Proper) :
    rowKey sha256 endpoint r = rowKey sha256 endpoint' r' ↔ endpoint = endpoint' ∧ CacheRequest.Same r r' := by
  rw [rowKey, rowKey, CacheKey.mk.injEq, CacheRequest.requestHash_eq_iff hsha hr hr']
  exact ⟨fun h => ⟨h.1, h.2.2⟩, fun h => ⟨h.1, h.2.model_eq, h.2⟩⟩

/-- The effects under the key of a request are the stores for the same request. -/
theorem latest_iff (hsha : Function.Injective sha256) {ops : List (Instant × CacheOp)}
    (hops : ∀ op ∈ ops, op.2.Proper) {endpoint : String} {request : CacheRequest} (hr : request.Proper) (e : Entry) :
    Latest (cacheEffect settings sha256) ops (rowKey sha256 endpoint request) e ↔
      ∃ time payload promptTokens completionTokens,
        LatestStore settings ops endpoint request time payload promptTokens completionTokens ∧
        e = ⟨expiry settings time, String.ofList (dumps .default payload), promptTokens, completionTokens⟩ := by
  have hput : ∀ op ∈ ops, ∀ e, cacheEffect settings sha256 op = .put (rowKey sha256 endpoint request) e ↔
      ∃ stored payload p c, op.2 = .store endpoint stored payload p c ∧ Representable (expiry settings op.1) ∧
        CacheRequest.Same stored request ∧
        e = ⟨expiry settings op.1, String.ofList (dumps .default payload), p, c⟩ := by
    rintro ⟨now, op⟩ hm e
    cases op with
    | store endpoint' stored payload p c =>
      dsimp only [cacheEffect]
      split_ifs with hfits
      · simp only [Effect.put.injEq, rowKey_eq_iff hsha (hops _ hm).1 hr, CacheOp.store.injEq]
        constructor
        · rintro ⟨⟨rfl, hsame⟩, rfl⟩
          exact ⟨stored, payload, p, c, ⟨rfl, rfl, rfl, rfl, rfl⟩, hfits, hsame, rfl⟩
        · rintro ⟨_, _, _, _, ⟨rfl, rfl, rfl, rfl, rfl⟩, -, hsame, rfl⟩
          exact ⟨⟨rfl, hsame⟩, rfl⟩
      · exact iff_of_false nofun fun ⟨_, _, _, _, _, h, _⟩ => hfits h
    | lookup _ _ => simp [cacheEffect]
    | clear => simp [cacheEffect]
  have hclear : ∀ op : Instant × CacheOp, cacheEffect settings sha256 op = .clear ↔ op.2 = .clear := by
    rintro ⟨now, op⟩
    cases op with
    | store => simp [cacheEffect, ite_eq_iff]
    | lookup => simp [cacheEffect]
    | clear => simp [cacheEffect]
  constructor
  · rintro ⟨before, op, after, rfl, heffect, hafter⟩
    obtain ⟨stored, payload, p, c, hop, hfits, hsame, rfl⟩ := (hput op (by simp) e).mp heffect
    refine ⟨op.1, payload, p, c, ⟨before, stored, after, by rw [← hop], hsame, hfits, fun op' hm => ?_⟩, rfl⟩
    refine ⟨fun h => (hafter op' hm).1 ((hclear op').mpr h), fun stored' payload' p' c' hop' hfits' hsame' => ?_⟩
    exact (hafter op' hm).2 _
      ((hput op' (by simp [hm]) _).mpr ⟨stored', payload', p', c', hop', hfits', hsame', rfl⟩)
  · rintro ⟨time, payload, p, c, ⟨before, stored, after, rfl, hsame, hfits, hafter⟩, rfl⟩
    refine ⟨before, _, after, rfl, (hput _ (by simp) _).mpr ⟨stored, payload, p, c, rfl, hfits, hsame, rfl⟩,
      fun op' hm => ?_⟩
    refine ⟨fun h => (hafter op' hm).1 ((hclear op').mp h), fun e' heffect => ?_⟩
    obtain ⟨stored', payload', p', c', hop', hfits', hsame', -⟩ := (hput op' (by simp [hm]) e').mp heffect
    exact (hafter op' hm).2 stored' payload' p' c' hop' hfits' hsame'

/-- The rows that lookups can find are those of the latest stores. -/
theorem cacheView_cacheAfter (henabled : settings.responseCacheEnabled = true) (hsha : Function.Injective sha256)
    {ops : List (Instant × CacheOp)} (hops : ∀ op ∈ ops, op.2.Proper) (endpoint : String) {request : CacheRequest}
    (hr : request.Proper) (e : Entry) :
    cacheView (cacheAfter settings sha256 ops) (rowKey sha256 endpoint request) = some e ↔
      ∃ time payload promptTokens completionTokens,
        LatestStore settings ops endpoint request time payload promptTokens completionTokens ∧
        e = ⟨expiry settings time, String.ofList (dumps .default payload), promptTokens, completionTokens⟩ := by
  rw [← latest_iff hsha hops hr]
  exact view_eq_some_iff (fun cache op => cacheView_step henabled cache op) (fun _ => rfl) ops _ e

/-- **The exact cache is a map on requests with a time limit.** After any operations, at any times, a lookup returns; it
hits exactly if the latest store for the endpoint and the same request is less than the TTL old, and then it returns the
payload and the token counts of that store. -/
theorem exact_cache_is_timed_map (henabled : settings.responseCacheEnabled = true) (hsha : Function.Injective sha256)
    (ops : List (Instant × CacheOp)) (hops : ∀ op ∈ ops, op.2.Proper) (now : Instant) (endpoint : String)
    {request : CacheRequest} (hr : request.Proper) :
    ∃ found cache, lookupExact settings now (rowKey sha256 endpoint request) (cacheAfter settings sha256 ops) =
        .ok (found, cache) ∧
      (found.hit = true ↔ ∃ time payload p c, LatestStore settings ops endpoint request time payload p c ∧
        now - time < settings.responseCacheTtlSeconds * 1000000) ∧
      ∀ time payload p c, LatestStore settings ops endpoint request time payload p c →
        now - time < settings.responseCacheTtlSeconds * 1000000 → found = ⟨true, payload, c, p⟩ := by
  set ttl := settings.responseCacheTtlSeconds * 1000000 with httl
  set result := lookupExact settings now (rowKey sha256 endpoint request) (cacheAfter settings sha256 ops) with hresult
  have hview := cacheView_cacheAfter henabled hsha hops endpoint hr
  have hfound := lookupExact_found henabled now (rowKey sha256 endpoint request) (cacheAfter settings sha256 ops)
  have hok : ∀ found, result.map Prod.fst = .ok found → ∃ cache, result = .ok (found, cache) := by
    intro found h
    rcases hr : result with e | ⟨found', cache⟩ <;> rw [hr] at h <;> cases h
    exact ⟨cache, rfl⟩
  have hload : ∀ {time payload p c}, LatestStore settings ops endpoint request time payload p c →
      loads (dumps .default payload) = .ok payload := by
    rintro time payload p c ⟨before, stored, after, rfl, -⟩
    exact loads_dumps readable_default rfl (hops (time, .store endpoint stored payload p c) (by simp)).2
  cases hv : cacheView (cacheAfter settings sha256 ops) (rowKey sha256 endpoint request) with
  | none =>
    have hnever : ∀ time payload p c, ¬ LatestStore settings ops endpoint request time payload p c := by
      intro time payload p c h
      have hsome := (hview _).mpr ⟨time, payload, p, c, h, rfl⟩
      rw [hv] at hsome
      cases hsome
    rw [hv] at hfound
    obtain ⟨cache, hcache⟩ := hok _ hfound
    refine ⟨_, cache, hcache, ⟨fun h => (nomatch h), ?_⟩, fun time payload p c h => absurd h (hnever _ _ _ _)⟩
    rintro ⟨time, payload, p, c, h, -⟩
    exact absurd h (hnever _ _ _ _)
  | some e =>
    obtain ⟨time, payload, p, c, hlatest, rfl⟩ := (hview e).mp hv
    have hunique : ∀ time' payload' p' c', LatestStore settings ops endpoint request time' payload' p' c' →
        time' = time ∧ payload' = payload ∧ p' = p ∧ c' = c := by
      intro time' payload' p' c' h
      have hsome := (hview _).mpr ⟨time', payload', p', c', h, rfl⟩
      rw [hv, Option.some.injEq, Entry.mk.injEq] at hsome
      obtain ⟨htime, htext, rfl, rfl⟩ := hsome
      have hpayload := hload h
      rw [← String.ofList_injective htext, hload hlatest] at hpayload
      exact ⟨(add_right_cancel htime).symm, (Except.ok.inj hpayload).symm, rfl, rfl⟩
    rw [hv] at hfound
    simp only [String.toList_ofList, hload hlatest, Except.map, show expiry settings time = time + ttl from rfl] at hfound
    by_cases hfresh : now - time < ttl
    · rw [if_pos (sub_lt_iff_lt_add'.mp hfresh)] at hfound
      obtain ⟨cache, hcache⟩ := hok _ hfound
      refine ⟨_, cache, hcache, ⟨fun _ => ⟨time, payload, p, c, hlatest, hfresh⟩, fun _ => rfl⟩, ?_⟩
      intro time' payload' p' c' h _
      obtain ⟨-, rfl, rfl, rfl⟩ := hunique _ _ _ _ h
      rfl
    · rw [if_neg fun h => hfresh (sub_lt_iff_lt_add'.mpr h)] at hfound
      obtain ⟨cache, hcache⟩ := hok _ hfound
      refine ⟨_, cache, hcache, ⟨fun h => (nomatch h), ?_⟩, fun time' payload' p' c' h hfresh' => ?_⟩
      · rintro ⟨time', payload', p', c', h, hfresh'⟩
        obtain ⟨rfl, -⟩ := hunique _ _ _ _ h
        exact absurd hfresh' hfresh
      · obtain ⟨rfl, -⟩ := hunique _ _ _ _ h
        exact absurd hfresh' hfresh

end Operations

section Example

private def cacheSettings : Settings := ⟨true, 3600, 2⟩

private def greeting (temperature : PyFloat) : CacheRequest :=
  .chat ⟨"gemma", [.obj [("role", .str "user".toList), ("content", .str "ola".toList)]], .float temperature,
    .float (.finite (19 / 20)), .int 128, false⟩

private theorem greeting_proper {temperature : PyFloat} (h : Exact temperature) : (greeting temperature).Proper := by
  have htopP : Exact (.finite (19 / 20)) := ⟨⟨2, by decide +kernel⟩, .inr (by unfold underflow overflow; decide +kernel)⟩
  refine ⟨fun message hm => ?_, .float h, .float htopP, .int 128⟩
  obtain rfl := List.mem_singleton.mp hm
  refine .obj (by simp) fun field hf => ?_
  simp only [List.mem_cons, List.not_mem_nil, or_false] at hf
  rcases hf with rfl | rfl <;> exact .str _

private theorem exact_zero : Exact (.finite 0) := ⟨⟨0, one_dvd _⟩, .inl rfl⟩

/-- Noon of a day. -/
def noon : Instant := 739737 * microsPerDay + 12 * 3600000000

/-- A request is stored at both zeros, the table is cleared, and the first one is stored again, twice. -/
private def greetings : List (Instant × CacheOp) :=
  [(noon, .store "/v1/chat/completions" (greeting (.finite 0)) (.obj [("id", .int 1)]) 2 9),
    (noon, .store "/v1/chat/completions" (greeting .negZero) (.obj [("id", .int 2)]) 2 9),
    (noon, .clear),
    (noon, .store "/v1/chat/completions" (greeting (.finite 0)) (.obj [("id", .int 3)]) 2 9),
    (noon + 1000000, .store "/v1/chat/completions" (greeting (.finite 0)) (.obj [("id", .int 4)]) 2 8)]

private theorem proper_id (n : ℤ) : JsonText.Proper (.obj [("id", .int n)]) :=
  .obj (by simp) fun field hf => by
    obtain rfl := List.mem_singleton.mp hf
    exact .int n

private theorem greetings_proper : ∀ op ∈ greetings, op.2.Proper := by
  intro op hm
  simp only [greetings, List.mem_cons, List.not_mem_nil, or_false] at hm
  rcases hm with rfl | rfl | rfl | rfl | rfl
  · exact ⟨greeting_proper exact_zero, proper_id 1⟩
  · exact ⟨greeting_proper trivial, proper_id 2⟩
  · trivial
  · exact ⟨greeting_proper exact_zero, proper_id 3⟩
  · exact ⟨greeting_proper exact_zero, proper_id 4⟩

private theorem ofList_injective : Function.Injective String.ofList := fun _ _ h => String.ofList_injective h

/-- The last store is found until the hour is over. -/
theorem exact_cache_is_timed_map_greetings :
    ∃ found cache, lookupExact cacheSettings (noon + 3600999999)
        (rowKey String.ofList "/v1/chat/completions" (greeting (.finite 0)))
        (cacheAfter cacheSettings String.ofList greetings) = .ok (found, cache) ∧
      found = ⟨true, .obj [("id", .int 4)], 8, 2⟩ := by
  obtain ⟨found, cache, hlookup, -, hlatest⟩ := exact_cache_is_timed_map
    (show cacheSettings.responseCacheEnabled = true from rfl) ofList_injective greetings greetings_proper
    (noon + 3600999999) "/v1/chat/completions" (greeting_proper exact_zero)
  refine ⟨found, cache, hlookup, hlatest (noon + 1000000) _ 2 8 ?_ (by decide)⟩
  have hsame := (CacheRequest.requestHash_eq_iff ofList_injective (greeting_proper exact_zero)
    (greeting_proper exact_zero)).mp rfl
  exact ⟨greetings.take 4, greeting (.finite 0), [], rfl, hsame, by decide, nofun⟩

/-- **Equal requests that miss**: the one is stored at the temperature 0.0, the other is looked up at -0.0. -/
theorem equal_zeros_miss : ¬ ∀ (settings : Settings) (sha256 : List Char → String),
    settings.responseCacheEnabled = true → Function.Injective sha256 →
    ∀ (time now : Instant) (endpoint : String) (stored request : CacheRequest) (payload : Json) (p c : ℤ),
      time ≤ now → now - time < settings.responseCacheTtlSeconds * 1000000 → Representable (expiry settings time) →
      stored.Proper → request.Proper → JsonText.Proper payload → CacheRequest.Equal stored request →
      (lookupExact settings now (rowKey sha256 endpoint request)
        (cacheAfter settings sha256 [(time, .store endpoint stored payload p c)])).map Prod.fst =
          .ok ⟨true, payload, c, p⟩ := by
  intro h
  have hmessages : List.Forall₂ JsonText.Equal [.obj [("role", .str "user".toList), ("content", .str "ola".toList)]]
      [.obj [("role", .str "user".toList), ("content", .str "ola".toList)]] := by
    refine .cons (.obj fun key => ?_) .nil
    simp only [List.lookup_cons, List.lookup_nil]
    cases key == "role" with
    | true => exact .some (.str _)
    | false =>
      cases key == "content" with
      | true => exact .some (.str _)
      | false => exact .none
  have hfound := h cacheSettings String.ofList rfl ofList_injective noon noon "/v1/chat/completions"
    (greeting (.finite 0)) (greeting .negZero) (.obj [("id", .int 1)]) 2 9 le_rfl (by decide) (by decide)
    (greeting_proper exact_zero) (greeting_proper trivial) (proper_id 1)
    ⟨rfl, hmessages, .number rfl rfl, .number rfl rfl, .number rfl rfl, rfl⟩
  have hmiss : ((lookupExact cacheSettings noon (rowKey String.ofList "/v1/chat/completions" (greeting .negZero))
      (cacheAfter cacheSettings String.ofList [(noon, .store "/v1/chat/completions" (greeting (.finite 0))
        (.obj [("id", .int 1)]) 2 9)])).map Prod.fst).map CacheLookupResult.hit = .ok false := by
    decide +kernel
  rw [hfound] at hmiss
  cases hmiss

end Example

end LlmStore.Inference
