import LlmStore.Inference.AnswerValues
import LlmStore.Inference.ExactCache
import LlmStore.Inference.LoopAgreement
import LlmStore.Lib.Run
import LlmStore.Models.Administration
import LlmStore.Models.ModelList

/-!
# The exact cache while models are administered

Chat requests, tests of the portal and generation jobs that look up and store answers, between changes of the registry.
An answer depends on the configuration of its model, and the key of its row does not: a change of the template or of
the file of a model leaves the rows of its answers, and the next equal request is served one of the old configuration
(`old_template_served`). As long as a model gets a configuration only when the answers of another one have ended, and
no request of it is on the way, an answer is served under the configuration that it was stored under
(`served_under_one_configuration`).
-/

namespace LlmStore.Models

open LlmStore.Lib

/-! ## Configurations -/

/-- The columns of a model that its answers depend on. -/
structure Configuration where
  promptTemplate : Option String
  modelFile : String
  deriving DecidableEq

def ModelRow.configuration (m : ModelRow) : Configuration := ⟨m.promptTemplate, m.modelFile⟩

/-- The configuration of the model with the id. -/
def Tables.configuration (t : Tables) (modelId : String) : Option Configuration :=
  (t.models.entries.find? fun e => e.2.modelId = modelId).map fun e => e.2.configuration

theorem Registry.configuration_eq (r : Registry) {pk : Uuid} {m : ModelRow} (h : r.models.lookup pk = some m) :
    r.configuration m.modelId = some m.configuration := by
  have hmem : ⟨pk, m⟩ ∈ r.models.entries := Table.mem_entries_iff.mpr h
  cases hfind : r.models.entries.find? fun e => e.2.modelId = m.modelId with
  | none =>
    have hne := List.find?_eq_none.mp hfind ⟨pk, m⟩ hmem
    simp at hne
  | some e =>
    obtain ⟨pk', m'⟩ := e
    have hid : m'.modelId = m.modelId := by simpa using List.find?_some hfind
    have h' := Table.mem_entries_iff.mp (List.mem_of_find?_eq_some hfind)
    obtain rfl := r.modelId_inj h' h hid
    obtain rfl := Option.some.inj (h'.symm.trans h)
    rw [Tables.configuration, hfind]
    rfl

/-- A model that is resolved is there. -/
theorem Registry.configuration_resolved (r : Registry) {client : Client} {name name' : String}
    {selected : ModelRegistry} (h : resolveRequestedModel r.load client name = .ok (selected, name')) :
    ∃ m pk, r.models.lookup pk = some m ∧ selected = m.load r.backends ∧
      r.configuration selected.modelId = some m.configuration := by
  have hmem := mem_of_selectModel (resolve_eq_ok_iff.mp h).2.1
  rw [← load_activeRows, List.mem_map] at hmem
  obtain ⟨m, hm, rfl⟩ := hmem
  obtain ⟨pk, hpk⟩ := (mem_activeRows.mp hm).1
  exact ⟨m, pk, hpk, rfl, r.configuration_eq hpk⟩

/-! ## Changes -/

/-- The template of a `PromptTemplateUpdate`. -/
abbrev PromptTemplate := { s : String // s.length ≤ 10000 }

/-- `patch_model_prompt_template`. -/
def patchModelPromptTemplate (pk : Uuid) (promptTemplate : Option PromptTemplate) (t : Tables) :
    Except Failure Tables := do
  let _ ← getModel t pk
  return t.setModel pk fun m => { m with promptTemplate := promptTemplate.map (·.val) }

/-- A change of the registry. -/
inductive Change where
  | operate (s : Step)
  | patchPromptTemplate (pk : Uuid) (promptTemplate : Option PromptTemplate)

/-- The answer to a change: an exception, or the registry that it commits. -/
def Change.attempt (settings : Settings) (r : Registry) : Change → Except Failure Registry
  | operate s => Models.attempt settings r s
  | patchPromptTemplate pk promptTemplate => patchModelPromptTemplate pk promptTemplate r.toTables >>= commit

end LlmStore.Models

namespace LlmStore.Inference

open LlmStore.Calendar LlmStore.Lib LlmStore.JsonText
open Models (Change Configuration)

/-! ## Requests on the way -/

/-- The endpoints whose answers are those of `_chat_with_fallback`. Generation jobs use the rows of the first. -/
inductive ChatEndpoint where
  | chatCompletions
  | testChat
  deriving DecidableEq

def ChatEndpoint.path : ChatEndpoint → String
  | chatCompletions => "/v1/chat/completions"
  | testChat => "/portal/test-chat"

/-- A request that is not streamed or a job, with what was read of its model. -/
structure InFlight where
  endpoint : ChatEndpoint
  request : ChatArguments
  configuration : Configuration
  promptTokens : ℤ

/-- What the services are set up with. -/
structure Deployment where
  settings : Settings
  registrySettings : Models.Settings
  sha256 : List Char → String
  lower : List Char → List Char

section Requests

variable (d : Deployment)

def InFlight.key (q : InFlight) : CacheKey := rowKey d.sha256 q.endpoint.path (.chat q.request)

/-- What `_json_forward` answers with the template that was read. -/
def InFlight.answer (q : InFlight) (o : Origin) (response : Json) : Except PyError Json :=
  jsonAnswer d.lower o true q.request.includeReasoning q.configuration.promptTemplate response

def InFlight.Proper (q : InFlight) : Prop := CacheRequest.Proper (.chat q.request)

/-- The payload that is served: `if cached.hit and cached.payload is not None`. -/
def CacheLookupResult.served (found : CacheLookupResult) : Option Json :=
  match found.hit, found.payload with
  | true, .null => none
  | true, payload => some payload
  | false, _ => none

/-- What a row was stored from. -/
structure Stored where
  request : InFlight
  origin : Origin
  response : Json

/-! ## The system -/

structure CacheWorld where
  registry : Models.Registry
  cache : Table CacheKey ResponseCache
  /-- The requests before their lookup. -/
  resolved : List InFlight
  /-- The requests that a backend has been asked. -/
  asked : List InFlight
  /-- The time of the last event. -/
  clock : Instant
  /-- What the rows were stored from. No event reads it. -/
  labels : CacheKey → Option Stored

inductive CacheEvent where
  /-- A request is resolved. The key gets the id of the model. -/
  | resolve (endpoint : ChatEndpoint) (client : Models.Client) (requestedModel : String) (arguments : ChatArguments)
    (promptTokens : ℤ)
  /-- A worker reads a queued job for the model, with the arguments that the job keeps. -/
  | process (pk : Models.Uuid) (arguments : ChatArguments) (promptTokens : ℤ)
  /-- The request ends before its lookup. -/
  | refuse (i : ℕ)
  | lookup (i : ℕ)
  /-- A backend responds, and the answer is stored and committed. -/
  | answer (i : ℕ) (o : Origin) (response : Json) (completionTokens : ℤ)
  /-- No backend responds. -/
  | fail (i : ℕ)
  | change (c : Change)
  | clear

/-- The values of the event are values of Python. -/
def CacheEvent.Proper : CacheEvent → Prop
  | resolve _ _ _ arguments _ | process _ arguments _ => CacheRequest.Proper (.chat arguments)
  | answer _ _ response _ => JsonText.Proper response
  | _ => True

namespace CacheWorld

/-- The world before the first request. -/
def start (registry : Models.Registry) (clock : Instant) : CacheWorld :=
  ⟨registry, ∅, [], [], clock, fun _ => none⟩

/-- The lookup of a request, and the payload that it is served. -/
def lookup (w : CacheWorld) (now : Instant) (q : InFlight) :
    Except PyError (Option Json × Table CacheKey ResponseCache) :=
  (lookupExact d.settings now (q.key d) w.cache).map fun result => (result.1.served, result.2)

/-- The world after an answer is stored, or after the `OverflowError` of its expiry. -/
def store (w : CacheWorld) (now : Instant) (s : Stored) (payload : Json) (completionTokens : ℤ) : CacheWorld :=
  let key := s.request.key d
  match storeExact d.settings now key ((CacheRequest.chat s.request.request).cacheKey d.sha256).2 payload
      s.request.promptTokens completionTokens w.cache with
  | none => w
  | some cache =>
    { w with
      cache
      labels := if d.settings.responseCacheEnabled then Function.update w.labels key (some s) else w.labels }

/-- Where the cache is not enabled, nothing is stored. -/
theorem store_disabled (henabled : d.settings.responseCacheEnabled = false) (w : CacheWorld) (now : Instant)
    (s : Stored) (payload : Json) (completionTokens : ℤ) : w.store d now s payload completionTokens = w := by
  simp only [store, storeExact, henabled, Bool.false_eq_true, if_false]

theorem store_overflow (henabled : d.settings.responseCacheEnabled = true) {now : Instant}
    (hrow : ¬Representable (expiry d.settings now)) (w : CacheWorld) (s : Stored) (payload : Json)
    (completionTokens : ℤ) : w.store d now s payload completionTokens = w := by
  simp only [store, storeExact, henabled, if_true, if_neg hrow]

theorem store_enabled (henabled : d.settings.responseCacheEnabled = true) {now : Instant}
    (hrow : Representable (expiry d.settings now)) (w : CacheWorld) (s : Stored) (payload : Json)
    (completionTokens : ℤ) :
    w.store d now s payload completionTokens =
      { w with
        cache := storeRow d.settings now (s.request.key d)
          ((CacheRequest.chat s.request.request).cacheKey d.sha256).2 payload s.request.promptTokens completionTokens
          w.cache
        labels := Function.update w.labels (s.request.key d) (some s) } := by
  simp only [store, storeExact, henabled, if_true, if_pos hrow]

/-- An event at its time. -/
def act (w : CacheWorld) (now : Instant) : CacheEvent → Option CacheWorld
  | .resolve endpoint client requestedModel arguments promptTokens =>
    match Models.resolveRequestedModel w.registry.load client requestedModel with
    | .error _ => some w
    | .ok (selected, _) =>
      (w.registry.configuration selected.modelId).map fun configuration =>
        { w with
          resolved := w.resolved ++
            [⟨endpoint, { arguments with model := selected.modelId }, configuration, promptTokens⟩] }
  | .process pk arguments promptTokens =>
    -- a model that jobs refer to is not deleted
    (w.registry.models.lookup pk).map fun m =>
      { w with resolved := w.resolved ++ [⟨.chatCompletions, arguments, m.configuration, promptTokens⟩] }
  | .refuse i => (w.resolved[i]?).map fun _ => { w with resolved := w.resolved.eraseIdx i }
  | .lookup i =>
    (w.resolved[i]?).map fun q =>
      let rest := { w with resolved := w.resolved.eraseIdx i }
      match w.lookup d now q with
      | .error _ => rest
      | .ok (some _, cache) => { rest with cache }
      | .ok (none, cache) => { rest with cache, asked := w.asked ++ [q] }
  | .answer i o response completionTokens =>
    (w.asked[i]?).map fun q =>
      let rest := { w with asked := w.asked.eraseIdx i }
      match q.answer d o response with
      | .error _ => rest
      | .ok payload => rest.store d now ⟨q, o, response⟩ payload completionTokens
  | .fail i => (w.asked[i]?).map fun _ => { w with asked := w.asked.eraseIdx i }
  | .change c =>
    match c.attempt d.registrySettings w.registry with
    | .error _ => some w
    | .ok registry => some { w with registry }
  | .clear => some { w with cache := clearResponseCache w.cache }

/-- One event. Time does not go back. -/
def step (w : CacheWorld) (e : Instant × CacheEvent) : Option CacheWorld :=
  if e.1 < w.clock then none else act d { w with clock := e.1 } e.1 e.2

/-- A request is resolved or refused: the model that is selected has a configuration. -/
theorem isSome_resolve (w : CacheWorld) (now : Instant) (endpoint : ChatEndpoint) (client : Models.Client)
    (requestedModel : String) (arguments : ChatArguments) (promptTokens : ℤ) :
    (w.act d now (.resolve endpoint client requestedModel arguments promptTokens)).isSome = true := by
  cases hresolved : Models.resolveRequestedModel w.registry.load client requestedModel with
  | error e => simp [act, hresolved]
  | ok result =>
    obtain ⟨selected, name⟩ := result
    obtain ⟨m, -, -, -, hconfiguration⟩ := w.registry.configuration_resolved hresolved
    simp [act, hresolved, hconfiguration]

/-! ## Configurations that are kept apart -/

/-- The model may get the configuration: no request of it is before its lookup under another one, and where it is then
there, neither is one at a backend, nor can a lookup find an answer of another one. -/
def Accepts (w : CacheWorld) (now : Instant) (modelId : String) (new : Option Configuration) : Prop :=
  (∀ q ∈ w.resolved, q.request.model = modelId → new = some q.configuration) ∧
    ∀ c, new = some c →
      (∀ q ∈ w.asked, q.request.model = modelId → q.configuration = c) ∧
      ∀ key entry stored, key.model = modelId → cacheView w.cache key = some entry → now < entry.expiresAt →
        w.labels key = some stored → stored.request.configuration = c

/-- Each model whose configuration changes may get the new one, and a job is processed while its model has the id that
it was resolved to. -/
def Careful (w : CacheWorld) (e : Instant × CacheEvent) : Prop :=
  match e.2 with
  | .process pk arguments _ => ∀ m, w.registry.models.lookup pk = some m → m.modelId = arguments.model
  | .change c => ∀ r, c.attempt d.registrySettings w.registry = .ok r → ∀ modelId,
      r.configuration modelId ≠ w.registry.configuration modelId → w.Accepts e.1 modelId (r.configuration modelId)
  | _ => True

/-- The payload was stored by a request of the model's present configuration, which is that of the request it is served,
and it is what the request would get of that response. -/
def ServedAsNow (w : CacheWorld) (q : InFlight) (payload : Json) : Prop :=
  ∃ stored, w.labels (q.key d) = some stored ∧
    w.registry.configuration q.request.model = some stored.request.configuration ∧
    stored.request.configuration = q.configuration ∧ q.answer d stored.origin stored.response = .ok payload

/-! ## The invariant -/

/-- The row has the key of the request that it was stored from, and the text of its answer. -/
structure Explains (s : Stored) (key : CacheKey) (responseJson : String) : Prop where
  key_eq : s.request.key d = key
  proper : s.request.Proper
  answer_eq : ∃ payload, JsonText.Proper payload ∧ s.request.answer d s.origin s.response = .ok payload ∧
    responseJson = String.ofList (dumps .default payload)

/-- The requests on the way and the rows that lookups find are of the configuration that their model has. -/
structure Consistent (w : CacheWorld) : Prop where
  resolved : ∀ q ∈ w.resolved, q.Proper ∧ w.registry.configuration q.request.model = some q.configuration
  asked : ∀ q ∈ w.asked, q.Proper ∧ ∀ c, w.registry.configuration q.request.model = some c → q.configuration = c
  rows : ∀ key entry, cacheView w.cache key = some entry → ∃ stored, w.labels key = some stored ∧
    Explains d stored key entry.responseJson ∧
    (w.clock < entry.expiresAt → ∀ c, w.registry.configuration key.model = some c → stored.request.configuration = c)

variable {d}

theorem consistent_start (registry : Models.Registry) (clock : Instant) : Consistent d (start registry clock) where
  resolved q hq := by cases hq
  asked q hq := by cases hq
  rows key entry h := by cases h

/-- Rows that lookups find no more are found at no later time. -/
theorem Consistent.later {w : CacheWorld} {now : Instant} (hw : Consistent d w) (hle : w.clock ≤ now) :
    Consistent d { w with clock := now } where
  resolved := hw.resolved
  asked := hw.asked
  rows key entry h := by
    obtain ⟨stored, hlabel, hexplains, hnow⟩ := hw.rows key entry h
    exact ⟨stored, hlabel, hexplains, fun hlive => hnow (lt_of_le_of_lt hle hlive)⟩

/-! ### Requests -/

theorem Consistent.arrive {w : CacheWorld} (hw : Consistent d w) {q : InFlight} (hproper : q.Proper)
    (hq : w.registry.configuration q.request.model = some q.configuration) :
    Consistent d { w with resolved := w.resolved ++ [q] } where
  resolved q' hm := by
    rcases List.mem_append.mp hm with hm | hm
    · exact hw.resolved q' hm
    · obtain rfl := List.mem_singleton.mp hm
      exact ⟨hproper, hq⟩
  asked := hw.asked
  rows := hw.rows

theorem Consistent.leave {w : CacheWorld} (hw : Consistent d w) (i : ℕ) :
    Consistent d { w with resolved := w.resolved.eraseIdx i } where
  resolved q hm := hw.resolved q (List.mem_of_mem_eraseIdx hm)
  asked := hw.asked
  rows := hw.rows

theorem Consistent.ask {w : CacheWorld} (hw : Consistent d w) {q : InFlight} (hproper : q.Proper)
    (hq : w.registry.configuration q.request.model = some q.configuration) :
    Consistent d { w with asked := w.asked ++ [q] } where
  resolved := hw.resolved
  asked q' hm := by
    rcases List.mem_append.mp hm with hm | hm
    · exact hw.asked q' hm
    · obtain rfl := List.mem_singleton.mp hm
      exact ⟨hproper, fun c hc => Option.some.inj (hq.symm.trans hc)⟩
  rows := hw.rows

theorem Consistent.finish {w : CacheWorld} (hw : Consistent d w) (i : ℕ) :
    Consistent d { w with asked := w.asked.eraseIdx i } where
  resolved := hw.resolved
  asked q hm := hw.asked q (List.mem_of_mem_eraseIdx hm)
  rows := hw.rows

/-! ### Lookups -/

theorem lookup_eq_ok {w : CacheWorld} {now : Instant} {q : InFlight} {served : Option Json}
    {cache : Table CacheKey ResponseCache} (h : w.lookup d now q = .ok (served, cache)) :
    ∃ found, lookupExact d.settings now (q.key d) w.cache = .ok (found, cache) ∧ found.served = served := by
  unfold lookup at h
  cases hfound : lookupExact d.settings now (q.key d) w.cache with
  | error e =>
    rw [hfound] at h
    cases h
  | ok result =>
    rw [hfound] at h
    cases h
    exact ⟨_, rfl, rfl⟩

/-- A payload that is served is that of a row that a lookup finds. -/
theorem served_of_lookup {w : CacheWorld} {now : Instant} {q : InFlight} {payload : Json}
    {cache : Table CacheKey ResponseCache} (h : w.lookup d now q = .ok (some payload, cache)) :
    ∃ entry, cacheView w.cache (q.key d) = some entry ∧ now < entry.expiresAt ∧
      loads entry.responseJson.toList = .ok payload := by
  obtain ⟨found, hfound, hserved⟩ := lookup_eq_ok h
  have hmiss : CacheLookupResult.miss.served = none := rfl
  cases henabled : d.settings.responseCacheEnabled with
  | false =>
    simp only [lookupExact, henabled, Bool.false_eq_true, if_false] at hfound
    cases hfound
    cases hmiss.symm.trans hserved
  | true =>
    have hfirst := lookupExact_found henabled now (q.key d) w.cache
    rw [hfound] at hfirst
    simp only [Except.map] at hfirst
    cases hentry : cacheView w.cache (q.key d) with
    | none =>
      rw [hentry] at hfirst
      cases hfirst
      cases hmiss.symm.trans hserved
    | some entry =>
      rw [hentry] at hfirst
      dsimp only at hfirst
      split at hfirst
      · rename_i hlive
        cases hload : loads entry.responseJson.toList with
        | error e =>
          rw [hload] at hfirst
          cases hfirst
        | ok value =>
          rw [hload] at hfirst
          cases hfirst
          have hvalue : value = payload := by
            cases value <;> first | exact Option.some.inj hserved | cases hserved
          exact ⟨entry, rfl, hlive, by rw [← hvalue]; exact hload⟩
      · cases hfirst
        cases hmiss.symm.trans hserved

theorem Consistent.looked {w : CacheWorld} (hw : Consistent d w) {now : Instant} {q : InFlight} {served : Option Json}
    {cache : Table CacheKey ResponseCache} (h : w.lookup d now q = .ok (served, cache)) :
    Consistent d { w with cache } where
  resolved := hw.resolved
  asked := hw.asked
  rows key entry hentry := by
    obtain ⟨found, hfound, -⟩ := lookup_eq_ok h
    rw [cacheView_lookupExact hfound] at hentry
    exact hw.rows key entry hentry

/-! ### Answers -/

theorem Consistent.store {w : CacheWorld} (hw : Consistent d w) {now : Instant} {s : Stored} {payload : Json}
    (completionTokens : ℤ) (hproper : s.request.Proper) (hpayload : JsonText.Proper payload)
    (hanswer : s.request.answer d s.origin s.response = .ok payload)
    (hnow : ∀ c, w.registry.configuration s.request.request.model = some c → s.request.configuration = c) :
    Consistent d (w.store d now s payload completionTokens) := by
  cases henabled : d.settings.responseCacheEnabled with
  | false =>
    rw [store_disabled d henabled]
    exact hw
  | true =>
    by_cases hrow : Representable (expiry d.settings now)
    · rw [store_enabled d henabled hrow]
      refine ⟨hw.resolved, hw.asked, fun key entry hentry => ?_⟩
      rw [storeRow, cacheView_insert _ _ rfl] at hentry
      by_cases hkey : key = s.request.key d
      · subst hkey
        rw [Function.update_self] at hentry
        obtain rfl := Option.some.inj hentry
        exact ⟨s, Function.update_self .., ⟨rfl, hproper, payload, hpayload, hanswer, rfl⟩, fun _ => hnow⟩
      · rw [Function.update_of_ne hkey] at hentry
        obtain ⟨stored, hlabel, hrest⟩ := hw.rows key entry hentry
        exact ⟨stored, (Function.update_of_ne hkey ..).trans hlabel, hrest⟩
    · rw [store_overflow d henabled hrow]
      exact hw

/-! ### Changes of the registry -/

theorem Consistent.change {w : CacheWorld} (hw : Consistent d w) {registry : Models.Registry}
    (haccepts : ∀ modelId, registry.configuration modelId ≠ w.registry.configuration modelId →
      w.Accepts w.clock modelId (registry.configuration modelId)) : Consistent d { w with registry } where
  resolved q hm := by
    obtain ⟨hproper, hq⟩ := hw.resolved q hm
    refine ⟨hproper, ?_⟩
    by_cases hsame : registry.configuration q.request.model = w.registry.configuration q.request.model
    · exact hsame.trans hq
    · exact (haccepts _ hsame).1 q hm rfl
  asked q hm := by
    obtain ⟨hproper, hq⟩ := hw.asked q hm
    refine ⟨hproper, fun c hc => ?_⟩
    by_cases hsame : registry.configuration q.request.model = w.registry.configuration q.request.model
    · exact hq c (hsame.symm.trans hc)
    · exact ((haccepts _ hsame).2 c hc).1 q hm rfl
  rows key entry hentry := by
    obtain ⟨stored, hlabel, hexplains, hnow⟩ := hw.rows key entry hentry
    refine ⟨stored, hlabel, hexplains, fun hlive c hc => ?_⟩
    by_cases hsame : registry.configuration key.model = w.registry.configuration key.model
    · exact hnow hlive c (hsame.symm.trans hc)
    · exact ((haccepts _ hsame).2 c hc).2 key entry stored rfl hentry hlive hlabel

theorem Consistent.clear {w : CacheWorld} (hw : Consistent d w) :
    Consistent d { w with cache := clearResponseCache w.cache } where
  resolved := hw.resolved
  asked := hw.asked
  rows key entry hentry := by cases hentry

/-! ## Runs -/

/-- Each event keeps the invariant. -/
theorem consistent_act {w w' : CacheWorld} {e : CacheEvent} (hw : Consistent d w) (hproper : e.Proper)
    (hcareful : w.Careful d (w.clock, e)) (h : w.act d w.clock e = some w') : Consistent d w' := by
  cases e with
  | resolve endpoint client requestedModel arguments promptTokens =>
    simp only [act] at h
    split at h
    · obtain rfl := Option.some.inj h
      exact hw
    · obtain ⟨configuration, hconfiguration, rfl⟩ := Option.map_eq_some_iff.mp h
      exact hw.arrive hproper hconfiguration
  | process pk arguments promptTokens =>
    obtain ⟨m, hm, rfl⟩ := Option.map_eq_some_iff.mp h
    refine hw.arrive hproper ?_
    show w.registry.configuration arguments.model = some m.configuration
    rw [← hcareful m hm]
    exact w.registry.configuration_eq hm
  | refuse i =>
    obtain ⟨q, -, rfl⟩ := Option.map_eq_some_iff.mp h
    exact hw.leave i
  | lookup i =>
    obtain ⟨q, hq, h⟩ := Option.map_eq_some_iff.mp h
    obtain ⟨hq, hnow⟩ := hw.resolved q (List.mem_of_getElem? hq)
    dsimp only at h
    split at h
    · subst h
      exact hw.leave i
    · rename_i hlookup
      subst h
      exact (hw.looked hlookup).leave i
    · rename_i hlookup
      subst h
      exact ((hw.looked hlookup).leave i).ask hq hnow
  | answer i o response completionTokens =>
    obtain ⟨q, hq, h⟩ := Option.map_eq_some_iff.mp h
    obtain ⟨hq, hnow⟩ := hw.asked q (List.mem_of_getElem? hq)
    dsimp only at h
    split at h
    · subst h
      exact hw.finish i
    · rename_i payload hanswer
      subst h
      exact (hw.finish i).store completionTokens hq (proper_jsonAnswer hproper hanswer) hanswer hnow
  | fail i =>
    obtain ⟨q, -, rfl⟩ := Option.map_eq_some_iff.mp h
    exact hw.finish i
  | change c =>
    simp only [act] at h
    split at h
    · obtain rfl := Option.some.inj h
      exact hw
    · rename_i registry hattempt
      obtain rfl := Option.some.inj h
      exact hw.change (hcareful registry hattempt)
  | clear =>
    obtain rfl := Option.some.inj h
    exact hw.clear

theorem consistent_step {w w' : CacheWorld} {e : Instant × CacheEvent} (hw : Consistent d w)
    (h : e.2.Proper ∧ w.Careful d e) (hstep : w.step d e = some w') : Consistent d w' := by
  unfold step at hstep
  split at hstep
  · cases hstep
  · rename_i htime
    exact consistent_act (hw.later (not_lt.mp htime)) h.1 h.2 hstep

/-- A payload that is served is of the configuration that the model has. -/
theorem Consistent.servedAsNow {w : CacheWorld} (hw : Consistent d w) (hsha : Function.Injective d.sha256)
    {q : InFlight} (hq : q ∈ w.resolved) {now : Instant} (hnow : w.clock ≤ now) {payload : Json}
    {cache : Table CacheKey ResponseCache} (h : w.lookup d now q = .ok (some payload, cache)) :
    w.ServedAsNow d q payload := by
  obtain ⟨entry, hentry, hlive, hload⟩ := served_of_lookup h
  obtain ⟨hproper, hconfiguration⟩ := hw.resolved q hq
  obtain ⟨stored, hlabel, hexplains, hstored⟩ := hw.rows _ entry hentry
  obtain ⟨answered, hanswered, hanswer, htext⟩ := hexplains.answer_eq
  have hsame : stored.request.configuration = q.configuration :=
    hstored (lt_of_le_of_lt hnow hlive) q.configuration hconfiguration
  have hpayload : answered = payload := by
    rw [htext, String.toList_ofList, loads_dumps readable_default rfl hanswered] at hload
    exact Except.ok.inj hload
  have hreasoning : stored.request.request.includeReasoning = q.request.includeReasoning :=
    ((rowKey_eq_iff hsha hexplains.proper hproper).mp hexplains.key_eq).2.2.2.2.2.2
  refine ⟨stored, hlabel, hsame ▸ hconfiguration, hsame, ?_⟩
  rw [← hpayload, ← hanswer, InFlight.answer, InFlight.answer, hreasoning, hsame]

/-- **An answer is served under the configuration that it was stored under**, after every run from an empty cache in
which each model gets its configurations with no answer and no request of another one left. -/
theorem served_under_one_configuration (hsha : Function.Injective d.sha256) (registry : Models.Registry)
    (clock : Instant) {events : List (Instant × CacheEvent)} (hproper : ∀ e ∈ events, e.2.Proper)
    (hcareful : Along (step d) (Careful d) (start registry clock) events) {w : CacheWorld}
    (hrun : run (step d) (start registry clock) events = some w) {q : InFlight} (hq : q ∈ w.resolved) {now : Instant}
    (hnow : w.clock ≤ now) {payload : Json} {cache : Table CacheKey ResponseCache}
    (h : w.lookup d now q = .ok (some payload, cache)) : w.ServedAsNow d q payload := by
  have hvalues : Along (step d) (fun _ e => e.2.Proper) (start registry clock) events :=
    along_of_at hrun fun before e after _ heq _ => hproper e (by simp [heq])
  have hconsistent : Consistent d w :=
    run_inv_along (fun _ _ _ => consistent_step) (consistent_start registry clock)
      (along_and.mpr ⟨hvalues, hcareful⟩) hrun
  exact hconsistent.servedAsNow hsha hq hnow h

theorem labels_store (henabled : d.settings.responseCacheEnabled = true) (w : CacheWorld) {now : Instant}
    (hrow : Representable (expiry d.settings now)) (s : Stored) (payload : Json) (completionTokens : ℤ) :
    (w.store d now s payload completionTokens).labels (s.request.key d) = some s := by
  rw [store_enabled d henabled hrow]
  exact Function.update_self ..

/-- Within the TTL, an answer that is stored is served to the next equal request. -/
theorem lookup_store (henabled : d.settings.responseCacheEnabled = true) (w : CacheWorld) {now now' : Instant}
    (hrow : Representable (expiry d.settings now)) (s : Stored) {payload : Json} (completionTokens : ℤ)
    (hpayload : JsonText.Proper payload) (hnull : payload ≠ .null)
    (hlive : now' < now + d.settings.responseCacheTtlSeconds * 1000000) {q : InFlight}
    (hkey : q.key d = s.request.key d) :
    ∃ cache, (w.store d now s payload completionTokens).lookup d now' q = .ok (some payload, cache) := by
  have hserved : ∀ c p, (⟨true, payload, c, p⟩ : CacheLookupResult).served = some payload := by
    intro c p
    cases payload <;> first | rfl | exact absurd rfl hnull
  have hstored : (w.store d now s payload completionTokens).cache = storeRow d.settings now (q.key d)
      ((CacheRequest.chat s.request.request).cacheKey d.sha256).2 payload s.request.promptTokens completionTokens
      w.cache := by
    rw [store_enabled d henabled hrow, hkey]
  have hfound : ∃ c p cache, lookupExact d.settings now' (q.key d) (w.store d now s payload completionTokens).cache =
      .ok (⟨true, payload, c, p⟩, cache) := by
    rw [hstored, storeRow, lookupExact, if_pos henabled, AList.lookup_insert]
    dsimp only
    rw [if_pos ⟨rfl, hlive⟩, String.toList_ofList, loads_dumps readable_default rfl hpayload]
    exact ⟨_, _, _, rfl⟩
  obtain ⟨c, p, cache, hfound⟩ := hfound
  refine ⟨cache, ?_⟩
  rw [lookup, hfound, Except.map]
  dsimp only
  rw [hserved]

end CacheWorld

end Requests

/-! ### An old template -/

open CacheWorld

/-- A model with the template, and the backend of its route. -/
def templateRegistry (promptTemplate : Option String) : Models.Registry where
  backends := Models.localBackends
  models := AList.singleton ⟨"0", 0⟩
    { Models.disabledModel with
      promptTemplate
      backendRoutes := AList.singleton 0 { priority := 1, weight := 100, state := .healthy, createdAt := 0 } }
  plans := []
  constraints := by constructor <;> exact List.pairwise_singleton _ _

/-- A deployment whose cache keeps answers for a minute. -/
def minuteCache : Deployment where
  settings := ⟨true, 60, 0⟩
  registrySettings := Models.plainSettings
  sha256 := String.ofList
  lower := lowerAscii

def helloArguments : ChatArguments where
  model := "local/model"
  messages := [.obj [("role", .str "user".toList), ("content", .str "Hello".toList)]]
  temperature := .int 0
  topP := .int 1
  maxTokens := .int 16
  includeReasoning := false

def helloRequest (promptTemplate : Option String) : InFlight where
  endpoint := .chatCompletions
  request := helloArguments
  configuration := ⟨promptTemplate, "model"⟩
  promptTokens := 2

def helloResolved : CacheEvent := .resolve .chatCompletions Models.anyClient "local/model" helloArguments 2

/-- An answer with its reasoning. -/
def reasonedText : List Char := "<think>a</think>b".toList

/-- The request is asked and its answer stored. -/
def helloAnswered : List (Instant × CacheEvent) :=
  [(noon, helloResolved), (noon, .lookup 0), (noon, .answer 0 StreamSettings.llamaCpp (plainCompletion.fill reasonedText) 2)]

/-- The world after the answer. -/
def helloWorld (promptTemplate : Option String) (payload : Json) : CacheWorld :=
  (start (templateRegistry promptTemplate) noon).store minuteCache noon
    ⟨helloRequest promptTemplate, StreamSettings.llamaCpp, plainCompletion.fill reasonedText⟩ payload 2

/-- The administrator sets the template of the model. -/
def templateSet : CacheEvent := .change (.patchPromptTemplate ⟨"0", 0⟩ (some ⟨"qwen", by decide⟩))

theorem resolve_templateRegistry (promptTemplate : Option String) :
    ∃ selected, Models.resolveRequestedModel (templateRegistry promptTemplate).load Models.anyClient "local/model" =
      .ok (selected, "local/model") ∧ selected.modelId = "local/model" := by
  let m : Models.ModelRow := { Models.disabledModel with
    promptTemplate
    backendRoutes := AList.singleton 0 { priority := 1, weight := 100, state := .healthy, createdAt := 0 } }
  have hrow : (templateRegistry promptTemplate).models.lookup ⟨"0", 0⟩ = some m := rfl
  have hrows : Models.activeRows (templateRegistry promptTemplate).toTables = [m] := by
    show ([m].mergeSort _).filter _ = [m]
    rw [List.mergeSort_singleton]
    rfl
  refine ⟨m.load Models.localBackends, ?_, rfl⟩
  refine (Models.resolve_iff hrow (.inl rfl)).mpr ⟨?_, ?_, ?_, rfl⟩
  · rw [hrows]
    exact List.mem_singleton_self m
  · rintro x ⟨before, rest, heq, hx⟩
    have hlength := congrArg List.length (hrows.symm.trans heq)
    have hpos := List.length_pos_of_mem hx
    simp only [List.length_append, List.length_cons, List.length_nil] at hlength
    omega
  · exact List.ne_nil_of_mem (Models.mem_getRoutingCandidates.mpr (.inl ⟨List.mem_cons_self, rfl⟩))

theorem step_at {d : Deployment} {w : CacheWorld} {e : Instant × CacheEvent} (h : e.1 = w.clock) :
    w.step d e = w.act d e.1 e.2 := by
  rw [step, if_neg (not_lt.mpr h.ge), h]

theorem configuration_templateRegistry (promptTemplate : Option String) :
    (templateRegistry promptTemplate).configuration "local/model" = some ⟨promptTemplate, "model"⟩ := rfl

theorem act_helloResolved {w : CacheWorld} {now : Instant} {promptTemplate : Option String}
    (hregistry : w.registry = templateRegistry promptTemplate) :
    w.act minuteCache now helloResolved =
      some { w with resolved := w.resolved ++ [helloRequest promptTemplate] } := by
  obtain ⟨selected, hselected, hid⟩ := resolve_templateRegistry promptTemplate
  rw [helloResolved, act, hregistry, hselected]
  dsimp only
  rw [hid, configuration_templateRegistry]
  rfl

theorem act_templateSet {w : CacheWorld} {now : Instant} {promptTemplate : Option String}
    (hregistry : w.registry = templateRegistry promptTemplate) :
    w.act minuteCache now templateSet = some { w with registry := templateRegistry (some "qwen") } := by
  have hattempt : (Models.Change.patchPromptTemplate ⟨"0", 0⟩ (some ⟨"qwen", by decide⟩)).attempt Models.plainSettings
      (templateRegistry promptTemplate) = .ok (templateRegistry (some "qwen")) := by
    show Models.commit (templateRegistry (some "qwen")).toTables = _
    rw [Models.commit, dif_pos (templateRegistry (some "qwen")).constraints]
  rw [templateSet, act, hregistry]
  simp only [minuteCache, hattempt]

theorem proper_helloArguments : CacheRequest.Proper (.chat helloArguments) := by
  refine ⟨fun message hm => ?_, .int 0, .int 1, .int 16⟩
  obtain rfl := List.mem_singleton.mp hm
  exact ((FieldsOf.single "role" (.str _)).append (.single "content" (.str _))).proper_obj (by decide)

theorem proper_plainCompletion (text : List Char) : JsonText.Proper (plainCompletion.fill text) := by
  have hmessage : FieldsOf ["role", "content"] _ :=
    (FieldsOf.single "role" (.str "assistant".toList)).append (.single "content" (.str text))
  have hchoice : FieldsOf ["index", "message", "finish_reason"] _ :=
    ((FieldsOf.single "index" (.int 0)).append (.single "message" (hmessage.proper_obj (by decide)))).append
      (.single "finish_reason" (.str "stop".toList))
  have hall : FieldsOf ["object", "choices"] _ :=
    (FieldsOf.single "object" (.str "chat.completion".toList)).append (.single "choices" (.arr fun item hm => by
      obtain rfl := List.mem_singleton.mp hm
      exact hchoice.proper_obj (by decide)))
  exact hall.proper_obj (by decide)

theorem proper_helloAnswered : ∀ e ∈ helloAnswered, e.2.Proper := by
  intro e he
  simp only [helloAnswered, List.mem_cons, List.not_mem_nil, or_false] at he
  rcases he with rfl | rfl | rfl
  · exact proper_helloArguments
  · trivial
  · exact proper_plainCompletion _

theorem run_helloAnswered (promptTemplate : Option String) {payload : Json}
    (h : (helloRequest promptTemplate).answer minuteCache StreamSettings.llamaCpp (plainCompletion.fill reasonedText) =
      .ok payload) :
    run (step minuteCache) (start (templateRegistry promptTemplate) noon) helloAnswered =
      some (helloWorld promptTemplate payload) := by
  have hasked : ({ start (templateRegistry promptTemplate) noon with asked := [helloRequest promptTemplate] } :
      CacheWorld).act minuteCache noon (.answer 0 StreamSettings.llamaCpp (plainCompletion.fill reasonedText) 2) =
        some (helloWorld promptTemplate payload) := by
    simp only [act, List.getElem?_cons_zero, Option.map_some, h]
    rfl
  refine run_cons_iff.mpr ⟨_, (step_at rfl).trans (act_helloResolved rfl), run_cons_iff.mpr ⟨_, rfl, ?_⟩⟩
  exact run_cons_iff.mpr ⟨_, (step_at rfl).trans hasked, rfl⟩

/-- The next equal request is served the answer, whatever the template then is. -/
theorem served_after_helloAnswered (promptTemplate new : Option String) : ∃ payload cache,
    (helloRequest promptTemplate).answer minuteCache StreamSettings.llamaCpp (plainCompletion.fill reasonedText) =
        .ok payload ∧
      firstContent payload = .ok (.str (answeredText lowerAscii false promptTemplate reasonedText)) ∧
      (helloWorld promptTemplate payload).lookup minuteCache noon (helloRequest new) = .ok (some payload, cache) := by
  have htranslated : StreamSettings.llamaCpp.translated true (plainCompletion.fill reasonedText) =
      .ok (plainCompletion.fill reasonedText) := rfl
  obtain ⟨payload, hanswer, hcontent⟩ := firstContent_jsonAnswer lowerAscii StreamSettings.llamaCpp false promptTemplate
    plainCompletion reasonedText htranslated
  have hproper := proper_jsonAnswer (proper_plainCompletion reasonedText) hanswer
  have hnull : payload ≠ .null := by
    rintro rfl
    cases hcontent
  obtain ⟨cache, hlookup⟩ := lookup_store rfl (start (templateRegistry promptTemplate) noon) (by decide)
    ⟨helloRequest promptTemplate, StreamSettings.llamaCpp, plainCompletion.fill reasonedText⟩ 2 hproper hnull
    (by decide : noon < noon + minuteCache.settings.responseCacheTtlSeconds * 1000000)
    (rfl : (helloRequest new).key minuteCache = (helloRequest promptTemplate).key minuteCache)
  exact ⟨payload, cache, hanswer, hcontent, hlookup⟩

/-- The world after a second request, under the new template. -/
def helloAgain (promptTemplate : Option String) (payload : Json) : CacheWorld :=
  { helloWorld promptTemplate payload with
    registry := templateRegistry (some "qwen")
    resolved := [helloRequest (some "qwen")] }

theorem run_helloAgain (promptTemplate : Option String) (payload : Json) :
    run (step minuteCache) { helloWorld promptTemplate payload with registry := templateRegistry (some "qwen") }
      [(noon, helloResolved)] = some (helloAgain promptTemplate payload) :=
  run_cons_iff.mpr ⟨_, (step_at rfl).trans (act_helloResolved rfl), rfl⟩

theorem served_under_one_configuration_qwen : ∃ payload cache,
    run (step minuteCache) (start (templateRegistry none) noon)
        ((noon, templateSet) :: (helloAnswered ++ [(noon, helloResolved)])) = some (helloAgain (some "qwen") payload) ∧
      (helloAgain (some "qwen") payload).lookup minuteCache noon (helloRequest (some "qwen")) = .ok (some payload, cache) ∧
      (helloAgain (some "qwen") payload).ServedAsNow minuteCache (helloRequest (some "qwen")) payload := by
  obtain ⟨payload, cache, hanswer, -, hlookup⟩ := served_after_helloAnswered (some "qwen") (some "qwen")
  have hrun : run (step minuteCache) (start (templateRegistry none) noon)
      ((noon, templateSet) :: (helloAnswered ++ [(noon, helloResolved)])) = some (helloAgain (some "qwen") payload) :=
    run_cons_iff.mpr ⟨_, (step_at rfl).trans (act_templateSet rfl), run_append_iff.mpr
      ⟨_, run_helloAnswered _ hanswer, run_helloAgain _ _⟩⟩
  have hproper : ∀ e ∈ (noon, templateSet) :: (helloAnswered ++ [(noon, helloResolved)]), e.2.Proper := by
    intro e he
    simp only [List.mem_cons, List.mem_append, List.not_mem_nil, or_false] at he
    rcases he with rfl | he | rfl
    · trivial
    · exact proper_helloAnswered e he
    · exact proper_helloArguments
  -- the template is set before anything is on the way or stored, and the other events need no care
  have hcareful : Along (step minuteCache) (Careful minuteCache) (start (templateRegistry none) noon)
      ((noon, templateSet) :: (helloAnswered ++ [(noon, helloResolved)])) := by
    refine ⟨fun r _ modelId _ => ⟨fun q hq => ?_, fun c _ => ⟨fun q hq => ?_, fun key entry stored _ hentry => ?_⟩⟩,
      fun w _ => ?_⟩
    · cases hq
    · cases hq
    · cases hentry
    · exact ⟨trivial, fun _ _ => ⟨trivial, fun _ _ => ⟨trivial, fun _ _ => ⟨trivial, fun _ _ => trivial⟩⟩⟩⟩
  exact ⟨payload, cache, hrun, hlookup, served_under_one_configuration (fun _ _ h => String.ofList_injective h)
    (templateRegistry none) noon hproper hcareful hrun (List.mem_singleton_self _) le_rfl hlookup⟩

/-- **An answer is served under a template that it was not made with.** An answer that keeps its reasoning is stored,
the template of the model is set to one that removes it, and the next equal request gets the answer with the
reasoning. -/
theorem old_template_served : ∃ payload cache,
    (∀ e ∈ helloAnswered ++ [(noon, templateSet), (noon, helloResolved)], e.2.Proper) ∧
      run (step minuteCache) (start (templateRegistry none) noon)
        (helloAnswered ++ [(noon, templateSet), (noon, helloResolved)]) = some (helloAgain none payload) ∧
      helloRequest (some "qwen") ∈ (helloAgain none payload).resolved ∧
      (helloAgain none payload).lookup minuteCache noon (helloRequest (some "qwen")) = .ok (some payload, cache) ∧
      firstContent payload = .ok (.str reasonedText) ∧
      ¬ (helloAgain none payload).ServedAsNow minuteCache (helloRequest (some "qwen")) payload := by
  obtain ⟨payload, cache, hanswer, hcontent, hlookup⟩ := served_after_helloAnswered none (some "qwen")
  have hrun : run (step minuteCache) (start (templateRegistry none) noon)
      (helloAnswered ++ [(noon, templateSet), (noon, helloResolved)]) = some (helloAgain none payload) :=
    run_append_iff.mpr ⟨_, run_helloAnswered _ hanswer, run_cons_iff.mpr
      ⟨_, (step_at rfl).trans (act_templateSet rfl), run_helloAgain _ _⟩⟩
  have hproper : ∀ e ∈ helloAnswered ++ [(noon, templateSet), (noon, helloResolved)], e.2.Proper := by
    intro e he
    simp only [List.mem_cons, List.mem_append, List.not_mem_nil, or_false] at he
    rcases he with he | rfl | rfl
    · exact proper_helloAnswered e he
    · trivial
    · exact proper_helloArguments
  refine ⟨payload, cache, hproper, hrun, List.mem_singleton_self _, hlookup, hcontent, ?_⟩
  rintro ⟨stored, hlabel, hconfiguration, -⟩
  have hlabels : (helloAgain none payload).labels = (helloWorld none payload).labels := rfl
  have hkey : (helloRequest (some "qwen")).key minuteCache = (helloRequest none).key minuteCache := rfl
  rw [hlabels, hkey, helloWorld, labels_store rfl _ (by decide)] at hlabel
  obtain rfl := Option.some.inj hlabel
  cases hconfiguration

end LlmStore.Inference
