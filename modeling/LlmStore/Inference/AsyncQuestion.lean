import LlmStore.Inference.Admission

/-!
# The question that a job asks

A chat request that goes through `create_chat_generation_job` and `process_generation_job` is put together by another
piece of code than one that `chat_completions` answers at once. The bodies that the two hand to the backends always
differ: the job's still has `safety_profile`. The rest of the question is the same just where the client has no system
prompt and the safety profile has nothing to change (`async_question_differs`).
-/

namespace LlmStore.Inference.Admission

open LlmStore.Lib LlmStore.Models Program

/-- What `process_generation_job` asks for the job. The stored messages are a list. -/
def processGenerationJob (hashJson : Json → String) (job : GenerationJob) : Question :=
  let includeReasoning := ((job.requestJson.lookup "include_reasoning").getD (.bool false)).truthy
  let requestBody := Json.exclude ["include_reasoning"] job.requestJson
  let messages := match requestBody.lookup "messages" with
    | some (.arr items) => items
    | _ => []
  { body := requestBody
    includeReasoning
    cacheKey := buildChatCacheKey hashJson job.resolvedModel messages
      ((requestBody.lookup "temperature").getD .null) ((requestBody.lookup "top_p").getD .null)
      ((requestBody.lookup "max_tokens").getD .null) includeReasoning
    promptTokens := job.promptTokensEstimated }

/-- The parts of two questions that are to be the same. -/
structure SameQuestion (q q' : Question) : Prop where
  body : Json.SameDict q.body q'.body
  cacheKey : q.cacheKey = q'.cacheKey
  promptTokens : q.promptTokens = q'.promptTokens

/-- The question without one key of its body. -/
def Question.without (q : Question) (key : String) : Question := { q with body := Json.exclude [key] q.body }

/-! ## Messages -/

theorem Message.modelDump_injective : Function.Injective Message.modelDump := by
  rintro ⟨role, content⟩ ⟨role', content'⟩ h
  simp only [Message.modelDump, Json.obj.injEq, List.cons.injEq, Prod.mk.injEq, true_and, and_true, Json.str.injEq,
    String.toList_inj] at h
  obtain ⟨hrole, rfl⟩ := h
  have : role = role' := by cases role <;> cases role' <;> first | rfl | simp [Role.value] at hrole
  rw [this]

theorem underSystemPrompt_ne (prompt content : String) : underSystemPrompt prompt content ≠ content := by
  intro h
  have := congrArg String.length h
  simp only [underSystemPrompt, String.length_append] at this
  have hl : "\n\n".length = 2 := rfl
  omega

/-- A system prompt always shows in the messages. -/
theorem withSystemPrompt_eq_iff {systemPrompt : Option String} {messages : List Message} :
    withSystemPrompt systemPrompt messages = messages ↔ systemPrompt.filter (· ≠ "") = none := by
  unfold withSystemPrompt
  rcases systemPrompt.filter (· ≠ "") with _ | prompt
  · simp
  · refine iff_of_false ?_ (by simp)
    simp only
    split
    · rename_i i hi
      intro h
      obtain ⟨hlt, -⟩ := List.findIdx?_eq_some_iff_getElem.mp hi
      have hget := congrArg (·[i]?) h
      rw [List.getElem?_modify_eq, List.getElem?_eq_getElem hlt] at hget
      exact underSystemPrompt_ne prompt _ (congrArg Message.content (Option.some.inj hget))
    · exact List.cons_ne_self _ _

/-! ## The two bodies -/

section Bodies

variable (hashJson : Json → String) (payload : ChatCompletionRequest) (modelId : String) (messages : List Message)
  (p : Parameters)

/-- The keys of a body without the safety profile. -/
def plainBody (p : Parameters) : List (String × Json) :=
  [("model", .str modelId.toList), ("messages", .arr (messages.map (·.modelDump))), ("temperature", p.temperature),
    ("top_p", p.topP), ("max_tokens", p.maxTokens), ("stream", .bool payload.stream)]

theorem chatQuestion_body : (chatQuestion hashJson payload modelId messages p).body =
    plainBody payload modelId messages (payload.safetyProfile.clamp p) := by
  simp [chatQuestion, plainBody, Parameters.assign, ChatCompletionRequest.modelDump, Json.exclude, Json.setItem]

theorem processed_body : (processGenerationJob hashJson (preparedJob payload modelId messages p).job).body =
    plainBody payload modelId messages p ++ [("safety_profile", .str payload.safetyProfile.value.toList)] := by
  simp [processGenerationJob, preparedJob, PreparedAsyncChatJob.job, plainBody, Parameters.assign,
    ChatCompletionRequest.modelDump, Json.exclude, Json.setItem]

theorem processed_cacheKey : (processGenerationJob hashJson (preparedJob payload modelId messages p).job).cacheKey =
    buildChatCacheKey hashJson modelId (messages.map (·.modelDump)) p.temperature p.topP p.maxTokens
      payload.includeReasoning := by
  simp [processGenerationJob, preparedJob, PreparedAsyncChatJob.job, Parameters.assign,
    ChatCompletionRequest.modelDump, Json.exclude, Json.setItem, List.lookup_cons, Json.truthy]

end Bodies

/-! ## The questions of one request -/

section Questions

variable {ctx : Context} {now : Now} {sourceIp : String} {s : Counters} {payload : ChatCompletionRequest}

theorem chatCompletions_ok {q : Question} (h : ((chatCompletions ctx now sourceIp payload).exec s).1 = .ok q) :
    ∃ model messages p plan, resolve ctx payload.model = .ok model ∧ normalizeMessages payload.messages = .ok messages ∧
      validateParams ctx.settings ctx.client payload.toSampling = .ok (p, plan) ∧
        q = chatQuestion ctx.hashJson payload model.modelId (withSystemPrompt ctx.client.systemPrompt messages) p := by
  obtain ⟨model, hmodel, h⟩ := of_ofExcept_bind h
  obtain ⟨messages, hmessages, h⟩ := of_ofExcept_bind h
  obtain ⟨-, -, h⟩ := of_ofExcept_bind h
  obtain ⟨⟨p, plan⟩, hparams, h⟩ := of_ofExcept_bind h
  obtain ⟨-, -, h⟩ := of_ofExcept_bind h
  obtain ⟨-, t, -, h⟩ := of_exec_bind_ok h
  obtain ⟨-, t', -, h⟩ := of_exec_bind_ok h
  cases h
  exact ⟨model, messages, p, plan, hmodel, hmessages, hparams, rfl⟩

theorem createChatGenerationJob_ok {job : GenerationJob}
    (h : ((createChatGenerationJob ctx now payload).exec s).1 = .ok job) :
    ∃ model messages p plan, resolve ctx payload.model = .ok model ∧ normalizeMessages payload.messages = .ok messages ∧
      validateParams ctx.settings ctx.client payload.toSampling = .ok (p, plan) ∧
        job = (preparedJob payload model.modelId messages p).job := by
  obtain ⟨prepared, t, hp, h⟩ := of_exec_bind_ok h
  replace hp := congrArg Prod.fst hp
  cases h
  obtain ⟨-, -, hp⟩ := of_ofExcept_bind hp
  obtain ⟨model, hmodel, hp⟩ := of_ofExcept_bind hp
  obtain ⟨messages, hmessages, hp⟩ := of_ofExcept_bind hp
  obtain ⟨-, -, hp⟩ := of_ofExcept_bind hp
  obtain ⟨⟨p, plan⟩, hparams, hp⟩ := of_ofExcept_bind hp
  obtain ⟨-, t', -, hp⟩ := of_exec_bind_ok hp
  cases hp
  exact ⟨model, messages, p, plan, hmodel, hmessages, hparams, rfl⟩

end Questions

theorem exclude_processed (hashJson : Json → String) (payload : ChatCompletionRequest) (modelId : String)
    (messages : List Message) (p : Parameters) :
    ((processGenerationJob hashJson (preparedJob payload modelId messages p).job).without "safety_profile").body =
      plainBody payload modelId messages p := by
  rw [Question.without, processed_body]
  simp [Json.exclude, plainBody]

theorem plainBody_same {payload : ChatCompletionRequest} {modelId : String} {messages messages' : List Message}
    {p p' : Parameters}
    (h : Json.SameDict (plainBody payload modelId messages p) (plainBody payload modelId messages' p')) :
    messages = messages' ∧ p = p' := by
  have hmessages := h "messages"
  have htemperature := h "temperature"
  have htopP := h "top_p"
  have hmaxTokens := h "max_tokens"
  simp [plainBody, List.lookup_cons, List.map_inj_right Message.modelDump_injective]
    at hmessages htemperature htopP hmaxTokens
  refine ⟨hmessages, ?_⟩
  cases p
  cases p'
  simp_all

/-- **A job never asks the question that the same request would ask at once**: its body has the safety profile. Apart
from that, the two are the same just where there is no system prompt and nothing to clamp. -/
theorem async_question_differs (ctx : Context) (now now' : Now) (sourceIp : String) (s s' : Counters)
    {payload : ChatCompletionRequest} {q : Question} {job : GenerationJob}
    (hsync : ((chatCompletions ctx now sourceIp payload).exec s).1 = .ok q)
    (hasync : ((createChatGenerationJob ctx now' payload).exec s').1 = .ok job) :
    ¬ SameQuestion (processGenerationJob ctx.hashJson job) q ∧
      (SameQuestion ((processGenerationJob ctx.hashJson job).without "safety_profile") q ↔
        ctx.client.systemPrompt.filter (· ≠ "") = none ∧
          ∀ p plan, validateParams ctx.settings ctx.client payload.toSampling = .ok (p, plan) →
            payload.safetyProfile.clamp p = p) := by
  obtain ⟨model, messages, p, plan, hmodel, hmessages, hparams, rfl⟩ := chatCompletions_ok hsync
  obtain ⟨model', messages', p', plan', hmodel', hmessages', hparams', rfl⟩ := createChatGenerationJob_ok hasync
  obtain rfl := Except.ok.inj (hmodel'.symm.trans hmodel)
  obtain rfl := Except.ok.inj (hmessages'.symm.trans hmessages)
  obtain ⟨rfl, rfl⟩ := Prod.mk.inj (Except.ok.inj (hparams'.symm.trans hparams))
  constructor
  · intro h
    have := h.body "safety_profile"
    rw [processed_body, chatQuestion_body] at this
    simp [plainBody, List.lookup_cons] at this
  · constructor
    · intro h
      have hbody := h.body
      rw [exclude_processed, chatQuestion_body] at hbody
      obtain ⟨hm, hp⟩ := plainBody_same hbody
      refine ⟨withSystemPrompt_eq_iff.mp hm.symm, fun p plan hv => ?_⟩
      obtain ⟨rfl, -⟩ := Prod.mk.inj (Except.ok.inj (hv.symm.trans hparams))
      exact hp.symm
    · rintro ⟨hsystem, hclamp⟩
      rw [withSystemPrompt_eq_iff.mpr hsystem]
      have hp := hclamp _ _ hparams
      refine ⟨?_, ?_, rfl⟩
      · rw [exclude_processed, chatQuestion_body, hp]
        exact fun _ => rfl
      · rw [Question.without, processed_cacheKey, chatQuestion, hp]

theorem async_admits_hello : outcome (createChatGenerationJob demoContext demoNow helloChat) noCounters = .ok () := by
  have hm : normalizeMessages helloChat.messages = .ok [⟨.user, "hello"⟩] := rfl
  have hc : checkContext demoContext (estimatePromptTokens [⟨.user, "hello"⟩]) = .ok () := by rfl
  have hr : resolve demoContext helloChat.model = .ok onlyModel := resolve_demo
  have hq : ((Json.int 128).float?.getD (.finite 0)).plusInt (estimatePromptTokens [⟨.user, "hello"⟩]) =
      .finite (133 : ℤ) := by
    have he : estimatePromptTokens [⟨.user, "hello"⟩] = 5 := by decide
    norm_num [he, Json.float?, PyFloat.plusInt]
  have hp : ((prepareAsyncChatJob demoContext demoNow helloChat).exec noCounters).1 =
      .ok (preparedJob helloChat "qwen" [⟨.user, "hello"⟩] ⟨.int 128, .float (.finite (7 / 10)), .float (.finite (95 / 100))⟩) := by
    simp only [prepareAsyncChatJob, exec_ofExcept_bind, hr, hm, hc, validate_hello, enforceClientLimits, ensureQuota, hq,
      PyFloat.value?, Option.getD_some, Int.ceil_intCast]
    rfl
  rw [outcome, createChatGenerationJob, exec_bind_ok (Prod.ext hp rfl)]
  rfl

theorem of_outcome_ok {α : Type} {handler : Handler α} {s : Counters} (h : outcome handler s = .ok ()) :
    ∃ a, (handler.exec s).1 = .ok a := by
  unfold outcome at h
  rcases hr : (handler.exec s).1 with e | a
  · rw [hr] at h
    cases h
  · exact ⟨a, rfl⟩

theorem async_question_differs_hello :
    ∃ q job, ((chatCompletions demoContext demoNow "10.0.0.1" helloChat).exec noCounters).1 = .ok q ∧
      ((createChatGenerationJob demoContext demoNow helloChat).exec noCounters).1 = .ok job ∧
        ¬ SameQuestion (processGenerationJob demoContext.hashJson job) q := by
  obtain ⟨q, hq⟩ := of_outcome_ok chat_admits_hello
  obtain ⟨job, hjob⟩ := of_outcome_ok async_admits_hello
  have hdiffer := async_question_differs demoContext demoNow demoNow "10.0.0.1" noCounters noCounters hq hjob
  exact ⟨q, job, hq, hjob, hdiffer.1⟩

/-- **A job leaves out the client's system prompt**: it asks with other messages, and reserves and charges less. -/
theorem system_prompt_ignored :
    ∃ q job, ((chatCompletions demoContext demoNow "10.0.0.1" helloChat).exec noCounters).1 = .ok q ∧
      ((createChatGenerationJob demoContext demoNow helloChat).exec noCounters).1 = .ok job ∧
        q.promptTokens = 11 ∧ (processGenerationJob demoContext.hashJson job).promptTokens = 5 ∧
          q.body.lookup "messages" ≠ (processGenerationJob demoContext.hashJson job).body.lookup "messages" ∧
            ¬ SameQuestion (processGenerationJob demoContext.hashJson job) q := by
  obtain ⟨q, hq⟩ := of_outcome_ok chat_admits_hello
  obtain ⟨job, hjob⟩ := of_outcome_ok async_admits_hello
  refine ⟨q, job, hq, hjob, ?_⟩
  obtain ⟨model, messages, p, plan, -, hmessages, -, rfl⟩ := chatCompletions_ok hq
  obtain ⟨model', messages', p', plan', -, hmessages', -, rfl⟩ := createChatGenerationJob_ok hjob
  obtain rfl : [⟨.user, "hello"⟩] = messages := Except.ok.inj hmessages
  obtain rfl : [⟨.user, "hello"⟩] = messages' := Except.ok.inj hmessages'
  have hs : withSystemPrompt demoContext.client.systemPrompt [⟨.user, "hello"⟩] =
      [⟨.system, "Be brief."⟩, ⟨.user, "hello"⟩] := rfl
  have hq : estimatePromptTokens [⟨.system, "Be brief."⟩, ⟨.user, "hello"⟩] = 11 := by decide
  have hjob : estimatePromptTokens [⟨.user, "hello"⟩] = 5 := by decide
  refine ⟨hs ▸ hq, hjob, ?_, fun h => absurd (hjob.symm.trans (h.promptTokens.trans (hs ▸ hq))) (by decide)⟩
  rw [chatQuestion_body, processed_body, hs]
  simp [plainBody, List.lookup_cons]

end LlmStore.Inference.Admission
