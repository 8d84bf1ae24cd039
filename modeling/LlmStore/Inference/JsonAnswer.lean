import LlmStore.Inference.HiddenReasoning
import LlmStore.Inference.ProxyStream
import LlmStore.Inference.Repetition

/-!
# A whole answer

What `_json_forward` makes of a response that is not streamed: the translation of an Ollama response, the normalisation
of a chat completion and the cut where its text repeats itself. For a completion with one choice the client gets the
text of its message as the sanitiser leaves it (`assistantText`), cut if it repeats itself (`firstContent_jsonAnswer`).
-/

namespace LlmStore.Inference

/-! ## The response -/

/-- The completion of `_translate_ollama_response` at the chat endpoint. -/
def ollamaCompletion (modelName : String) (created : ℤ) (content : Json) : Json :=
  .obj [("id", .str ("chatcmpl-ollama-" ++ modelName).toList), ("object", .str "chat.completion".toList),
    ("created", .int created), ("model", .str modelName.toList),
    ("choices", .arr [.obj [("index", .int 0), ("finish_reason", .str "stop".toList),
      ("message", .obj [("role", .str "assistant".toList), ("content", content)])]]),
    ("usage", .obj [("prompt_tokens", .int 0), ("completion_tokens", .int 0), ("total_tokens", .int 0)])]

/-- The completion of `_translate_ollama_response` at the other endpoint. -/
def ollamaTextCompletion (modelName : String) (created : ℤ) (text : Json) : Json :=
  .obj [("id", .str ("cmpl-ollama-" ++ modelName).toList), ("object", .str "text_completion".toList),
    ("created", .int created), ("model", .str modelName.toList),
    ("choices", .arr [.obj [("index", .int 0), ("finish_reason", .str "stop".toList), ("text", text)]]),
    ("usage", .obj [("prompt_tokens", .int 0), ("completion_tokens", .int 0), ("total_tokens", .int 0)])]

/-- `_translate_ollama_response` at the second `created`. -/
def translateOllamaResponse (chat : Bool) (modelName : String) (created : ℤ) (payload : Json) :
    Except PyError Json := do
  if chat then
    let message ← payload.get "message" .null
    let content ← (if message.truthy then message else .obj []).get "content" .null
    let content ← if content.truthy then pure content else payload.get "response" (.str [])
    return ollamaCompletion modelName created content
  else
    let text ← payload.get "response" (.str [])
    return ollamaTextCompletion modelName created text

/-- The response as one of the OpenAI protocol. -/
def Origin.translated (o : Origin) (chat : Bool) (payload : Json) : Except PyError Json :=
  if o.ollama then translateOllamaResponse chat o.modelName (o.clock 0) payload else .ok payload

/-! ## The cut -/

variable (lower : List Char → List Char)

/-- `content and detect_repetition(content)`, with what `truncate_at_repetition` then makes of it. A list can be counted
in, but is neither searched nor split into lines; other values cannot be counted in. -/
def repeatedText (promptTemplate : Option String) : Json → Except PyError (Option (List Char))
  | .str s =>
    if !s.isEmpty && detectRepetition lower promptTemplate s then
      .ok (some (truncateAtRepetition lower promptTemplate s))
    else .ok none
  | .arr [] => .ok none
  | .arr items =>
    let count := fun block : List Char => items.countP fun item => match item with | .str s => s = block | _ => false
    if blocks.any fun block => 2 < count block then .error .typeError else .error .attributeError
  | content => if content.truthy then .error .attributeError else .ok none

/-- `choices[0]["message"]["content"] = text; choices[0]["finish_reason"] = "length"`. -/
def cutChoice (text : List Char) (choice : List (String × Json)) : List (String × Json) :=
  let message := match choice.lookup "message" with
    | some (.obj fields) => fields
    | _ => []
  Json.setItem "finish_reason" (.str "length".toList)
    (Json.setItem "message" (.obj (Json.setItem "content" (.str text) message)) choice)

/-- The first choice after the repetition check. -/
def antiLoop (promptTemplate : Option String) (choice : List (String × Json)) :
    Except PyError (List (String × Json)) := do
  let content ← ((choice.lookup "message").getD (.obj [])).get "content" (.str [])
  match ← repeatedText lower promptTemplate content with
  | none => return choice
  | some text => return cutChoice text choice

/-- What `_json_forward` answers for the response of a backend. -/
def jsonAnswer (o : Origin) (chat includeReasoning : Bool) (promptTemplate : Option String) (payload : Json) :
    Except PyError Json := do
  let payload ← o.translated chat payload
  if chat then
    let (fields, choices) ← normalizeChatCompletion includeReasoning promptTemplate payload
    match choices with
    | [] => return .obj fields
    | choice :: choices =>
      let choice ← antiLoop lower promptTemplate choice
      return .obj (Json.setItem "choices" (.arr ((choice :: choices).map .obj)) fields)
  else return payload

/-- The content of the first message, as a client reads it. -/
def firstContent (payload : Json) : Except PyError Json := do
  let choice ← (← payload.get "choices" (.arr [])).head
  (← choice.get "message" (.obj [])).get "content" .null

/-! ## Completions with one choice -/

/-- A completion with one choice and a message, without the content of the message. -/
structure Completion where
  payload : Hole "choices"
  choice : Hole "message"
  message : Hole "content"
  plainChoice : ∀ field ∈ choice.before ++ choice.after, field.1 ≠ "delta"

/-- The completion with a text. -/
def Completion.fill (f : Completion) (text : List Char) : Json :=
  f.payload.fill (.arr [f.choice.fill (f.message.fill (.str text))])

/-- What `sanitize_assistant_text` leaves of a text. -/
def assistantText (includeReasoning : Bool) (promptTemplate : Option String) (text : List Char) : List Char :=
  if includeReasoning then text else if promptTemplate = some "qwen" then sanitizeText text else text

/-- What the client gets of a text. -/
def answeredText (includeReasoning : Bool) (promptTemplate : Option String) (text : List Char) : List Char :=
  let seen := assistantText includeReasoning promptTemplate text
  if detectRepetition lower promptTemplate seen then truncateAtRepetition lower promptTemplate seen else seen

section Answers

variable (o : Origin) (includeReasoning : Bool) (promptTemplate : Option String) (f : Completion) (text : List Char)

theorem sanitizeAssistantText_str : sanitizeAssistantText includeReasoning promptTemplate (.str text) =
    .ok (.str (assistantText includeReasoning promptTemplate text)) := by
  unfold sanitizeAssistantText assistantText
  cases includeReasoning with
  | true => rfl
  | false =>
    simp only [Bool.false_eq_true, if_false]
    split <;> rfl

theorem normalizeMessage_fill : ∃ fields,
    normalizeMessage includeReasoning promptTemplate (f.message.fill (.str text)) = .ok (.obj fields) ∧
      fields.lookup "content" = some (.str (assistantText includeReasoning promptTemplate text)) := by
  have hrole : ∀ fields : List (String × Json), (entry "role" fields).lookup "content" = none := by
    intro fields
    cases h : fields.lookup "role" <;> simp [entry, h, List.lookup_cons]
  have hfields : ∀ reasoning : List (String × Json),
      (entry "role" (f.message.before ++ f.message.after) ++
        [("content", Json.str (assistantText includeReasoning promptTemplate text))] ++ reasoning ++
        entry "tool_calls" (f.message.before ++ f.message.after)).lookup "content" =
          some (.str (assistantText includeReasoning promptTemplate text)) := by
    intro reasoning
    simp [Hole.lookup_append, hrole]
  cases includeReasoning with
  | true =>
    refine ⟨_, ?_, hfields (entry "reasoning_content" (f.message.before ++ f.message.after))⟩
    simp [normalizeMessage, copied_fill, sanitizeAssistantText_str, bind, Except.bind, pure, Except.pure]
  | false =>
    refine ⟨_, ?_, hfields []⟩
    simp [normalizeMessage, copied_fill, sanitizeAssistantText_str, bind, Except.bind, pure, Except.pure]

theorem normalizeChoice_fill : ∃ fields message,
    normalizeChoice includeReasoning promptTemplate (f.choice.fill (f.message.fill (.str text))) = .ok fields ∧
      fields.lookup "message" = some (.obj message) ∧
      message.lookup "content" = some (.str (assistantText includeReasoning promptTemplate text)) := by
  obtain ⟨message, hmessage, hcontent⟩ := normalizeMessage_fill includeReasoning promptTemplate f text
  have hdelta : (f.choice.fill (f.message.fill (.str text))).has "delta" = .ok false := by
    rw [Hole.has_fill_of_ne _ (by decide), Hole.lookup_eq_none f.plainChoice]
    rfl
  have htruthy : (f.message.fill (.str text)).truthy = true := by simp [Hole.fill, Json.truthy]
  let fields := f.choice.before ++ f.choice.after
  refine ⟨[("index", (fields.lookup "index").getD (.int 0)),
    ("finish_reason", (fields.lookup "finish_reason").getD .null)] ++ [("message", .obj message)] ++ [] ++
    entry "text" fields ++ entry "logprobs" fields, message, ?_, ?_, hcontent⟩
  · simp [normalizeChoice, normalizedMessage, hdelta, htruthy, hmessage, copied_fill, Hole.get_fill_of_ne, fields, bind,
      Except.bind, pure, Except.pure]
  · simp [List.lookup_cons]

theorem normalizeChatCompletion_fill : ∃ fields choice message,
    normalizeChatCompletion includeReasoning promptTemplate (f.fill text) = .ok (fields, [choice]) ∧
      choice.lookup "message" = some (.obj message) ∧
      message.lookup "content" = some (.str (assistantText includeReasoning promptTemplate text)) := by
  obtain ⟨choice, message, hchoice, hmessage, hcontent⟩ := normalizeChoice_fill includeReasoning promptTemplate f text
  let fields := f.payload.before ++ f.payload.after
  refine ⟨[("id", (fields.lookup "id").getD .null),
    ("object", (fields.lookup "object").getD (.str "chat.completion".toList)),
    ("created", (fields.lookup "created").getD .null), ("model", (fields.lookup "model").getD .null),
    ("choices", .arr [.obj choice])] ++ entry "usage" fields ++ entry "system_fingerprint" fields,
    choice, message, ?_, hmessage, hcontent⟩
  simp [normalizeChatCompletion, Completion.fill, copied_fill, Hole.get_fill_of_ne, Json.iterate, hchoice, fields, bind,
    Except.bind, pure, Except.pure]

/-- The first message is cut if its text repeats itself. -/
theorem repeatedText_str : repeatedText lower promptTemplate (.str text) =
    .ok (if detectRepetition lower promptTemplate text then some (truncateAtRepetition lower promptTemplate text)
      else none) := by
  cases text with
  | nil => rfl
  | cons c text =>
    rw [repeatedText, List.isEmpty_cons, Bool.not_false, Bool.true_and]
    split <;> rfl

/-- **A completion reaches the client with the text that the sanitiser leaves, cut if it repeats itself**. -/
theorem firstContent_jsonAnswer {payload : Json} (h : o.translated true payload = .ok (f.fill text)) :
    ∃ answer, jsonAnswer lower o true includeReasoning promptTemplate payload = .ok answer ∧
      firstContent answer = .ok (.str (answeredText lower includeReasoning promptTemplate text)) := by
  obtain ⟨fields, choice, message, hnormalized, hmessage, hcontent⟩ :=
    normalizeChatCompletion_fill includeReasoning promptTemplate f text
  have hread : ((choice.lookup "message").getD (.obj [])).get "content" (.str []) =
      .ok (.str (assistantText includeReasoning promptTemplate text)) := by simp [hmessage, Json.get, hcontent]
  have hfirst : ∀ choice message content, choice.lookup "message" = some (.obj message) →
      message.lookup "content" = some content →
      firstContent (.obj (Json.setItem "choices" (.arr [.obj choice]) fields)) = .ok content := by
    intro choice message content hm hc
    simp [firstContent, Json.get, Json.head, Json.lookup_setItem, hm, hc, bind, Except.bind]
  by_cases hloop : detectRepetition lower promptTemplate (assistantText includeReasoning promptTemplate text) = true
  · let kept := truncateAtRepetition lower promptTemplate (assistantText includeReasoning promptTemplate text)
    refine ⟨.obj (Json.setItem "choices" (.arr [.obj (cutChoice kept choice)]) fields), ?_, ?_⟩
    · simp only [jsonAnswer, h, hnormalized, antiLoop, hread, repeatedText_str, hloop, bind, Except.bind, pure,
        Except.pure, if_true, List.map_cons, List.map_nil, kept]
    · rw [answeredText, if_pos hloop]
      refine hfirst (cutChoice kept choice) (Json.setItem "content" (.str kept) message) (.str kept) ?_ ?_
      · simp [cutChoice, Json.lookup_setItem, hmessage]
      · simp [Json.lookup_setItem]
  · refine ⟨.obj (Json.setItem "choices" (.arr [.obj choice]) fields), ?_, ?_⟩
    · simp only [jsonAnswer, h, hnormalized, antiLoop, hread, repeatedText_str, hloop, bind, Except.bind, pure,
        Except.pure, if_true, List.map_cons, List.map_nil]
      rfl
    · rw [answeredText, if_neg hloop]
      exact hfirst _ _ _ hmessage hcontent

end Answers

end LlmStore.Inference
