import LlmStore.Inference.HiddenReasoning

/-!
# The normaliser on objects

`_normalize_message`, `_normalize_choice` and `normalize_chat_completion` of an object, as the list of the entries that
they make out of its fields: each of them copies the fields it knows, so that what it returns depends on these fields
only.
-/

namespace LlmStore.Inference

/-- The text of a message: its `content` or, without one, its `text`. -/
def messageText (fields : List (String × Json)) : Option Json := (fields.lookup "content").or (fields.lookup "text")

/-- `value or {}`. -/
def orObject (value : Json) : Json := if value.truthy then value else .obj []

section

variable (includeReasoning : Bool) (promptTemplate : Option String)

/-- The entry for the text of a message. -/
def contentEntry (text : Option Json) : Except PyError (List (String × Json)) :=
  match text with
  | none => .ok []
  | some v => (sanitizeAssistantText includeReasoning promptTemplate v).map fun w => [("content", w)]

/-- The entry for the reasoning of a message. -/
def reasoningEntry (fields : List (String × Json)) : List (String × Json) :=
  if includeReasoning then entry "reasoning_content" fields else []

/-- The entry for a message or a delta of a choice. -/
def messageEntry (key : String) (value : Option Json) : Except PyError (List (String × Json)) :=
  match value with
  | none => .ok []
  | some v => (normalizeMessage includeReasoning promptTemplate (orObject v)).map fun message => [(key, message)]

/-- The choice with a message and a delta. -/
def choiceFields (fields message delta : List (String × Json)) : List (String × Json) :=
  [("index", (fields.lookup "index").getD (.int 0)), ("finish_reason", (fields.lookup "finish_reason").getD .null)] ++
    message ++ delta ++ entry "text" fields ++ entry "logprobs" fields

/-- The completion with some choices. -/
def completionFields (fields : List (String × Json)) (choices : List (List (String × Json))) : List (String × Json) :=
  [("id", (fields.lookup "id").getD .null), ("object", (fields.lookup "object").getD (.str "chat.completion".toList)),
    ("created", (fields.lookup "created").getD .null), ("model", (fields.lookup "model").getD .null),
    ("choices", .arr (choices.map .obj))] ++ entry "usage" fields ++ entry "system_fingerprint" fields

/-- The choices of a payload, before they are normalised. -/
def items (fields : List (String × Json)) : Except PyError (List Json) :=
  ((fields.lookup "choices").getD (.arr [])).iterate

variable {includeReasoning promptTemplate} (fields : List (String × Json))

theorem orObject_obj : orObject (.obj fields) = .obj fields := Envelope.truthy_or_obj fields

theorem normalizeMessage_obj : normalizeMessage includeReasoning promptTemplate (.obj fields) =
    (contentEntry includeReasoning promptTemplate (messageText fields)).map fun content =>
      .obj (entry "role" fields ++ content ++ reasoningEntry includeReasoning fields ++ entry "tool_calls" fields) := by
  have hrest : ∀ content : List (String × Json), (do
      let reasoning ← if includeReasoning then copied "reasoning_content" (.obj fields) else pure []
      let toolCalls ← copied "tool_calls" (.obj fields)
      return Json.obj (entry "role" fields ++ content ++ reasoning ++ toolCalls)) = (.ok (.obj (entry "role" fields ++
        content ++ reasoningEntry includeReasoning fields ++ entry "tool_calls" fields)) : Except PyError Json) := by
    intro content
    cases includeReasoning <;> simp [copied_obj, reasoningEntry, bind, Except.bind, pure, Except.pure]
  unfold normalizeMessage messageText
  simp only [copied_obj, Json.has, Json.get, bind, Except.bind] at hrest ⊢
  cases fields.lookup "content" with
  | some v =>
    simp only [Option.isSome_some, if_true, Option.getD_some, Option.some_or, contentEntry]
    cases sanitizeAssistantText includeReasoning promptTemplate v with
    | error e => rfl
    | ok w => exact hrest [("content", w)]
  | none =>
    simp only [Option.isSome_none, Bool.false_eq_true, if_false, Option.none_or]
    cases fields.lookup "text" with
    | some v =>
      simp only [Option.isSome_some, if_true, Option.getD_some, contentEntry]
      cases sanitizeAssistantText includeReasoning promptTemplate v with
      | error e => rfl
      | ok w => exact hrest [("content", w)]
    | none => exact hrest []

theorem normalizedMessage_obj (key : String) : normalizedMessage includeReasoning promptTemplate key (.obj fields) =
    messageEntry includeReasoning promptTemplate key (fields.lookup key) := by
  unfold normalizedMessage messageEntry
  simp only [Json.has, Json.get, bind, Except.bind]
  cases fields.lookup key with
  | none => rfl
  | some v =>
    simp only [Option.isSome_some, if_true, Option.getD_some, orObject]
    cases normalizeMessage includeReasoning promptTemplate (if v.truthy then v else .obj []) <;> rfl

theorem normalizeChoice_obj : normalizeChoice includeReasoning promptTemplate (.obj fields) = do
    let message ← messageEntry includeReasoning promptTemplate "message" (fields.lookup "message")
    let delta ← messageEntry includeReasoning promptTemplate "delta" (fields.lookup "delta")
    return choiceFields fields message delta := by
  unfold normalizeChoice choiceFields
  simp only [copied_obj, normalizedMessage_obj, Json.get, bind, Except.bind]

theorem normalizeChatCompletion_obj : normalizeChatCompletion includeReasoning promptTemplate (.obj fields) = do
    let items ← items fields
    let choices ← items.mapM (normalizeChoice includeReasoning promptTemplate)
    return (completionFields fields choices, choices) := by
  unfold normalizeChatCompletion completionFields items
  simp only [copied_obj, Json.get, bind, Except.bind]

end

/-! ## Values that are no objects -/

section NoObject

variable {includeReasoning : Bool} {promptTemplate : Option String} {value : Json}

theorem get_of_ne_obj (h : ∀ fields, value ≠ .obj fields) (key : String) (d : Json) :
    value.get key d = .error .attributeError := by
  cases value with
  | obj fields => exact absurd rfl (h fields)
  | _ => rfl

theorem normalizeChoice_of_ne_obj (h : ∀ fields, value ≠ .obj fields) :
    normalizeChoice includeReasoning promptTemplate value = .error .attributeError := by
  unfold normalizeChoice
  rw [get_of_ne_obj h]
  rfl

theorem normalizeChatCompletion_of_ne_obj (h : ∀ fields, value ≠ .obj fields) :
    normalizeChatCompletion includeReasoning promptTemplate value = .error .attributeError := by
  unfold normalizeChatCompletion
  rw [get_of_ne_obj h]
  rfl

end NoObject

end LlmStore.Inference
