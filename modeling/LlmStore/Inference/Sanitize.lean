import LlmStore.Core.Json
import LlmStore.Core.Text
import LlmStore.Lib.Chunks

/-!
# What a client sees of a backend's answer

`sanitize_assistant_text` and the normalisation of completions and stream lines, `app/utils/model_prompting.py` and
`app/utils/openai_response.py`.
-/

namespace LlmStore.Inference

open Blocks

/-- A character of a pattern under `re.IGNORECASE`. -/
def ignoreCase (c x : Char) : Bool :=
  match c with
  | 'i' => x ∈ ['i', 'I', 'İ', 'ı']
  | 'k' => x ∈ ['k', 'K', 'K']
  | c => x = c ∨ x = c.toUpper

/-- `<think>`. -/
def thinkTag : List Char := "<think>".toList

/-- `</think>`. -/
def endThinkTag : List Char := "</think>".toList

/-- `_THINK_BLOCK_RE`: `<think>.*?</think>`, any character in between. -/
def thinkBlock : Delimiters Char where
  opens := ignoreCase '<'
  openRest := "think>".toList.map ignoreCase
  closes := ignoreCase '<'
  closeRest := "/think>".toList.map ignoreCase
  unbordered := by
    intro q hq x hx
    have hx : x = '<' := by simpa [ignoreCase] using hx
    subst hx
    revert q
    decide

/-- `_THINK_BLOCK_RE.sub("", content)`, then the tags left over removed and the spaces at the ends. -/
def sanitizeText (content : List Char) : List Char :=
  Text.strip (Text.delete endThinkTag (Text.delete thinkTag (thinkBlock.removeBlocks content)))

/-- `sanitize_assistant_text`. -/
def sanitizeAssistantText (includeReasoning : Bool) (promptTemplate : Option String) (content : Json) :
    Except PyError Json :=
  match content with
  | .null => .ok .null
  | content =>
    if includeReasoning then .ok content
    else if promptTemplate = some "qwen" then
      match content with
      | .str s => .ok (.str (sanitizeText s))
      | _ => .error .typeError
    else .ok content

/-- `if key in value: normalized[key] = value.get(key)`. -/
def copied (key : String) (value : Json) : Except PyError (List (String × Json)) := do
  if ← value.has key then return [(key, ← value.get key .null)] else return []

/-- `_normalize_message`. -/
def normalizeMessage (includeReasoning : Bool) (promptTemplate : Option String) (message : Json) :
    Except PyError Json := do
  let role ← copied "role" message
  let content ←
    if ← message.has "content" then
      let content ← sanitizeAssistantText includeReasoning promptTemplate (← message.get "content" .null)
      pure [("content", content)]
    else do
      if ← message.has "text" then
        let content ← sanitizeAssistantText includeReasoning promptTemplate (← message.get "text" .null)
        pure [("content", content)]
      else pure []
  let reasoning ← if includeReasoning then copied "reasoning_content" message else pure []
  let toolCalls ← copied "tool_calls" message
  return .obj (role ++ content ++ reasoning ++ toolCalls)

/-- `if key in choice: normalized[key] = _normalize_message(choice.get(key) or {}, …)`. -/
def normalizedMessage (includeReasoning : Bool) (promptTemplate : Option String) (key : String) (choice : Json) :
    Except PyError (List (String × Json)) := do
  if ← choice.has key then
    let message ← choice.get key .null
    let message ← normalizeMessage includeReasoning promptTemplate (if message.truthy then message else .obj [])
    return [(key, message)]
  else return []

/-- `_normalize_choice`. -/
def normalizeChoice (includeReasoning : Bool) (promptTemplate : Option String) (choice : Json) :
    Except PyError (List (String × Json)) := do
  let index ← choice.get "index" (.int 0)
  let finishReason ← choice.get "finish_reason" .null
  let message ← normalizedMessage includeReasoning promptTemplate "message" choice
  let delta ← normalizedMessage includeReasoning promptTemplate "delta" choice
  let text ← copied "text" choice
  let logprobs ← copied "logprobs" choice
  return [("index", index), ("finish_reason", finishReason)] ++ message ++ delta ++ text ++ logprobs

/-- `normalize_chat_completion`, with the choices by themselves. -/
def normalizeChatCompletion (includeReasoning : Bool) (promptTemplate : Option String) (payload : Json) :
    Except PyError (List (String × Json) × List (List (String × Json))) := do
  let id ← payload.get "id" .null
  let object ← payload.get "object" (.str "chat.completion".toList)
  let created ← payload.get "created" .null
  let model ← payload.get "model" .null
  let items ← (← payload.get "choices" (.arr [])).iterate
  let choices ← items.mapM (normalizeChoice includeReasoning promptTemplate)
  let usage ← copied "usage" payload
  let fingerprint ← copied "system_fingerprint" payload
  return ([("id", id), ("object", object), ("created", created), ("model", model),
    ("choices", .arr (choices.map .obj))] ++ usage ++ fingerprint, choices)

/-- A line of a server-sent event stream: not a `data: ` line, the end mark, or data that `json.loads` reads or raises
on. -/
inductive Line
  | other (text : List Char)
  | done
  | malformed (text : List Char) (error : PyError)
  | data (payload : Json)

/-- The first choice of a chunk says nothing: its delta is empty and it is not the last. -/
def saysNothing (choice : List (String × Json)) : Bool :=
  (match choice.lookup "delta" with | some (.obj []) => true | _ => false) &&
    (match choice.lookup "finish_reason" with | some .null => true | none => true | _ => false)

/-- `normalize_chat_stream_line`. -/
def normalizeChatStreamLine (includeReasoning : Bool) (promptTemplate : Option String) :
    Line → Except PyError (Option Line)
  | .other text => .ok (some (.other text))
  | .done => .ok (some .done)
  | .malformed _ error => .error error
  | .data payload => do
    let (normalized, choices) ← normalizeChatCompletion includeReasoning promptTemplate payload
    if (choices.head?.map saysNothing).getD false then return none
    return some (.data (.obj normalized))

end LlmStore.Inference
