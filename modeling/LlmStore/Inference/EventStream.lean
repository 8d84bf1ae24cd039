import LlmStore.Inference.Sanitize

/-!
# The event stream of a streamed answer

`event_stream` of `InferenceProxy._streaming_forward`, for a backend that speaks the OpenAI protocol. The repetition
check of `app/utils/anti_loop.py` is a parameter of it.
-/

namespace LlmStore.Inference

/-- What the client receives: events, and the exception that ends the stream, if any. -/
structure Received where
  events : List Line
  failure : Option PyError

/-- Events before the others. -/
def Received.after (events : List Line) (r : Received) : Received := { r with events := events ++ r.events }

/-- The text of a chunk: `delta.content`, else `text`, of its first choice. -/
def chunkText (parsed : Json) : Except PyError Json := do
  let choice ← (← parsed.get "choices" (.arr [.obj []])).head
  let delta ← choice.get "delta" (.obj [])
  let content ← delta.get "content" (.str [])
  if content.truthy then return content
  let choice ← (← parsed.get "choices" (.arr [.obj []])).head
  choice.get "text" (.str [])

/-- The fragment that a chunk adds to the text so far; only strings can be joined. -/
def fragment (parsed : Json) : Except PyError (List Char) := do
  match ← chunkText parsed with
  | .str s => return s
  | _ => throw .typeError

/-- The last chunk of a stream that repeats itself. -/
def truncationChunk : Line :=
  .data (.obj [("choices", .arr [.obj [("index", .int 0),
    ("delta", .obj [("content", .str "\n\n[Truncated due to repetition loop]".toList)]),
    ("finish_reason", .str "length".toList)]])])

/-- The event of a stream that breaks off, by the class of the transport error. -/
def errorEvent (error : String) : Line :=
  .data (.obj [("error", .obj [("message", .str "stream interrupted".toList), ("type", .str error.toList)])])

/-- How a stream is answered. -/
structure StreamSettings where
  chat : Bool
  includeReasoning : Bool
  promptTemplate : Option String
  detectRepetition : List Char → Bool

/-- What is passed on for a line: at the chat endpoint a normalised one, or nothing. -/
def StreamSettings.passOn (c : StreamSettings) (line : Line) : Except PyError (Option Line) :=
  if c.chat then normalizeChatStreamLine c.includeReasoning c.promptTemplate line else .ok (some line)

/-- The repetition check after a new fragment, at every fifth. -/
def StreamSettings.loopDetected (c : StreamSettings) (fragments : List (List Char)) : Bool :=
  fragments.length % 5 == 0 && c.detectRepetition fragments.flatten

/-- `event_stream` over the lines of the backend, with the fragments so far; `broken` is the transport error that ends
the lines, if one does. -/
def StreamSettings.eventStream (c : StreamSettings) (broken : Option String) : List (List Char) → List Line → Received
  | _, [] => ⟨(broken.map errorEvent).toList, none⟩
  | fragments, .other [] :: lines => c.eventStream broken fragments lines
  | fragments, .data parsed :: lines =>
    match fragment parsed with
    | .error e => ⟨[], some e⟩
    | .ok s =>
      if c.loopDetected (fragments ++ [s]) then ⟨[truncationChunk, .done], none⟩
      else
        match c.passOn (.data parsed) with
        | .error e => ⟨[], some e⟩
        | .ok event => (c.eventStream broken (fragments ++ [s]) lines).after event.toList
  | fragments, .malformed s error :: lines =>
    -- the exception of the first `json.loads` is passed over if it is a `JSONDecodeError`
    if error = .jsonDecodeError then
      match c.passOn (.malformed s error) with
      | .error e => ⟨[], some e⟩
      | .ok event => (c.eventStream broken fragments lines).after event.toList
    else ⟨[], some error⟩
  | fragments, line :: lines =>
    match c.passOn line with
    | .error e => ⟨[], some e⟩
    | .ok event => (c.eventStream broken fragments lines).after event.toList

end LlmStore.Inference
