import LlmStore.Inference.EventStream
import LlmStore.Lib.Program

/-!
# The event stream over any backend

`event_stream` for all providers: a line of an Ollama backend is translated into a chunk of the OpenAI protocol first
(`Origin.read`). What one line does is its turn: it raises, it ends the stream because the text repeats itself, or it is
passed on with a fragment of the text (`StreamSettings.turn`). The generator goes through the lines and closes the
response and the client in the end, however it ends (`run_eq`). Over a backend that speaks the OpenAI protocol it is
`eventStream` (`stream_openai`).
-/

namespace LlmStore.Inference

open LlmStore.Lib

/-! ## Lines of a backend -/

/-- A line that `response.aiter_lines()` yields: a text that does not start with `data: `, with what `json.loads` makes of
it, or `data: ` with the end mark, with a text on which `json.loads` raises or with JSON. (`httpx` ends a line also at
U+0085, U+2028 and U+2029.) -/
inductive BackendLine
  | text (s : List Char) (json : Except PyError Json)
  | done
  | malformed (s : List Char) (error : PyError)
  | data (payload : Json)

namespace BackendLine

/-- The line as one of the OpenAI protocol. -/
def line : BackendLine → Line
  | text s _ => .other s
  | done => .done
  | malformed s error => .malformed s error
  | data payload => .data payload

/-- `json.loads` of the whole line. -/
def json : BackendLine → Except PyError Json
  | text _ json => json
  | _ => .error .jsonDecodeError

/-- `not line`. -/
def isEmpty : BackendLine → Bool
  | text s _ => s.isEmpty
  | _ => false

end BackendLine

/-! ## Ollama -/

/-- `content or ""`. -/
def orEmpty (content : Json) : Json := if content.truthy then content else .str []

/-- The chunk of `_translate_ollama_stream_line` at the chat endpoint. -/
def ollamaChatChunk (modelName : String) (created : ℤ) (delta : Json) : Json :=
  .obj [("id", .str ("chatcmpl-ollama-" ++ modelName).toList), ("object", .str "chat.completion.chunk".toList),
    ("created", .int created), ("model", .str modelName.toList),
    ("choices", .arr [.obj [("index", .int 0), ("delta", .obj [("content", delta)]), ("finish_reason", .null)]])]

/-- The chunk of `_translate_ollama_stream_line` at the other endpoint. -/
def ollamaTextChunk (modelName : String) (created : ℤ) (text : Json) : Json :=
  .obj [("id", .str ("cmpl-ollama-" ++ modelName).toList), ("object", .str "text_completion".toList),
    ("created", .int created), ("model", .str modelName.toList),
    ("choices", .arr [.obj [("index", .int 0), ("text", text), ("finish_reason", .null)]])]

/-- `_translate_ollama_stream_line` at the second `created`, for what `json.loads` makes of the line; it catches a
`JSONDecodeError`. The text of the chunk is read again as the chunk. -/
def translateOllamaStreamLine (chat : Bool) (modelName : String) (created : ℤ) :
    Except PyError Json → Except PyError (Option Line)
  | .error .jsonDecodeError => .ok none
  | .error e => .error e
  | .ok payload =>
    if chat then do
      let message ← payload.get "message" .null
      let content ← (if message.truthy then message else .obj []).get "content" .null
      return some (.data (ollamaChatChunk modelName created (orEmpty content)))
    else do
      let text ← payload.get "response" (.str [])
      return some (.data (ollamaTextChunk modelName created text))

/-- Where the lines come from: whether `backend == "ollama"`, the name of the model, and the seconds of `perf_counter()`
by the number of lines that are left. -/
structure Origin where
  ollama : Bool
  modelName : String
  clock : ℕ → ℤ

/-- The line that `event_stream` goes on with, if it does. -/
def Origin.read (o : Origin) (chat : Bool) (left : ℕ) (line : BackendLine) : Except PyError (Option Line) :=
  if line.isEmpty then .ok none
  else if o.ollama then translateOllamaStreamLine chat o.modelName (o.clock left) line.json
  else .ok (some line.line)

/-! ## Turns -/

/-- What the generator does with one line. -/
inductive Turn
  | raise (e : PyError)
  /-- The text repeats itself: the last chunk and the end mark are sent. -/
  | cut
  | pass (fragment : Option (List Char)) (events : List Line)

namespace StreamSettings

variable (c : StreamSettings)

/-- The turn of a line of the OpenAI protocol. -/
def lineTurn (fragments : List (List Char)) : Line → Turn
  | .data parsed =>
    match fragment parsed with
    | .error e => .raise e
    | .ok s =>
      if c.loopDetected (fragments ++ [s]) then .cut
      else
        match c.passOn (.data parsed) with
        | .error e => .raise e
        | .ok event => .pass (some s) event.toList
  | .malformed s error =>
    -- the exception of the first `json.loads` is passed over if it is a `JSONDecodeError`
    if error = .jsonDecodeError then
      match c.passOn (.malformed s error) with
      | .error e => .raise e
      | .ok event => .pass none event.toList
    else .raise error
  | line =>
    match c.passOn line with
    | .error e => .raise e
    | .ok event => .pass none event.toList

/-- The turn of a line, after some fragments and with so many lines left. -/
def turn (o : Origin) (left : ℕ) (fragments : List (List Char)) (line : BackendLine) : Turn :=
  match o.read c.chat left line with
  | .error e => .raise e
  | .ok none => .pass none []
  | .ok (some line) => c.lineTurn fragments line

/-- `event_stream` over the lines of the backend, with the fragments so far; `broken` is the transport error that ends
the lines, if one does. -/
def stream (o : Origin) (broken : Option String) : List (List Char) → List BackendLine → Received
  | _, [] => ⟨(broken.map errorEvent).toList, none⟩
  | fragments, line :: lines =>
    match c.turn o lines.length fragments line with
    | .raise e => ⟨[], some e⟩
    | .cut => ⟨[truncationChunk, .done], none⟩
    | .pass s events => (stream o broken (fragments ++ s.toList) lines).after events

/-! ## The generator -/

/-- How often the response and the client of the backend are closed. -/
structure Closings where
  response : ℕ
  client : ℕ

/-- What `event_stream` does: the events it yields, and what it closes. -/
structure Effects where
  events : List Line
  closings : Closings

/-- `yield`. -/
def send (event : Line) : Program PyError Effects Unit :=
  Program.modify fun s => { s with events := s.events ++ [event] }

def sendAll : List Line → Program PyError Effects Unit
  | [] => pure ()
  | event :: events => do
    send event
    sendAll events

/-- `await response.aclose()`. -/
def closeResponse : Program PyError Effects Unit :=
  Program.modify fun s => { s with closings.response := s.closings.response + 1 }

/-- `await stream_client.aclose()`. -/
def closeClient : Program PyError Effects Unit :=
  Program.modify fun s => { s with closings.client := s.closings.client + 1 }

/-- The `async for` of `event_stream`, after some fragments. -/
def loop (o : Origin) (broken : Option String) : List (List Char) → List BackendLine → Program PyError Effects Unit
  -- only `aiter_lines` raises a transport error, which is caught around the loop
  | _, [] => sendAll (broken.map errorEvent).toList
  | fragments, line :: lines =>
    match c.turn o lines.length fragments line with
    | .raise e => Program.raise e
    | .cut => do
      send truncationChunk
      send .done
    | .pass s events => do
      sendAll events
      loop o broken (fragments ++ s.toList) lines

/-- `event_stream`. -/
def generator (o : Origin) (broken : Option String) (lines : List BackendLine) : Program PyError Effects Unit :=
  Program.tryFinally (c.loop o broken [] lines) do
    closeResponse
    closeClient

/-- `event_stream`, iterated to its end. -/
def run (o : Origin) (broken : Option String) (lines : List BackendLine) : Received × Closings :=
  match (c.generator o broken lines).exec ⟨[], ⟨0, 0⟩⟩ with
  | (outcome, s) => (⟨s.events, match outcome with | .ok () => none | .error e => some e⟩, s.closings)

variable {c}

/-- The outcome of a generator that has yielded what the client receives. -/
def Received.outcome (r : Received) : Except PyError Unit :=
  match r.failure with
  | none => .ok ()
  | some e => .error e

theorem exec_sendAll (events : List Line) :
    ∀ s, (sendAll events).exec s = (.ok (), { s with events := s.events ++ events }) := by
  induction events with
  | nil =>
    intro s
    rw [List.append_nil]
    rfl
  | cons event events ih =>
    intro s
    rw [sendAll, Program.exec_bind_ok (rfl : (send event).exec s = (.ok (), _)), ih]
    simp

/-- By induction on the lines: the loop yields what the client receives, and closes nothing. -/
theorem exec_loop (o : Origin) (broken : Option String) (lines : List BackendLine) : ∀ fragments s,
    (c.loop o broken fragments lines).exec s = (Received.outcome (c.stream o broken fragments lines),
      { s with events := s.events ++ (c.stream o broken fragments lines).events }) := by
  induction lines with
  | nil =>
    intro fragments s
    rw [loop, stream, exec_sendAll]
    rfl
  | cons line lines ih =>
    intro fragments s
    rw [loop, stream]
    cases c.turn o lines.length fragments line with
    | raise e =>
      dsimp only
      rw [List.append_nil]
      rfl
    | cut =>
      dsimp only
      rw [Program.exec_bind_ok (rfl : (send truncationChunk).exec s = (.ok (), _))]
      simp [send, Program.modify, Program.modifyGet, Received.outcome]
    | pass text events =>
      dsimp only
      rw [Program.exec_bind_ok (exec_sendAll events s), ih]
      simp [Received.after, Received.outcome]

/-- **The response and the client are closed once, on every way out**; the client receives what `stream` says. -/
theorem run_eq (o : Origin) (broken : Option String) (lines : List BackendLine) :
    c.run o broken lines = (c.stream o broken [] lines, ⟨1, 1⟩) := by
  have hexec : (c.generator o broken lines).exec ⟨[], ⟨0, 0⟩⟩ =
      (Received.outcome (c.stream o broken [] lines), ⟨(c.stream o broken [] lines).events, ⟨1, 1⟩⟩) := by
    unfold generator Program.tryFinally
    simp only [exec_loop]
    rfl
  rw [run, hexec]
  generalize c.stream o broken [] lines = received
  obtain ⟨events, failure⟩ := received
  cases failure <;> rfl

/-- Over a backend that speaks the OpenAI protocol, the generator is the one of `eventStream`. -/
theorem stream_openai {o : Origin} (ho : o.ollama = false) (broken : Option String) (lines : List BackendLine) :
    ∀ fragments, c.stream o broken fragments lines = c.eventStream broken fragments (lines.map BackendLine.line) := by
  induction lines with
  | nil =>
    intro fragments
    rw [List.map_nil, eventStream, stream]
  | cons line lines ih =>
    intro fragments
    have hread : line.isEmpty = false → o.read c.chat lines.length line = .ok (some line.line) := fun h => by
      simp [Origin.read, h, ho]
    rw [List.map_cons, stream, turn]
    cases line with
    | text s json =>
      cases s with
      | nil =>
        have hempty : o.read c.chat lines.length (.text [] json) = .ok none := rfl
        have hnil : (BackendLine.text [] json).line = .other [] := rfl
        simp only [hempty, hnil, eventStream]
        rw [← ih]
        simp [Received.after]
      | cons d s =>
        have hline : (BackendLine.text (d :: s) json).line = .other (d :: s) := rfl
        simp only [hread rfl, hline, lineTurn, eventStream]
        cases c.passOn (.other (d :: s)) with
        | error e => rfl
        | ok event => simp [ih]
    | done =>
      have hline : BackendLine.done.line = .done := rfl
      simp only [hread rfl, hline, lineTurn, eventStream]
      cases c.passOn .done with
      | error e => rfl
      | ok event => simp [ih]
    | malformed s error =>
      have hline : (BackendLine.malformed s error).line = .malformed s error := rfl
      simp only [hread rfl, hline, lineTurn, eventStream]
      by_cases herror : error = .jsonDecodeError
      · simp only [if_pos herror]
        cases c.passOn (.malformed s error) with
        | error e => rfl
        | ok event => simp [ih]
      · simp only [if_neg herror]
    | data payload =>
      have hline : (BackendLine.data payload).line = .data payload := rfl
      simp only [hread rfl, hline, lineTurn, eventStream]
      cases fragment payload with
      | error e => rfl
      | ok s =>
        by_cases hloop : c.loopDetected (fragments ++ [s]) = true
        · simp [hloop]
        · simp only [hloop, if_false, Bool.false_eq_true]
          cases c.passOn (.data payload) with
          | error e => rfl
          | ok event => simp [ih]

end StreamSettings

end LlmStore.Inference
