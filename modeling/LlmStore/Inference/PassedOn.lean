import LlmStore.Inference.LoopAgreement
import LlmStore.Inference.ReadableAnswer
import Mathlib.Data.List.Forall2

/-!
# Streams that are passed on

A chat stream without a sanitiser, chunk by chunk: each line of the backend becomes one event, except for the deltas in
which nothing is left, and content, tool calls and finish reasons come through in order. `event_stream` collects the text of
each chunk on the way, and a chunk without content whose `text` is no string, such as `null`, raises there. So the stream
is passed on exactly if no line that raises is passed on or stands before one that is (`passed_on_iff`).
-/

namespace LlmStore.Inference.PassedOn

/-! ## Lines -/

/-- A chunk with one choice, whose delta has a string as its content, if any, and no `text`. -/
structure Chunk where
  fields : List (String × Json)
  choice : List (String × Json)
  delta : List (String × Json)
  content : Option (List Char)
  lookup_choices : fields.lookup "choices" = some (.arr [.obj choice])
  lookup_delta : choice.lookup "delta" = some (.obj delta)
  lookup_content : delta.lookup "content" = content.map .str
  lookup_text : delta.lookup "text" = none

/-- A line that `response.aiter_lines()` yields: the end mark or a chunk. -/
inductive Sent
  | done
  | chunk (k : Chunk)

def Sent.line : Sent → BackendLine
  | .done => .done
  | .chunk k => .data (.obj k.fields)

/-- The text that a chunk adds: its content or else the `text` of its choice, if it is a string. -/
def Chunk.fragment? (k : Chunk) : Option (List Char) :=
  match k.content with
  | some (d :: s) => some (d :: s)
  | _ =>
    match k.choice.lookup "text" with
    | none => some []
    | some (.str s) => some s
    | some _ => none

def Sent.fragment? : Sent → Option (List Char)
  | .done => none
  | .chunk k => k.fragment?

/-- What is said in a choice: content and tool calls of its delta and its finish reason, if they are not empty. -/
def saidIn (choice : List (String × Json)) : List (String × Json) :=
  let delta := match choice.lookup "delta" with
    | some (.obj delta) => delta
    | _ => []
  (entry "content" delta ++ entry "tool_calls" delta ++ entry "finish_reason" choice).filter fun field => field.2.truthy

/-- What is said in a line. -/
def said : Line → List (String × Json)
  | .data (.obj fields) =>
    match fields.lookup "choices" with
    | some (.arr (.obj choice :: _)) => saidIn choice
    | _ => []
  | _ => []

section

variable (includeReasoning : Bool) (promptTemplate : Option String)

/-- The chunk raises nothing: its text can be joined, and its choice has no message that cannot be read. -/
def Chunk.Readable (k : Chunk) : Prop :=
  k.fragment?.isSome = true ∧
    ∀ v ∈ k.choice.lookup "message", MessageReadable includeReasoning promptTemplate (orObject v)

def Sent.Readable : Sent → Prop
  | .done => True
  | .chunk k => k.Readable includeReasoning promptTemplate

/-- The delta as it is passed on. -/
def Chunk.shownDelta (k : Chunk) : List (String × Json) :=
  entry "role" k.delta ++ entry "content" k.delta ++ reasoningEntry includeReasoning k.delta ++ entry "tool_calls" k.delta

/-- The normalised delta is empty and there is no `finish_reason`. -/
def Sent.dropped : Sent → Bool
  | .done => false
  | .chunk k => (k.shownDelta includeReasoning).isEmpty &&
    match k.choice.lookup "finish_reason" with
    | none => true
    | some .null => true
    | _ => false

/-- The lines that are passed on. -/
def kept (lines : List Sent) : List Sent := lines.filter fun line => !line.dropped includeReasoning

/-- The events are, in order, one for each line but for the empty ones, and they say what the backend does. -/
structure Faithful (lines : List Sent) (events : List Line) : Prop where
  eachEvent : List.Forall₂ (fun line event => normalizeChatStreamLine includeReasoning promptTemplate line.line.line =
    .ok (some event)) (kept includeReasoning lines) events
  sameWords : events.flatMap said = lines.flatMap fun line => said line.line.line

/-- No line that raises is passed on or stands before one that is. -/
def BreaksSilently (lines : List Sent) : Prop :=
  (∀ line ∈ lines, line.Readable includeReasoning promptTemplate ∨ line.dropped includeReasoning = true) ∧
    lines.Pairwise fun line later => line.Readable includeReasoning promptTemplate ∨ later.dropped includeReasoning = true

end

/-- After some fragments, no repetition is detected at a check, as long as no line raises. -/
def NoLoop (c : StreamSettings) (fragments : List (List Char)) (lines : List Sent) : Prop :=
  ∀ before k after s, lines = before ++ .chunk k :: after →
    (∀ line ∈ before, line.Readable c.includeReasoning c.promptTemplate) → k.fragment? = some s →
      c.loopDetected (fragments ++ before.filterMap Sent.fragment? ++ [s]) = false

/-! ## A chunk -/

namespace Chunk

variable (k : Chunk)

theorem fragment_eq : fragment (.obj k.fields) = match k.fragment? with
    | some s => .ok s
    | none => .error .typeError := by
  have hchoices : (Json.obj k.fields).get "choices" (.arr [.obj []]) = .ok (.arr [.obj k.choice]) := by
    rw [Json.get, k.lookup_choices, Option.getD_some]
  have hdelta : (Json.obj k.choice).get "delta" (.obj []) = .ok (.obj k.delta) := by
    rw [Json.get, k.lookup_delta, Option.getD_some]
  have hcontent : (Json.obj k.delta).get "content" (.str []) = .ok ((k.content.map Json.str).getD (.str [])) := by
    rw [Json.get, k.lookup_content]
  have htext : (Json.obj k.choice).get "text" (.str []) = .ok ((k.choice.lookup "text").getD (.str [])) := by
    rw [Json.get]
  simp only [fragment, chunkText, hchoices, hdelta, hcontent, htext, Json.head, bind, Except.bind, fragment?]
  rcases k.content with _ | _ | ⟨d, s⟩
  · cases htext : k.choice.lookup "text" with
    | none => rfl
    | some v => cases v <;> rfl
  · cases htext : k.choice.lookup "text" with
    | none => rfl
    | some v => cases v <;> rfl
  · rfl

variable {includeReasoning : Bool} {promptTemplate : Option String}

theorem sanitize_of_ne (hpt : promptTemplate ≠ some "qwen") (v : Json) :
    sanitizeAssistantText includeReasoning promptTemplate v = .ok v := by
  unfold sanitizeAssistantText
  cases includeReasoning <;> cases v <;> simp [hpt]

theorem messageEntry_delta (hpt : promptTemplate ≠ some "qwen") :
    messageEntry includeReasoning promptTemplate "delta" (k.choice.lookup "delta") =
      .ok [("delta", .obj (k.shownDelta includeReasoning))] := by
  have htext : messageText k.delta = k.content.map .str := by
    rw [messageText, k.lookup_content, k.lookup_text, Option.or_none]
  have hcontent : contentEntry includeReasoning promptTemplate (messageText k.delta) = .ok (entry "content" k.delta) := by
    rw [htext, entry, k.lookup_content]
    cases k.content with
    | none => rfl
    | some s => rw [Option.map_some, contentEntry, sanitize_of_ne hpt]; rfl
  rw [k.lookup_delta, messageEntry, orObject_obj, normalizeMessage_obj, hcontent]
  rfl

/-- The choice as it is passed on, with an entry for its message. -/
def shownChoice (includeReasoning : Bool) (message : List (String × Json)) : List (String × Json) :=
  choiceFields k.choice message [("delta", .obj (k.shownDelta includeReasoning))]

theorem normalizeChoice_eq (hpt : promptTemplate ≠ some "qwen") :
    normalizeChoice includeReasoning promptTemplate (.obj k.choice) =
      (messageEntry includeReasoning promptTemplate "message" (k.choice.lookup "message")).map
        (k.shownChoice includeReasoning) := by
  rw [normalizeChoice_obj, k.messageEntry_delta hpt]
  cases messageEntry includeReasoning promptTemplate "message" (k.choice.lookup "message") <;> rfl

end Chunk

/-! ## What is said -/

section

variable {includeReasoning : Bool} {promptTemplate : Option String}

/-- The content and the tool calls of a delta come through. -/
theorem lookup_shownDelta (includeReasoning : Bool) (k : Chunk) {key : String} (h : key = "content" ∨ key = "tool_calls") :
    (k.shownDelta includeReasoning).lookup key = k.delta.lookup key := by
  have hreasoning : (reasoningEntry includeReasoning k.delta).lookup key = none := by
    rcases h with rfl | rfl <;> cases includeReasoning <;> simp [reasoningEntry, lookup_entry]
  rcases h with rfl | rfl <;> simp [Chunk.shownDelta, Hole.lookup_append, lookup_entry, hreasoning]

theorem lookup_delta_shownChoice (k : Chunk) {message : List (String × Json)}
    (h : messageEntry includeReasoning promptTemplate "message" (k.choice.lookup "message") = .ok message) :
    (k.shownChoice includeReasoning message).lookup "delta" = some (.obj (k.shownDelta includeReasoning)) := by
  have hmessage : message.lookup "delta" = none := lookup_messageEntry (by decide) h
  simp [Chunk.shownChoice, choiceFields, List.lookup_cons, Hole.lookup_append, hmessage]

theorem lookup_finish_shownChoice (k : Chunk) (message : List (String × Json)) :
    (k.shownChoice includeReasoning message).lookup "finish_reason" =
      some ((k.choice.lookup "finish_reason").getD .null) := by
  simp [Chunk.shownChoice, choiceFields, List.lookup_cons]

/-- A choice says what it did. -/
theorem saidIn_shownChoice (k : Chunk) {message : List (String × Json)}
    (h : messageEntry includeReasoning promptTemplate "message" (k.choice.lookup "message") = .ok message) :
    saidIn (k.shownChoice includeReasoning message) = saidIn k.choice := by
  have hentry : ∀ key, key = "content" ∨ key = "tool_calls" →
      entry key (k.shownDelta includeReasoning) = entry key k.delta := fun key hkey => by
    rw [entry, entry, lookup_shownDelta includeReasoning k hkey]
  have hreason : (entry "finish_reason" (k.shownChoice includeReasoning message)).filter (fun field => field.2.truthy) =
      (entry "finish_reason" k.choice).filter fun field => field.2.truthy := by
    rw [entry, entry, lookup_finish_shownChoice]
    cases k.choice.lookup "finish_reason" <;> rfl
  unfold saidIn
  simp only [lookup_delta_shownChoice k h, k.lookup_delta, List.filter_append, hreason, hentry "content" (.inl rfl),
    hentry "tool_calls" (.inr rfl)]

/-- Nothing is said in a line that is dropped. -/
theorem said_of_dropped {line : Sent} (h : line.dropped includeReasoning = true) : said line.line.line = [] := by
  cases line with
  | done => cases h
  | chunk k =>
    simp only [Sent.dropped, Bool.and_eq_true, List.isEmpty_iff] at h
    obtain ⟨hdelta, hfinish⟩ := h
    have hentry : ∀ key, key = "content" ∨ key = "tool_calls" → entry key k.delta = [] := fun key hkey => by
      rw [entry, ← lookup_shownDelta includeReasoning k hkey, hdelta]
      rfl
    have hreason : (entry "finish_reason" k.choice).filter (fun field => field.2.truthy) = [] := by
      unfold entry
      cases hlookup : k.choice.lookup "finish_reason" with
      | none => rfl
      | some v =>
        rw [hlookup] at hfinish
        cases v with
        | null => rfl
        | _ => cases hfinish
    simp only [Sent.line, BackendLine.line, said, k.lookup_choices, saidIn, k.lookup_delta, List.filter_append, hreason,
      hentry "content" (.inl rfl), hentry "tool_calls" (.inr rfl), List.filter_nil, List.append_nil]

theorem saysNothing_shownChoice (k : Chunk) {message : List (String × Json)}
    (h : messageEntry includeReasoning promptTemplate "message" (k.choice.lookup "message") = .ok message) :
    saysNothing (k.shownChoice includeReasoning message) = Sent.dropped includeReasoning (.chunk k) := by
  unfold saysNothing
  rw [lookup_delta_shownChoice k h, lookup_finish_shownChoice]
  simp only [Sent.dropped]
  cases k.shownDelta includeReasoning with
  | nil =>
    cases k.choice.lookup "finish_reason" with
    | none => rfl
    | some v => cases v <;> rfl
  | cons field fields => rfl

/-- What becomes of a chunk. -/
theorem normalizeChatStreamLine_chunk (hpt : promptTemplate ≠ some "qwen") (k : Chunk) :
    normalizeChatStreamLine includeReasoning promptTemplate (.data (.obj k.fields)) =
      (messageEntry includeReasoning promptTemplate "message" (k.choice.lookup "message")).map fun message =>
        if Sent.dropped includeReasoning (.chunk k) then none
        else some (.data (.obj (completionFields k.fields [k.shownChoice includeReasoning message]))) := by
  have hitems : items k.fields = .ok [.obj k.choice] := by rw [items, k.lookup_choices]; rfl
  simp only [normalizeChatStreamLine, normalizeChatCompletion_obj, hitems, List.mapM_cons, List.mapM_nil,
    k.normalizeChoice_eq hpt, bind, Except.bind]
  cases hmessage : messageEntry includeReasoning promptTemplate "message" (k.choice.lookup "message") with
  | error e => rfl
  | ok message =>
    simp only [Except.map, pure, Except.pure, List.head?_cons, Option.map_some, Option.getD_some,
      saysNothing_shownChoice k hmessage]
    cases Sent.dropped includeReasoning (.chunk k) <;> rfl

/-- What becomes of a line that raises nothing. -/
theorem normalize_of_readable (hpt : promptTemplate ≠ some "qwen") {line : Sent}
    (h : line.Readable includeReasoning promptTemplate) : ∃ event,
      normalizeChatStreamLine includeReasoning promptTemplate line.line.line = .ok event ∧
        event.isSome = !line.dropped includeReasoning ∧ event.toList.flatMap said = said line.line.line := by
  cases line with
  | done => exact ⟨some .done, rfl, rfl, rfl⟩
  | chunk k =>
    obtain ⟨message, hmessage⟩ := returns_messageEntry_iff.mpr h.2
    have hline : normalizeChatStreamLine includeReasoning promptTemplate (Sent.chunk k).line.line =
        .ok (if Sent.dropped includeReasoning (.chunk k) then none else
          some (.data (.obj (completionFields k.fields [k.shownChoice includeReasoning message])))) := by
      rw [Sent.line, BackendLine.line, normalizeChatStreamLine_chunk hpt, hmessage]
      rfl
    refine ⟨_, hline, ?_, ?_⟩
    · cases Sent.dropped includeReasoning (.chunk k) <;> rfl
    · cases hdropped : Sent.dropped includeReasoning (.chunk k) with
      | true =>
        rw [if_pos rfl, said_of_dropped hdropped]
        rfl
      | false =>
        have hsaid : said (.data (.obj (completionFields k.fields [k.shownChoice includeReasoning message]))) =
            saidIn (k.shownChoice includeReasoning message) := by
          simp [said, completionFields, List.lookup_cons]
        have hsent : said (Sent.chunk k).line.line = saidIn k.choice := by
          simp only [said, Sent.line, BackendLine.line, k.lookup_choices]
        rw [if_neg Bool.false_ne_true, Option.toList_some, List.flatMap_singleton, hsaid, hsent,
          saidIn_shownChoice k hmessage]

end

/-! ## Streams -/

section Kept

variable {includeReasoning : Bool} {line : Sent} {lines : List Sent}

theorem kept_cons_of_dropped (h : line.dropped includeReasoning = true) :
    kept includeReasoning (line :: lines) = kept includeReasoning lines := List.filter_cons_of_neg (by simp [h])

theorem kept_cons_of_not_dropped (h : line.dropped includeReasoning = false) :
    kept includeReasoning (line :: lines) = line :: kept includeReasoning lines := List.filter_cons_of_pos (by simp [h])

theorem kept_eq_nil_iff :
    kept includeReasoning lines = [] ↔ ∀ line ∈ lines, line.dropped includeReasoning = true := by
  simp [kept, List.filter_eq_nil_iff]

end Kept

section Streams

variable {c : StreamSettings}

theorem NoLoop.head {fragments : List (List Char)} {k : Chunk} {lines : List Sent}
    (h : NoLoop c fragments (.chunk k :: lines)) {s : List Char} (hs : k.fragment? = some s) :
    c.loopDetected (fragments ++ [s]) = false := by
  simpa using h [] k lines s rfl (by simp) hs

theorem NoLoop.tail {fragments : List (List Char)} {line : Sent} {lines : List Sent}
    (h : NoLoop c fragments (line :: lines)) (hline : line.Readable c.includeReasoning c.promptTemplate) :
    NoLoop c (fragments ++ line.fragment?.toList) lines := by
  intro before k after s hlines hbefore hs
  have hfragments : (line :: before).filterMap Sent.fragment? =
      line.fragment?.toList ++ before.filterMap Sent.fragment? := by
    cases hfragment : line.fragment? <;> simp [hfragment]
  have := h (line :: before) k after s (by rw [hlines, List.cons_append]) (List.forall_mem_cons.mpr ⟨hline, hbefore⟩) hs
  rwa [hfragments, ← List.append_assoc] at this

/-- A line that raises nothing gives its event, if it has one, and the stream goes on. -/
theorem eventStream_readable (hchat : c.chat = true) {fragments : List (List Char)} {line : Sent} {lines : List Sent}
    (hloop : NoLoop c fragments (line :: lines)) (hline : line.Readable c.includeReasoning c.promptTemplate)
    {event : Option Line}
    (hevent : normalizeChatStreamLine c.includeReasoning c.promptTemplate line.line.line = .ok event)
    (rest : List Line) : c.eventStream none fragments (line.line.line :: rest) =
      (c.eventStream none (fragments ++ line.fragment?.toList) rest).after event.toList := by
  have hpass : c.passOn line.line.line = .ok event := by rw [StreamSettings.passOn, if_pos hchat, hevent]
  cases line with
  | done =>
    have hnone : Sent.fragment? .done = none := rfl
    simp only [Sent.line, BackendLine.line] at hpass ⊢
    simp only [StreamSettings.eventStream, hpass, hnone, Option.toList_none, List.append_nil]
  | chunk k =>
    obtain ⟨s, hs⟩ := Option.isSome_iff_exists.mp hline.1
    have hfragment := k.fragment_eq
    rw [hs] at hfragment
    have hsome : Sent.fragment? (.chunk k) = some s := hs
    simp only [Sent.line, BackendLine.line] at hpass ⊢
    simp only [StreamSettings.eventStream, hfragment, hloop.head hs, hpass, hsome, Option.toList_some, Bool.false_eq_true,
      if_false]

/-- A line that raises ends the stream. -/
theorem eventStream_unreadable (hchat : c.chat = true) (hpt : c.promptTemplate ≠ some "qwen")
    {fragments : List (List Char)} {line : Sent} {lines : List Sent} (hloop : NoLoop c fragments (line :: lines))
    (hline : ¬ line.Readable c.includeReasoning c.promptTemplate) (rest : List Line) :
    ∃ e, c.eventStream none fragments (line.line.line :: rest) = ⟨[], some e⟩ := by
  cases line with
  | done => exact absurd trivial hline
  | chunk k =>
    have hfragment := k.fragment_eq
    simp only [Sent.line, BackendLine.line]
    cases hs : k.fragment? with
    | none =>
      rw [hs] at hfragment
      exact ⟨.typeError, by simp only [StreamSettings.eventStream, hfragment]⟩
    | some s =>
      rw [hs] at hfragment
      have hmessage : ¬ ∀ v ∈ k.choice.lookup "message",
          MessageReadable c.includeReasoning c.promptTemplate (orObject v) := fun h => hline ⟨by rw [hs]; rfl, h⟩
      obtain ⟨e, he⟩ : ∃ e, c.passOn (.data (.obj k.fields)) = .error e := by
        rw [StreamSettings.passOn, if_pos hchat, normalizeChatStreamLine_chunk hpt]
        cases hentry : messageEntry c.includeReasoning c.promptTemplate "message" (k.choice.lookup "message") with
        | error e => exact ⟨e, rfl⟩
        | ok message => exact absurd (returns_messageEntry_iff.mp ⟨message, hentry⟩) hmessage
      exact ⟨e, by simp only [StreamSettings.eventStream, hfragment, hloop.head hs, he, Bool.false_eq_true, if_false]⟩

/-- A stream is passed on up to its first line that raises. -/
theorem eventStream_eq (hchat : c.chat = true) (hpt : c.promptTemplate ≠ some "qwen") {lines : List Sent} :
    ∀ {fragments}, NoLoop c fragments lines → ∃ before after, lines = before ++ after ∧
      (∀ line ∈ before, line.Readable c.includeReasoning c.promptTemplate) ∧
      (∀ line ∈ after.head?, ¬ line.Readable c.includeReasoning c.promptTemplate) ∧
      Faithful c.includeReasoning c.promptTemplate before
        (c.eventStream none fragments (lines.map fun line => line.line.line)).events ∧
      ((c.eventStream none fragments (lines.map fun line => line.line.line)).failure = none ↔ after = []) := by
  induction lines with
  | nil => exact fun _ => ⟨[], [], rfl, by simp, by simp, ⟨.nil, rfl⟩, by simp [StreamSettings.eventStream]⟩
  | cons line lines ih =>
    intro fragments hloop
    rw [List.map_cons]
    by_cases hline : line.Readable c.includeReasoning c.promptTemplate
    · obtain ⟨event, hevent, hsome, hsaid⟩ := normalize_of_readable hpt hline
      obtain ⟨before, after, rfl, hbefore, hafter, hfaithful, hfailure⟩ := ih (hloop.tail hline)
      rw [eventStream_readable hchat hloop hline hevent]
      refine ⟨line :: before, after, rfl, List.forall_mem_cons.mpr ⟨hline, hbefore⟩, hafter, ⟨?_, ?_⟩, hfailure⟩
      · cases event with
        | none =>
          rw [kept_cons_of_dropped (by simpa using hsome)]
          exact hfaithful.eachEvent
        | some event =>
          rw [kept_cons_of_not_dropped (by simpa using hsome)]
          exact .cons hevent hfaithful.eachEvent
      · rw [Received.after, List.flatMap_append, hsaid, hfaithful.sameWords, List.flatMap_cons]
    · obtain ⟨e, he⟩ := eventStream_unreadable hchat hpt hloop hline (lines.map fun line => line.line.line)
      rw [he]
      exact ⟨[], line :: lines, rfl, by simp, by simpa using hline, ⟨.nil, rfl⟩, by simp⟩

/-- The lines up to the first one that raises are passed on, so all are just if nothing is left of the others. -/
theorem faithful_iff {includeReasoning : Bool} {promptTemplate : Option String} {before after : List Sent}
    {events : List Line} (h : Faithful includeReasoning promptTemplate before events) :
    Faithful includeReasoning promptTemplate (before ++ after) events ↔
      ∀ line ∈ after, line.dropped includeReasoning = true := by
  have happend : kept includeReasoning (before ++ after) =
      kept includeReasoning before ++ kept includeReasoning after := List.filter_append ..
  constructor
  · intro hall
    have hlength := hall.eachEvent.length_eq
    rw [happend, List.length_append, h.eachEvent.length_eq] at hlength
    have hnil : kept includeReasoning after = [] := List.eq_nil_of_length_eq_zero (by omega)
    exact kept_eq_nil_iff.mp hnil
  · intro hdropped
    refine ⟨?_, ?_⟩
    · rw [happend, kept_eq_nil_iff.mpr hdropped, List.append_nil]
      exact h.eachEvent
    · have hnothing : (after.flatMap fun line => said line.line.line) = [] :=
        List.flatMap_eq_nil_iff.mpr fun line hline => said_of_dropped (hdropped line hline)
      rw [List.flatMap_append, hnothing, List.append_nil]
      exact h.sameWords

theorem breaksSilently_iff {includeReasoning : Bool} {promptTemplate : Option String} {before after : List Sent}
    (hbefore : ∀ line ∈ before, line.Readable includeReasoning promptTemplate)
    (hafter : ∀ line ∈ after.head?, ¬ line.Readable includeReasoning promptTemplate) :
    BreaksSilently includeReasoning promptTemplate (before ++ after) ↔
      ∀ line ∈ after, line.dropped includeReasoning = true := by
  unfold BreaksSilently
  constructor
  · rintro ⟨hall, hpairs⟩ line hline
    cases after with
    | nil => simp at hline
    | cons first rest =>
      have hfirst : ¬ first.Readable includeReasoning promptTemplate := hafter first rfl
      rcases List.mem_cons.mp hline with rfl | hrest
      · exact (hall line (by simp)).resolve_left hfirst
      · have hrel := (List.pairwise_cons.mp (List.pairwise_append.mp hpairs).2.1).1
        exact (hrel line hrest).resolve_left hfirst
  · intro hdropped
    refine ⟨fun line hline => ?_, List.pairwise_append.mpr ⟨?_, ?_, ?_⟩⟩
    · exact (List.mem_append.mp hline).imp (hbefore line) (hdropped line)
    · exact (List.pairwise_of_forall fun _ _ => trivial).imp_of_mem fun hline _ _ => .inl (hbefore _ hline)
    · exact (List.pairwise_of_forall fun _ _ => trivial).imp_of_mem fun _ hlater _ => .inr (hdropped _ hlater)
    · exact fun line hline _ _ => .inl (hbefore line hline)

end Streams

/-- What the client receives of a stream that does not break off. -/
def received (lower : List Char → List Char) (o : Origin) (includeReasoning : Bool) (promptTemplate : Option String)
    (lines : List Sent) : Received :=
  ((checkedStream lower includeReasoning promptTemplate).run o none (lines.map Sent.line)).1

/-- **When a stream is passed on.** And it ends without an exception exactly if no line raises. -/
theorem passed_on_iff (lower : List Char → List Char) {o : Origin} (ho : o.ollama = false) (includeReasoning : Bool)
    {promptTemplate : Option String} (hpt : promptTemplate ≠ some "qwen") (lines : List Sent)
    (hloop : NoLoop (checkedStream lower includeReasoning promptTemplate) [] lines) :
    (Faithful includeReasoning promptTemplate lines (received lower o includeReasoning promptTemplate lines).events ↔
        BreaksSilently includeReasoning promptTemplate lines) ∧
      ((received lower o includeReasoning promptTemplate lines).failure = none ↔
        ∀ line ∈ lines, line.Readable includeReasoning promptTemplate) := by
  have hreceived : received lower o includeReasoning promptTemplate lines =
      (checkedStream lower includeReasoning promptTemplate).eventStream none [] (lines.map fun line => line.line.line) := by
    rw [received, StreamSettings.run_eq, StreamSettings.stream_openai ho, List.map_map]
    rfl
  obtain ⟨before, after, rfl, hbefore, hafter, hfaithful, hfailure⟩ := eventStream_eq rfl hpt hloop
  rw [hreceived]
  refine ⟨(faithful_iff hfaithful).trans (breaksSilently_iff hbefore hafter).symm, hfailure.trans ?_⟩
  constructor
  · rintro rfl line hline
    exact hbefore line (by simpa using hline)
  · intro hall
    cases after with
    | nil => rfl
    | cons line rest => exact absurd (hall line (by simp)) (hafter line rfl)

/-! ## Two chunks -/

/-- A chunk of one choice, with an entry for its `text`, if any. -/
def plainChunk (text : List (String × Json)) (delta : List (String × Json)) (content : Option (List Char))
    (hcontent : delta.lookup "content" = content.map .str) (htext : delta.lookup "text" = none)
    (hplain : text.lookup "delta" = none) : Chunk where
  fields := [("choices", .arr [.obj (text ++ [("delta", .obj delta)])])]
  choice := text ++ [("delta", .obj delta)]
  delta := delta
  content := content
  lookup_choices := rfl
  lookup_delta := by rw [Hole.lookup_append, hplain]; rfl
  lookup_content := hcontent
  lookup_text := htext

/-- The repetition check needs five fragments. -/
theorem noLoop_of_length {c : StreamSettings} {lines : List Sent} (h : lines.length < 5) : NoLoop c [] lines := by
  rintro before k after s rfl - -
  have hle : (before.filterMap Sent.fragment?).length ≤ before.length := List.length_filterMap_le ..
  simp only [List.length_append, List.length_cons] at h
  have hne : ([] ++ before.filterMap Sent.fragment? ++ [s]).length % 5 ≠ 0 := by
    simp only [List.nil_append, List.length_append, List.length_singleton]
    omega
  rw [StreamSettings.loopDetected, beq_eq_false_iff_ne.mpr hne, Bool.false_and]

/-- A chunk that says something. -/
def saying : Sent := .chunk (plainChunk [] [("content", .str "hi".toList)] (some "hi".toList) rfl rfl rfl)

/-- The first chunk of an answer, with a `text` that is `null`. -/
def nullText : Sent :=
  .chunk (plainChunk [("text", .null)] [("role", .str "assistant".toList)] none rfl rfl rfl)

theorem passed_on_iff_saying :
    (Faithful false none [saying, .done] (received id ⟨false, "m", fun _ => 0⟩ false none [saying, .done]).events ↔
        BreaksSilently false none [saying, .done]) ∧
      ((received id ⟨false, "m", fun _ => 0⟩ false none [saying, .done]).failure = none ↔
        ∀ line ∈ [saying, .done], line.Readable false none) :=
  passed_on_iff id rfl false (by decide) [saying, .done] (noLoop_of_length (by decide))

/-- A `text` that is `null` ends the stream. -/
theorem null_text_ends_stream :
    ¬ ∀ (lower : List Char → List Char) (o : Origin) (includeReasoning : Bool) (promptTemplate : Option String)
      (lines : List Sent), o.ollama = false → promptTemplate ≠ some "qwen" →
        NoLoop (checkedStream lower includeReasoning promptTemplate) [] lines →
          Faithful includeReasoning promptTemplate lines
            (received lower o includeReasoning promptTemplate lines).events := by
  intro h
  have hall := h id ⟨false, "m", fun _ => 0⟩ false none [nullText, saying, .done] rfl (by decide)
    (noLoop_of_length (by decide))
  have hnothing : (received id ⟨false, "m", fun _ => 0⟩ false none [nullText, saying, .done]).events = [] := rfl
  have hlength := hall.eachEvent.length_eq
  rw [hnothing] at hlength
  exact absurd hlength (by decide)

end LlmStore.Inference.PassedOn
