import LlmStore.Inference.EventStream

/-!
# Hidden reasoning in streams

A streamed chat answer of a `qwen` model without its reasoning. The sanitiser works on each chunk by itself, so what is
inside `<think>...</think>` stays hidden exactly in the streams in which no chunk starts inside of it
(`hidden_iff_contained`): a block over two chunks comes through (`reasoning_shown`), while the same text in one answer
does not.
-/

namespace LlmStore.Inference

open Blocks

/-- A chunk with one choice and a delta, without the content of the delta. -/
structure Envelope where
  payload : Hole "choices"
  choice : Hole "delta"
  delta : Hole "content"
  plainChoice : ∀ field ∈ choice.before ++ choice.after, field.1 ≠ "message" ∧ field.1 ≠ "text"
  plainDelta : ∀ field ∈ delta.before ++ delta.after, field.1 ≠ "text"

/-- The content of a delta. -/
inductive Content
  | absent
  | null
  | text (s : List Char)

/-- A line of a chat stream, as `response.aiter_lines()` yields it. -/
inductive Piece
  | other (text : List Char)
  | done
  | chunk (envelope : Envelope) (content : Content)

/-- The delta of a chunk. -/
def Envelope.message (f : Envelope) : Content → Json
  | .absent => f.delta.bare
  | .null => f.delta.fill .null
  | .text s => f.delta.fill (.str s)

/-- The choice of a chunk. -/
def Envelope.item (f : Envelope) (content : Content) : Json := f.choice.fill (f.message content)

/-- The line that is read. -/
def Piece.line : Piece → Line
  | .other text => .other text
  | .done => .done
  | .chunk f content => .data (f.payload.fill (.arr [f.item content]))

/-- The piece without its text. -/
def Piece.blank : Piece → Piece
  | .chunk f (.text _) => .chunk f (.text [])
  | piece => piece

/-- The text of a piece, if it has some. -/
def Piece.text? : Piece → Option (List Char)
  | .chunk _ (.text s) => some s
  | _ => none

/-- The texts of a stream, chunk by chunk. -/
def texts (stream : List Piece) : List (List Char) := stream.filterMap Piece.text?

/-- The fragment of a piece; a chunk without content counts as an empty one. -/
def Piece.fragment? : Piece → Option (List Char)
  | .chunk _ (.text s) => some s
  | .chunk _ _ => some []
  | _ => none

/-- The fragments that `event_stream` collects. -/
def fragments (stream : List Piece) : List (List Char) := stream.filterMap Piece.fragment?

/-- Two streams with the same chunks, whose texts differ inside of closed blocks only. -/
def Alike (stream stream' : List Piece) : Prop :=
  stream.map Piece.blank = stream'.map Piece.blank ∧
    thinkBlock.visible (texts stream) = thinkBlock.visible (texts stream')

/-- A streamed `qwen` chat answer without its reasoning. -/
def qwenChat (check : List Char → Bool) : StreamSettings :=
  { chat := true, includeReasoning := false, promptTemplate := some "qwen", detectRepetition := check }

/-- What the client receives of a stream. -/
def received (check : List Char → Bool) (broken : Option String) (stream : List Piece) : Received :=
  (qwenChat check).eventStream broken [] (stream.map Piece.line)

/-- No repetition loop is detected in the stream. -/
def LoopFree (check : List Char → Bool) (stream : List Piece) : Prop :=
  ∀ n < (fragments stream).length, (qwenChat check).loopDetected ((fragments stream).take (n + 1)) = false

/-! ## What a chunk gives -/

/-- The entry of an object at a key, if it has one. -/
def entry (key : String) (fields : List (String × Json)) : List (String × Json) :=
  ((fields.lookup key).map (Prod.mk key)).toList

theorem copied_obj (key : String) (fields : List (String × Json)) : copied key (.obj fields) = .ok (entry key fields) := by
  rcases h : fields.lookup key with _ | v <;>
    simp [copied, Json.has, Json.get, entry, h, bind, Except.bind, pure, Except.pure]

theorem copied_fill {key : String} (h : Hole key) {k : String} (hk : k ≠ key) (value : Json) :
    copied k (h.fill value) = .ok (entry k (h.before ++ h.after)) := by
  rw [Hole.fill, copied_obj, entry, h.lookup_fill_of_ne hk, ← entry]

theorem entry_eq_nil {key : String} {fields : List (String × Json)} (h : ∀ field ∈ fields, field.1 ≠ key) :
    entry key fields = [] := by
  rw [entry, Hole.lookup_eq_none h]
  rfl

namespace Envelope

variable (f : Envelope)

/-- The content that is passed on. -/
def shownContent : Content → List (String × Json)
  | .absent => []
  | .null => [("content", .null)]
  | .text s => [("content", .str (sanitizeText s))]

/-- The delta that is passed on. -/
def shownMessage (content : Content) : Json :=
  let fields := f.delta.before ++ f.delta.after
  .obj (entry "role" fields ++ shownContent content ++ [] ++ entry "tool_calls" fields)

/-- The choice that is passed on. -/
def shownItem (content : Content) : List (String × Json) :=
  let fields := f.choice.before ++ f.choice.after
  [("index", (fields.lookup "index").getD (.int 0)), ("finish_reason", (fields.lookup "finish_reason").getD .null)] ++
    [] ++ [("delta", f.shownMessage content)] ++ [] ++ entry "logprobs" fields

/-- The chunk that is passed on. -/
def shownPayload (content : Content) : List (String × Json) :=
  let fields := f.payload.before ++ f.payload.after
  [("id", (fields.lookup "id").getD .null), ("object", (fields.lookup "object").getD (.str "chat.completion".toList)),
    ("created", (fields.lookup "created").getD .null), ("model", (fields.lookup "model").getD .null),
    ("choices", .arr [.obj (f.shownItem content)])] ++ entry "usage" fields ++ entry "system_fingerprint" fields

/-- The event for a chunk, if it says something. -/
def event (content : Content) : List Line :=
  if saysNothing (f.shownItem content) then [] else [.data (.obj (f.shownPayload content))]

theorem normalizeMessage_message (content : Content) :
    normalizeMessage false (some "qwen") (f.message content) = .ok (f.shownMessage content) := by
  have hc : ∀ key, copied key f.delta.bare = .ok (entry key (f.delta.before ++ f.delta.after)) := fun key => copied_obj key _
  have ht : f.delta.bare.has "text" = .ok false := by
    rw [Hole.bare, Json.has, Hole.lookup_eq_none f.plainDelta]
    rfl
  cases content with
  | absent =>
    simp [normalizeMessage, message, shownMessage, shownContent, hc, ht, bind, Except.bind, pure, Except.pure]
  | null =>
    simp [normalizeMessage, message, shownMessage, shownContent, copied_fill, sanitizeAssistantText, bind, Except.bind,
      pure, Except.pure]
  | text s =>
    simp [normalizeMessage, message, shownMessage, shownContent, copied_fill, sanitizeAssistantText, bind, Except.bind,
      pure, Except.pure]

/-- An object is replaced by an empty one only when it is empty. -/
theorem truthy_or_obj (fields : List (String × Json)) :
    (if (Json.obj fields).truthy then Json.obj fields else .obj []) = .obj fields := by
  cases fields <;> simp [Json.truthy]

theorem message_or (content : Content) :
    (if (f.message content).truthy then f.message content else .obj []) = f.message content := by
  cases content <;> exact truthy_or_obj _

theorem normalizeChoice_item (content : Content) :
    normalizeChoice false (some "qwen") (f.item content) = .ok (f.shownItem content) := by
  have hm : (f.item content).has "message" = .ok false := by
    rw [item, Hole.has_fill_of_ne _ (by decide), Hole.lookup_eq_none fun field hf => (f.plainChoice field hf).1]
    rfl
  have ht : copied "text" (f.item content) = .ok [] := by
    rw [item, copied_fill _ (by decide), entry_eq_nil fun field hf => (f.plainChoice field hf).2]
  have hmessage : normalizedMessage false (some "qwen") "message" (f.item content) = .ok [] := by
    simp [normalizedMessage, hm, bind, Except.bind, pure, Except.pure]
  have hdelta : normalizedMessage false (some "qwen") "delta" (f.item content) =
      .ok [("delta", f.shownMessage content)] := by
    simp [normalizedMessage, item, message_or, normalizeMessage_message, bind, Except.bind, pure, Except.pure]
  rw [normalizeChoice, hmessage, hdelta, ht]
  simp [item, copied_fill, Hole.get_fill_of_ne, shownItem, bind, Except.bind, pure, Except.pure]

theorem normalizeChatStreamLine_line (content : Content) :
    normalizeChatStreamLine false (some "qwen") (Piece.chunk f content).line =
      .ok (f.event content).head? := by
  have hn : normalizeChatCompletion false (some "qwen") (f.payload.fill (.arr [f.item content])) =
      .ok (f.shownPayload content, [f.shownItem content]) := by
    simp [normalizeChatCompletion, copied_fill, Hole.get_fill_of_ne, Json.iterate, shownPayload, normalizeChoice_item,
      bind, Except.bind, pure, Except.pure]
  simp only [Piece.line, normalizeChatStreamLine, hn, bind, Except.bind, pure, Except.pure, event]
  split <;> simp_all

theorem toList_head?_event (content : Content) : (f.event content).head?.toList = f.event content := by
  rw [event]
  split <;> rfl

theorem fragment_payload (content : Content) :
    fragment (f.payload.fill (.arr [f.item content])) = .ok ((Piece.chunk f content).fragment?.getD []) := by
  have ht : (f.item content).get "text" (.str []) = .ok (.str []) := by
    rw [item, Hole.get_fill_of_ne _ (by decide), Hole.lookup_eq_none fun field hf => (f.plainChoice field hf).2]
    rfl
  have hd : (f.item content).get "delta" (.obj []) = .ok (f.message content) := Hole.get_fill _ _ _
  have hc : (f.message content).get "content" (.str []) =
      .ok (match content with | .absent => .str [] | .null => .null | .text s => .str s) := by
    cases content <;> simp [message]
  simp only [fragment, chunkText, Hole.get_fill, Json.head, hd, hc, bind, Except.bind]
  cases content with
  | absent => simp [Json.truthy, ht, Piece.fragment?, pure, Except.pure]
  | null => simp [Json.truthy, ht, Piece.fragment?, pure, Except.pure]
  | text s => cases s <;> simp [Json.truthy, ht, Piece.fragment?, pure, Except.pure]

/-- The text of a chunk reaches the client as the sanitiser leaves it. -/
theorem event_text (s : List Char) : f.event (.text s) = [.data (.obj (f.shownPayload (.text s)))] := by
  have : saysNothing (f.shownItem (.text s)) = false := by
    rcases h : entry "role" (f.delta.before ++ f.delta.after) with _ | _ <;>
      simp [saysNothing, shownItem, shownMessage, shownContent, List.lookup_cons, h]
  simp [event, this]

theorem event_text_inj {s t : List Char} (h : f.event (.text s) = f.event (.text t)) :
    sanitizeText s = sanitizeText t := by
  rw [event_text, event_text] at h
  simpa [shownPayload, shownItem, shownMessage, shownContent] using h

end Envelope

/-- The events for a piece of a stream. -/
def Piece.events : Piece → List Line
  | .other [] => []
  | .other text => [.other text]
  | .done => [.done]
  | .chunk f content => f.event content

theorem fragments_chunk (f : Envelope) (content : Content) (stream : List Piece) :
    fragments (.chunk f content :: stream) = (Piece.chunk f content).fragment?.getD [] :: fragments stream := by
  cases content <;> rfl

/-- Where no loop is detected, the pieces are passed on one after the other. -/
theorem eventStream_eq {check : List Char → Bool} (broken : Option String) (stream : List Piece) :
    ∀ before : List (List Char),
      (∀ n < (fragments stream).length,
        (qwenChat check).loopDetected (before ++ (fragments stream).take (n + 1)) = false) →
      (qwenChat check).eventStream broken before (stream.map Piece.line) =
        ⟨stream.flatMap Piece.events ++ (broken.map errorEvent).toList, none⟩ := by
  induction stream with
  | nil => intro before _; rw [List.map_nil, StreamSettings.eventStream]; rfl
  | cons piece stream ih =>
    intro before h
    cases piece with
    | other text =>
      have hi := ih before h
      cases text with
      | nil =>
        rw [List.map_cons, Piece.line, StreamSettings.eventStream, hi]
        rfl
      | cons c text =>
        have hpass : (qwenChat check).passOn (.other (c :: text)) = .ok (some (.other (c :: text))) := rfl
        simp only [List.map_cons, Piece.line, StreamSettings.eventStream, hpass, hi]
        rfl
    | done =>
      have hi := ih before h
      have hpass : (qwenChat check).passOn .done = .ok (some .done) := rfl
      simp only [List.map_cons, Piece.line, StreamSettings.eventStream, hpass, hi]
      rfl
    | chunk f content =>
      rw [fragments_chunk] at h
      have hloop := h 0 (by simp)
      have hi := ih (before ++ [(Piece.chunk f content).fragment?.getD []]) (by
        intro n hn
        have := h (n + 1) (by simpa using hn)
        simpa using this)
      have hpass : (qwenChat check).passOn (.data (f.payload.fill (.arr [f.item content]))) =
          .ok (f.event content).head? := f.normalizeChatStreamLine_line content
      rw [List.take_succ_cons, List.take_zero] at hloop
      simp only [List.map_cons, Piece.line, StreamSettings.eventStream, f.fragment_payload, hloop, hpass, hi,
        Received.after, f.toList_head?_event, List.flatMap_cons, Piece.events, List.append_assoc]
      rfl

theorem received_eq {check : List Char → Bool} {stream : List Piece} (h : LoopFree check stream)
    (broken : Option String) :
    received check broken stream = ⟨stream.flatMap Piece.events ++ (broken.map errorEvent).toList, none⟩ :=
  eventStream_eq broken stream [] h

/-! ## Streams that differ inside of blocks -/

theorem blank_eq {piece piece' : Piece} (h : piece.blank = piece'.blank) :
    (piece = piece' ∧ piece.text? = none) ∨
      ∃ f s s', piece = .chunk f (.text s) ∧ piece' = .chunk f (.text s') := by
  rcases piece with text | _ | ⟨f, _ | _ | s⟩ <;> rcases piece' with text' | _ | ⟨f', _ | _ | s'⟩ <;>
    simp only [Piece.blank, Piece.chunk.injEq, reduceCtorEq, and_false] at h
  all_goals first
    | exact .inl ⟨h, rfl⟩
    | exact .inl ⟨by rw [h.1], rfl⟩
    | exact .inr ⟨f, s, s', rfl, by rw [h.1]⟩
    | exact .inl ⟨rfl, rfl⟩

/-- Equal blanks and equal sanitised texts give equal events. -/
theorem flatMap_events_eq {stream : List Piece} : ∀ {stream' : List Piece},
    stream.map Piece.blank = stream'.map Piece.blank →
    (texts stream).map sanitizeText = (texts stream').map sanitizeText →
    stream.flatMap Piece.events = stream'.flatMap Piece.events := by
  induction stream with
  | nil =>
    intro stream' hb _
    cases stream' with
    | nil => rfl
    | cons piece stream' => simp at hb
  | cons piece stream ih =>
    intro stream' hb ht
    cases stream' with
    | nil => simp at hb
    | cons piece' stream' =>
      obtain ⟨hp, hrest⟩ := List.cons.inj hb
      rw [List.flatMap_cons, List.flatMap_cons]
      rcases blank_eq hp with ⟨rfl, hnone⟩ | ⟨f, s, s', rfl, rfl⟩
      · rw [texts, texts, List.filterMap_cons_none hnone, List.filterMap_cons_none hnone] at ht
        rw [ih hrest ht]
      · obtain ⟨hs, ht⟩ := List.cons.inj ht
        have he : f.event (.text s) = f.event (.text s') := by
          simp only [Envelope.event_text, Envelope.shownPayload, Envelope.shownItem, Envelope.shownMessage, Envelope.shownContent, hs]
        rw [ih hrest ht, Piece.events, Piece.events, he]

/-- A text of a stream can be replaced by another. -/
theorem exists_chunk_of_texts {stream : List Piece} {pre post : List (List Char)} {s : List Char}
    (h : texts stream = pre ++ s :: post) : ∃ before f after, stream = before ++ .chunk f (.text s) :: after ∧
      ∀ s', texts (before ++ .chunk f (.text s') :: after) = pre ++ s' :: post := by
  obtain ⟨before, rest, rfl, rfl, hrest⟩ := List.filterMap_eq_append_iff.mp h
  obtain ⟨skipped, piece, after, rfl, hskip, hpiece, rfl⟩ := List.filterMap_eq_cons_iff.mp hrest
  rcases piece with text | _ | ⟨f, _ | _ | t⟩
  · cases hpiece
  · cases hpiece
  · cases hpiece
  · cases hpiece
  · cases hpiece
    refine ⟨before ++ skipped, f, after, by simp, ?_⟩
    intro s'
    have hs : skipped.filterMap Piece.text? = [] := List.filterMap_eq_nil_iff.mpr hskip
    simp [texts, hs, Piece.text?]

/-- An added `z` shows in the sanitised text. -/
theorem sanitizeText_ne {a b u v : List Char} (h : thinkBlock.removeBlocks (a ++ b) = u ++ v)
    (h' : thinkBlock.removeBlocks (a ++ 'z' :: b) = u ++ 'z' :: v) :
    sanitizeText (a ++ b) ≠ sanitizeText (a ++ 'z' :: b) := by
  intro he
  have hcount : ∀ s, (sanitizeText s).count 'z' = (thinkBlock.removeBlocks s).count 'z' := by
    intro s
    rw [sanitizeText, Text.count_strip (by decide), Text.count_delete (by decide) (by decide),
      Text.count_delete (by decide) (by decide)]
  have := congrArg (List.count 'z') he
  rw [hcount, hcount, h, h', List.count_append, List.count_append, List.count_cons_self] at this
  omega

theorem fresh_z : thinkBlock.Fresh 'z' := by
  constructor <;> decide

/-- **What is inside `<think>...</think>` stays hidden exactly where no chunk starts inside of it**: a client receives
the same for every stream that differs from this one in the characters inside of closed blocks only, whatever the
repetition check, as long as it detects no loop. -/
theorem hidden_iff_contained (stream : List Piece) (broken : Option String) :
    (∀ check stream', Alike stream stream' → LoopFree check stream → LoopFree check stream' →
      received check broken stream = received check broken stream') ↔ thinkBlock.Contained (texts stream) := by
  constructor
  · intro h
    by_contra hc
    obtain ⟨pre, a, b, post, htexts, hinsert⟩ := thinkBlock.exists_insertion hc
    obtain ⟨hv, u, v, hr, hr'⟩ := hinsert 'z' fresh_z
    obtain ⟨before, f, after, rfl, htexts'⟩ := exists_chunk_of_texts htexts
    have halike : Alike (before ++ .chunk f (.text (a ++ b)) :: after)
        (before ++ .chunk f (.text (a ++ 'z' :: b)) :: after) := by
      refine ⟨by simp [Piece.blank], ?_⟩
      rw [← hv, htexts']
    have hfree : ∀ stream, LoopFree (fun _ => false) stream := by
      intro stream n _
      simp [StreamSettings.loopDetected, qwenChat]
    have he := h _ _ halike (hfree _) (hfree _)
    rw [received_eq (hfree _), received_eq (hfree _)] at he
    simp only [Received.mk.injEq, List.flatMap_append, List.flatMap_cons, List.append_cancel_left_eq,
      List.append_cancel_right_eq, and_true, Piece.events] at he
    exact sanitizeText_ne hr hr' (f.event_text_inj he)
  · rintro hc check stream' ⟨hb, hv⟩ hl hl'
    have hc' : thinkBlock.Contained (texts stream') := by
      rw [← thinkBlock.contained_visible, ← hv, thinkBlock.contained_visible]
      exact hc
    have hr : (texts stream).map thinkBlock.removeBlocks = (texts stream').map thinkBlock.removeBlocks := by
      rw [← thinkBlock.map_removeBlocks_visible hc, hv, thinkBlock.map_removeBlocks_visible hc']
    have ht : (texts stream).map sanitizeText = (texts stream').map sanitizeText := by
      have := congrArg (List.map fun s => Text.strip (Text.delete endThinkTag (Text.delete thinkTag s))) hr
      rw [List.map_map, List.map_map] at this
      exact this
    rw [received_eq hl, received_eq hl', flatMap_events_eq hb ht]

/-- A whole answer hides its reasoning: there the blocks are not cut. -/
theorem sanitizeText_eq_of_visible {s s' : List Char} (h : thinkBlock.visible [s] = thinkBlock.visible [s']) :
    sanitizeText s = sanitizeText s' := by
  have hc := thinkBlock.contained_singleton s
  have hc' := thinkBlock.contained_singleton s'
  have hr : [s].map thinkBlock.removeBlocks = [s'].map thinkBlock.removeBlocks := by
    rw [← thinkBlock.map_removeBlocks_visible hc, h, thinkBlock.map_removeBlocks_visible hc']
  rw [sanitizeText, (List.cons.inj hr).1, ← sanitizeText]

/-- A chunk with its index only. -/
def plainEnvelope : Envelope where
  payload := ⟨[("object", .str "chat.completion.chunk".toList)], [], by decide⟩
  choice := ⟨[("index", .int 0)], [], by decide⟩
  delta := ⟨[], [], by decide⟩
  plainChoice := by decide
  plainDelta := by decide

/-- A thought over two chunks. -/
def thoughtStream (thought : String) : List Piece :=
  [.chunk plainEnvelope (.text ("<think>".toList ++ thought.toList)),
    .chunk plainEnvelope (.text (thought.toList ++ "</think>Yes".toList)), .done]

/-- A block over two chunks comes through, whatever the repetition check. -/
theorem reasoning_shown : ¬∀ (check : List Char → Bool) (broken : Option String) (stream stream' : List Piece),
    Alike stream stream' → LoopFree check stream → LoopFree check stream' →
      received check broken stream = received check broken stream' := by
  intro h
  have hfree : ∀ stream, LoopFree (fun _ => false) stream := by
    intro stream n _
    simp [StreamSettings.loopDetected, qwenChat]
  have he := h (fun _ => false) none (thoughtStream "pro") (thoughtStream "con") ⟨rfl, by decide⟩ (hfree _) (hfree _)
  rw [received_eq (hfree _), received_eq (hfree _)] at he
  simp only [Received.mk.injEq, thoughtStream, List.flatMap_cons, Piece.events, Envelope.event_text, and_true] at he
  have hs : sanitizeText "<think>pro".toList = sanitizeText "<think>con".toList := by
    refine plainEnvelope.event_text_inj ?_
    rw [Envelope.event_text, Envelope.event_text]
    exact congrArg (fun line => [line]) (List.cons.inj he).1
  exact absurd hs (by decide)

end LlmStore.Inference
