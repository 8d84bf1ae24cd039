import LlmStore.Inference.JsonAnswer
import LlmStore.Inference.Normalised

/-!
# The reasoning field

Payloads of a backend that agree in the fields that the normaliser keeps, whatever else they hold: the values under
`reasoning_content` of messages and deltas and under any other key (`SimilarPayload`). Without the reasoning the normaliser
does not tell them apart (`reasoning_field_hidden`), and so neither do the repetition checks, the answers nor the streams
behind it (`jsonAnswer_similar`, `eventStream_similar`).
-/

namespace LlmStore.Inference

/-! ## Similar payloads -/

/-- Two objects have the same values at some keys, or none. -/
def SameAt (keys : List String) (fields fields' : List (String × Json)) : Prop :=
  ∀ key ∈ keys, fields.lookup key = fields'.lookup key

/-- Messages, or deltas, that agree in the fields of a message but for `reasoning_content`. -/
def SimilarMessage (message message' : Json) : Prop :=
  message = message' ∨ ∃ fields fields', message = .obj fields ∧ message' = .obj fields' ∧
    SameAt ["role", "content", "text", "tool_calls"] fields fields'

/-- Choices that agree in the fields of a choice, with similar messages and deltas. -/
def SimilarChoice (choice choice' : Json) : Prop :=
  choice = choice' ∨ ∃ fields fields', choice = .obj fields ∧ choice' = .obj fields' ∧
    SameAt ["index", "finish_reason", "text", "logprobs"] fields fields' ∧
    ∀ key ∈ ["message", "delta"], Option.Rel SimilarMessage (fields.lookup key) (fields'.lookup key)

/-- The values under `choices` are the same, or lists of similar choices. -/
def SimilarChoices (value value' : Option Json) : Prop :=
  value = value' ∨ ∃ choices choices', value = some (.arr choices) ∧ value' = some (.arr choices') ∧
    List.Forall₂ SimilarChoice choices choices'

/-- Payloads that agree in the fields of a completion, with similar choices. -/
def SimilarPayload (payload payload' : Json) : Prop :=
  payload = payload' ∨ ∃ fields fields', payload = .obj fields ∧ payload' = .obj fields' ∧
    SameAt ["id", "object", "created", "model", "usage", "system_fingerprint"] fields fields' ∧
    SimilarChoices (fields.lookup "choices") (fields'.lookup "choices")

section

variable {fields fields' : List (String × Json)}

theorem SameAt.entry_eq {keys : List String} (h : SameAt keys fields fields') {key : String} (hkey : key ∈ keys) :
    entry key fields = entry key fields' := by
  rw [entry, entry, h key hkey]

/-! ## The normaliser -/

variable {promptTemplate : Option String}

theorem normalizeMessage_similar {message message' : Json} (h : SimilarMessage message message') :
    normalizeMessage false promptTemplate (orObject message) =
      normalizeMessage false promptTemplate (orObject message') := by
  obtain rfl | ⟨fields, fields', rfl, rfl, h⟩ := h
  · rfl
  · have htext : messageText fields = messageText fields' := by
      rw [messageText, messageText, h "content" (by simp), h "text" (by simp)]
    have hreasoning : reasoningEntry false fields = reasoningEntry false fields' := rfl
    rw [orObject_obj, orObject_obj, normalizeMessage_obj, normalizeMessage_obj, htext, hreasoning,
      h.entry_eq (by simp : "role" ∈ _), h.entry_eq (by simp : "tool_calls" ∈ _)]

theorem messageEntry_similar (key : String) {value value' : Option Json} (h : Option.Rel SimilarMessage value value') :
    messageEntry false promptTemplate key value = messageEntry false promptTemplate key value' := by
  cases h with
  | none => rfl
  | some h => rw [messageEntry, messageEntry, normalizeMessage_similar h]

theorem normalizeChoice_similar {choice choice' : Json} (h : SimilarChoice choice choice') :
    normalizeChoice false promptTemplate choice = normalizeChoice false promptTemplate choice' := by
  obtain rfl | ⟨fields, fields', rfl, rfl, h, hmessages⟩ := h
  · rfl
  · have hfields : ∀ message delta, choiceFields fields message delta = choiceFields fields' message delta := by
      intro message delta
      rw [choiceFields, choiceFields, h "index" (by simp), h "finish_reason" (by simp),
        h.entry_eq (by simp : "text" ∈ _), h.entry_eq (by simp : "logprobs" ∈ _)]
    simp only [normalizeChoice_obj, messageEntry_similar _ (hmessages "message" (by simp)),
      messageEntry_similar _ (hmessages "delta" (by simp)), hfields]

theorem mapM_normalizeChoice_similar {choices choices' : List Json} (h : List.Forall₂ SimilarChoice choices choices') :
    choices.mapM (normalizeChoice false promptTemplate) = choices'.mapM (normalizeChoice false promptTemplate) := by
  induction h with
  | nil => rfl
  | cons hchoice _ ih => rw [List.mapM_cons, List.mapM_cons, normalizeChoice_similar hchoice, ih]

theorem items_similar (h : SimilarChoices (fields.lookup "choices") (fields'.lookup "choices")) :
    (items fields >>= fun items => items.mapM (normalizeChoice false promptTemplate)) =
      (items fields' >>= fun items => items.mapM (normalizeChoice false promptTemplate)) := by
  unfold items
  obtain h | ⟨choices, choices', hc, hc', h⟩ := h
  · rw [h]
  · rw [hc, hc']
    exact mapM_normalizeChoice_similar h

theorem normalizeChatCompletion_similar {payload payload' : Json} (h : SimilarPayload payload payload') :
    normalizeChatCompletion false promptTemplate payload = normalizeChatCompletion false promptTemplate payload' := by
  obtain rfl | ⟨fields, fields', rfl, rfl, h, hchoices⟩ := h
  · rfl
  · have hfields : ∀ choices, completionFields fields choices = completionFields fields' choices := by
      intro choices
      rw [completionFields, completionFields, h "id" (by simp), h "object" (by simp), h "created" (by simp),
        h "model" (by simp), h.entry_eq (by simp : "usage" ∈ _), h.entry_eq (by simp : "system_fingerprint" ∈ _)]
    simp only [normalizeChatCompletion_obj, ← bind_assoc, hfields]
    rw [items_similar hchoices]

/-- A line that carries a similar payload becomes the same line, or nothing as the other does. -/
theorem normalizeChatStreamLine_similar {payload payload' : Json} (h : SimilarPayload payload payload') :
    normalizeChatStreamLine false promptTemplate (.data payload) =
      normalizeChatStreamLine false promptTemplate (.data payload') := by
  simp only [normalizeChatStreamLine, normalizeChatCompletion_similar h]

end

/-- A chunk of a stream without content, with some fields in its delta. -/
def thoughtChunk (delta : List (String × Json)) : Json :=
  .obj [("id", .str "c".toList), ("choices", .arr [.obj [("index", .int 0), ("delta", .obj delta)]])]

theorem thoughtChunk_similar {delta delta' : List (String × Json)}
    (h : SameAt ["role", "content", "text", "tool_calls"] delta delta') :
    SimilarPayload (thoughtChunk delta) (thoughtChunk delta') := by
  have hchoice : SimilarChoice (.obj [("index", .int 0), ("delta", .obj delta)])
      (.obj [("index", .int 0), ("delta", .obj delta')]) := by
    refine .inr ⟨_, _, rfl, rfl, by simp [SameAt, List.lookup_cons], fun key hkey => ?_⟩
    obtain rfl | rfl : key = "message" ∨ key = "delta" := by simpa using hkey
    · exact .none
    · exact .some (.inr ⟨delta, delta', rfl, rfl, h⟩)
  exact .inr ⟨_, _, rfl, rfl, by simp [SameAt, List.lookup_cons], .inr ⟨_, _, rfl, rfl, .cons hchoice .nil⟩⟩

/-- Without the reasoning, the normaliser does the same to payloads, and to lines, that differ in hidden fields only. -/
theorem reasoning_field_hidden (promptTemplate : Option String) (payload payload' : Json)
    (h : SimilarPayload payload payload') :
    normalizeChatCompletion false promptTemplate payload = normalizeChatCompletion false promptTemplate payload' ∧
      normalizeChatStreamLine false promptTemplate (.data payload) =
        normalizeChatStreamLine false promptTemplate (.data payload') :=
  ⟨normalizeChatCompletion_similar h, normalizeChatStreamLine_similar h⟩

/-- A thought in a delta goes the way of a chunk without one. -/
theorem reasoning_field_hidden_thought :
    normalizeChatCompletion false none (thoughtChunk [("reasoning_content", .str "hm".toList)]) =
        normalizeChatCompletion false none (thoughtChunk []) ∧
      normalizeChatStreamLine false none (.data (thoughtChunk [("reasoning_content", .str "hm".toList)])) =
        normalizeChatStreamLine false none (.data (thoughtChunk [])) :=
  reasoning_field_hidden none _ _ (thoughtChunk_similar (by simp [SameAt, List.lookup_cons]))

/-! ## Answers and streams -/

section

variable {payload payload' : Json}

theorem get_similar {message message' : Json} (h : SimilarMessage message message') (d : Json) :
    message.get "content" d = message'.get "content" d := by
  obtain rfl | ⟨fields, fields', rfl, rfl, h⟩ := h
  · rfl
  · rw [Json.get, Json.get, h "content" (by simp)]

theorem getD_similar {value value' : Option Json} (h : Option.Rel SimilarMessage value value') (d : Json) :
    SimilarMessage (value.getD d) (value'.getD d) := by
  cases h with
  | none => exact .inl rfl
  | some h => exact h

/-- The text that a chunk adds is read off the fields that the normaliser keeps. -/
theorem chunkText_similar (h : SimilarPayload payload payload') : chunkText payload = chunkText payload' := by
  obtain rfl | ⟨fields, fields', rfl, rfl, -, h | ⟨choices, choices', hc, hc', h⟩⟩ := h
  · rfl
  · have hget : (Json.obj fields).get "choices" (.arr [.obj []]) = (Json.obj fields').get "choices" (.arr [.obj []]) := by
      rw [Json.get, Json.get, h]
    rw [chunkText, chunkText, hget]
  · have hget : (Json.obj fields).get "choices" (.arr [.obj []]) = .ok (.arr choices) := by rw [Json.get, hc, Option.getD]
    have hget' : (Json.obj fields').get "choices" (.arr [.obj []]) = .ok (.arr choices') := by
      rw [Json.get, hc', Option.getD]
    rw [chunkText, chunkText, hget, hget']
    cases h with
    | nil => rfl
    | cons hchoice _ =>
      obtain rfl | ⟨fields, fields', rfl, rfl, hsame, hmessages⟩ := hchoice
      · rfl
      · have hdelta : ((fields.lookup "delta").getD (.obj [])).get "content" (.str []) =
            ((fields'.lookup "delta").getD (.obj [])).get "content" (.str []) :=
          get_similar (getD_similar (hmessages "delta" (by simp)) _) _
        have htext : (Json.obj fields).get "text" (.str []) = (Json.obj fields').get "text" (.str []) := by
          rw [Json.get, Json.get, hsame "text" (by simp)]
        have hget : (Json.obj fields).get "delta" (.obj []) = .ok ((fields.lookup "delta").getD (.obj [])) := rfl
        have hget' : (Json.obj fields').get "delta" (.obj []) = .ok ((fields'.lookup "delta").getD (.obj [])) := rfl
        simp only [Json.head, bind, Except.bind, hget, hget', hdelta, htext]

/-- An answer of a backend that speaks the OpenAI protocol. -/
theorem jsonAnswer_similar (lower : List Char → List Char) {o : Origin} (ho : o.ollama = false)
    (promptTemplate : Option String) (h : SimilarPayload payload payload') :
    jsonAnswer lower o true false promptTemplate payload = jsonAnswer lower o true false promptTemplate payload' := by
  have ht : ∀ payload, o.translated true payload = .ok payload := fun payload => by
    rw [Origin.translated, ho, if_neg Bool.false_ne_true]
  simp only [jsonAnswer, ht, if_true, bind, Except.bind, normalizeChatCompletion_similar h]

/-- Lines that are the same, or carry similar payloads. -/
def SimilarLine (line line' : Line) : Prop :=
  line = line' ∨ ∃ payload payload', line = .data payload ∧ line' = .data payload' ∧ SimilarPayload payload payload'

/-- A streamed chat answer. -/
theorem eventStream_similar {c : StreamSettings} (hchat : c.chat = true) (hreasoning : c.includeReasoning = false)
    (broken : Option String) {lines lines' : List Line} (h : List.Forall₂ SimilarLine lines lines') :
    ∀ fragments, c.eventStream broken fragments lines = c.eventStream broken fragments lines' := by
  induction h with
  | nil => exact fun _ => rfl
  | @cons line line' lines lines' hline _ ih =>
    intro fragments
    obtain rfl | ⟨payload, payload', rfl, rfl, hp⟩ := hline
    · cases line with
      | other text =>
        cases text with
        | nil => rw [StreamSettings.eventStream, StreamSettings.eventStream, ih]
        | cons x text => simp only [StreamSettings.eventStream, ih]
      | done => simp only [StreamSettings.eventStream, ih]
      | malformed text error => simp only [StreamSettings.eventStream, ih]
      | data payload => simp only [StreamSettings.eventStream, ih]
    · have hpass : c.passOn (.data payload) = c.passOn (.data payload') := by
        rw [StreamSettings.passOn, StreamSettings.passOn, if_pos hchat, if_pos hchat, hreasoning,
          normalizeChatStreamLine_similar hp]
      have hfragment : fragment payload = fragment payload' := by rw [fragment, fragment, chunkText_similar hp]
      simp only [StreamSettings.eventStream, hfragment, hpass, ih]

end

end LlmStore.Inference
