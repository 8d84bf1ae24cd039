import LlmStore.Inference.ProxyStream

/-!
# Lines that break a stream

Which lines raise in `event_stream`. A backend that speaks the OpenAI protocol breaks it with a chunk without choices and,
at the chat endpoint, with data that is not JSON, which is parsed a second time there; Ollama with JSON of an unexpected
shape; either with a text on which `json.loads` raises no `JSONDecodeError` but another exception. Every other line of the
format is tolerated (`StreamSettings.Tolerates`), so a stream ends without an exception exactly if all the lines that are
read before it is cut are tolerated (`no_exception_iff`).
-/

namespace LlmStore.Inference

/-! ## The format -/

/-- The value under the key, if there is one, is a string or `null`. -/
def TextOrNull (key : String) (fields : List (String × Json)) : Prop :=
  ∀ v, fields.lookup key = some v → v = .null ∨ ∃ s, v = .str s

structure InDelta (fields : List (String × Json)) : Prop where
  content : TextOrNull "content" fields
  text : TextOrNull "text" fields

structure InChoice (fields : List (String × Json)) : Prop where
  message : fields.lookup "message" = none
  delta : ∀ v, fields.lookup "delta" = some v → ∃ d, v = .obj d ∧ InDelta d
  text : ∀ v, fields.lookup "text" = some v → ∃ s, v = .str s

/-- A chunk of the streaming format of OpenAI, with any number of choices and any other fields. -/
def InChunk (payload : Json) : Prop :=
  ∃ fields items, payload = .obj fields ∧ fields.lookup "choices" = some (.arr items) ∧
    ∀ item ∈ items, ∃ choice, item = .obj choice ∧ InChoice choice

/-- A line that a backend may send: the data that is JSON is a chunk. -/
def BackendLine.InFormat : BackendLine → Prop
  | data payload => InChunk payload
  | _ => True

/-- The text that a line of Ollama adds, if it has the expected shape: an object whose `message.content` or, at the other
endpoint, `response` is a string or missing. -/
def ollamaText (chat : Bool) : Json → Option (List Char)
  | .obj fields =>
    if chat then
      let message := (fields.lookup "message").getD .null
      match (if message.truthy then message else .obj []) with
      | .obj message =>
        match orEmpty ((message.lookup "content").getD .null) with
        | .str s => some s
        | _ => none
      | _ => none
    else
      match (fields.lookup "response").getD (.str []) with
      | .str s => some s
      | _ => none
  | _ => none

/-- The line raises nothing. -/
def StreamSettings.Tolerates (c : StreamSettings) (o : Origin) (line : BackendLine) : Prop :=
  if o.ollama then
    line.isEmpty = false →
      match line.json with
      | .ok payload => (ollamaText c.chat payload).isSome = true
      | .error e => e = .jsonDecodeError
  else
    match line with
    | .malformed _ e => c.chat = false ∧ e = .jsonDecodeError
    | .data payload => payload.get "choices" .null ≠ .ok (.arr [])
    | _ => True

/-! ## Operations that do not raise -/

section Total

variable {α β : Type}

/-- The operation returns a value. -/
def Returns (x : Except PyError α) : Prop := ∃ a, x = .ok a

theorem returns_ok (a : α) : Returns (.ok a) := ⟨a, rfl⟩

theorem Returns.bind {x : Except PyError α} {f : α → Except PyError β} (hx : Returns x)
    (hf : ∀ a, x = .ok a → Returns (f a)) : Returns (x >>= f) := by
  obtain ⟨a, ha⟩ := hx
  obtain ⟨b, hb⟩ := hf a ha
  exact ⟨b, by rw [ha]; exact hb⟩

theorem returns_mapM {f : α → Except PyError β} {l : List α} (h : ∀ a ∈ l, Returns (f a)) : Returns (l.mapM f) := by
  induction l with
  | nil => exact ⟨[], rfl⟩
  | cons a l ih =>
    rw [List.mapM_cons]
    exact (h a (by simp)).bind fun b _ => (ih fun x hx => h x (by simp [hx])).bind fun bs _ => returns_ok _

end Total

section Objects

variable {includeReasoning : Bool} {promptTemplate : Option String}

theorem returns_copied (key : String) (fields : List (String × Json)) : Returns (copied key (.obj fields)) := by
  unfold copied
  refine Returns.bind (returns_ok _) fun b _ => ?_
  split
  · exact Returns.bind (returns_ok _) fun v _ => returns_ok _
  · exact returns_ok _

theorem returns_sanitize {v : Json} (h : v = .null ∨ ∃ s, v = .str s) :
    Returns (sanitizeAssistantText includeReasoning promptTemplate v) := by
  rcases h with rfl | ⟨s, rfl⟩
  · exact returns_ok _
  · unfold sanitizeAssistantText
    simp only
    split
    · exact returns_ok _
    · split <;> exact returns_ok _

/-- The value under a key of an object, with its default. -/
theorem getD_textOrNull {key : String} {fields : List (String × Json)} (h : TextOrNull key fields) {v : Json}
    (hv : (Json.obj fields).get key .null = .ok v) : v = .null ∨ ∃ s, v = .str s := by
  obtain rfl : (fields.lookup key).getD .null = v := by simpa [Json.get] using hv
  cases hl : fields.lookup key with
  | none => exact .inl rfl
  | some w => exact h w hl

theorem returns_normalizeMessage {fields : List (String × Json)} (h : InDelta fields) :
    Returns (normalizeMessage includeReasoning promptTemplate (.obj fields)) := by
  have hget : ∀ key, Returns ((Json.obj fields).get key .null) := fun key => returns_ok _
  have hhas : ∀ key, Returns ((Json.obj fields).has key) := fun key => returns_ok _
  have hrest : ∀ front : List (String × Json), Returns (do
      let reasoning ← if includeReasoning then copied "reasoning_content" (.obj fields) else pure []
      let toolCalls ← copied "tool_calls" (.obj fields)
      pure (Json.obj (front ++ reasoning ++ toolCalls))) := by
    intro front
    cases includeReasoning with
    | true => exact (returns_copied _ _).bind fun _ _ => (returns_copied _ _).bind fun _ _ => returns_ok _
    | false => exact (returns_copied _ _).bind fun _ _ => returns_ok _
  unfold normalizeMessage
  refine (returns_copied _ _).bind fun role _ => (hhas _).bind fun b _ => ?_
  dsimp only
  split
  · exact (hget _).bind fun v hv => (returns_sanitize (getD_textOrNull h.content hv)).bind fun w _ =>
      hrest (role ++ [("content", w)])
  · refine (hhas _).bind fun b _ => ?_
    split
    · exact (hget _).bind fun v hv => (returns_sanitize (getD_textOrNull h.text hv)).bind fun w _ =>
        hrest (role ++ [("content", w)])
    · exact hrest (role ++ [])

theorem inDelta_nil : InDelta [] := ⟨fun v h => by simp at h, fun v h => by simp at h⟩

theorem returns_normalizeChoice {fields : List (String × Json)} (h : InChoice fields) :
    Returns (normalizeChoice includeReasoning promptTemplate (.obj fields)) := by
  have hget : ∀ key d, Returns ((Json.obj fields).get key d) := fun key d => returns_ok _
  have hmessage : normalizedMessage includeReasoning promptTemplate "message" (.obj fields) = .ok [] := by
    simp [normalizedMessage, Json.has, h.message, bind, Except.bind, pure, Except.pure]
  have hdelta : Returns (normalizedMessage includeReasoning promptTemplate "delta" (.obj fields)) := by
    unfold normalizedMessage
    refine Returns.bind (returns_ok _) fun b _ => ?_
    split
    · refine (hget _ _).bind fun v hv => ?_
      obtain rfl : (fields.lookup "delta").getD .null = v := by simpa [Json.get] using hv
      have hshape : ∃ d, (if ((fields.lookup "delta").getD .null).truthy then (fields.lookup "delta").getD .null
          else .obj []) = .obj d ∧ InDelta d := by
        cases hl : fields.lookup "delta" with
        | none => exact ⟨[], rfl, inDelta_nil⟩
        | some v =>
          obtain ⟨d, rfl, hd⟩ := h.delta v hl
          refine ⟨d, ?_, hd⟩
          cases d <;> rfl
      obtain ⟨d, hd, hin⟩ := hshape
      rw [hd]
      exact (returns_normalizeMessage hin).bind fun _ _ => returns_ok _
    · exact returns_ok _
  unfold normalizeChoice
  rw [hmessage]
  exact (hget _ _).bind fun _ _ => (hget _ _).bind fun _ _ => Returns.bind (returns_ok _) fun _ _ =>
    hdelta.bind fun _ _ => (returns_copied _ _).bind fun _ _ => (returns_copied _ _).bind fun _ _ => returns_ok _

/-- A chunk of the format is normalised, however many choices it has. -/
theorem returns_normalizeChatStreamLine {payload : Json} (h : InChunk payload) :
    Returns (normalizeChatStreamLine includeReasoning promptTemplate (.data payload)) := by
  obtain ⟨fields, items, rfl, hitems, hchoices⟩ := h
  have hget : ∀ key d, Returns ((Json.obj fields).get key d) := fun key d => returns_ok _
  have hchoicesGet : (Json.obj fields).get "choices" (.arr []) = .ok (.arr items) := by simp [Json.get, hitems]
  have hcompletion : Returns (normalizeChatCompletion includeReasoning promptTemplate (.obj fields)) := by
    unfold normalizeChatCompletion
    rw [hchoicesGet]
    refine (hget _ _).bind fun _ _ => (hget _ _).bind fun _ _ => (hget _ _).bind fun _ _ => (hget _ _).bind fun _ _ =>
      Returns.bind (returns_ok _) fun _ hv => ?_
    obtain rfl := (Except.ok.inj hv)
    refine Returns.bind (returns_ok _) fun l hl => ?_
    obtain rfl := (Except.ok.inj hl)
    refine Returns.bind (returns_mapM fun item hm => ?_) fun _ _ =>
      (returns_copied _ _).bind fun _ _ => (returns_copied _ _).bind fun _ _ => returns_ok _
    obtain ⟨choice, rfl, hin⟩ := hchoices item hm
    exact returns_normalizeChoice hin
  unfold normalizeChatStreamLine
  refine hcompletion.bind fun n _ => ?_
  obtain ⟨normalized, choices⟩ := n
  simp only
  split <;> exact returns_ok _

/-- The text of a chunk with a choice is read. -/
theorem returns_fragment {payload : Json} (h : InChunk payload) (hne : payload.get "choices" .null ≠ .ok (.arr [])) :
    Returns (fragment payload) := by
  obtain ⟨fields, items, rfl, hitems, hchoices⟩ := h
  cases items with
  | nil => exact absurd (by simp [Json.get, hitems]) hne
  | cons item items =>
    obtain ⟨choice, rfl, hin⟩ := hchoices item (by simp)
    have hget : (Json.obj fields).get "choices" (.arr [.obj []]) = .ok (.arr (.obj choice :: items)) := by
      simp [Json.get, hitems]
    have hdelta : ∃ d, (Json.obj choice).get "delta" (.obj []) = .ok (.obj d) ∧ InDelta d := by
      cases hl : choice.lookup "delta" with
      | none => exact ⟨[], by simp [Json.get, hl], inDelta_nil⟩
      | some v =>
        obtain ⟨d, rfl, hd⟩ := hin.delta v hl
        exact ⟨d, by simp [Json.get, hl], hd⟩
    obtain ⟨d, hd, hind⟩ := hdelta
    have hcontent : ∃ v, (Json.obj d).get "content" (.str []) = .ok v ∧ (v = .null ∨ ∃ s, v = .str s) := by
      cases hl : d.lookup "content" with
      | none => exact ⟨.str [], by simp [Json.get, hl], .inr ⟨[], rfl⟩⟩
      | some v => exact ⟨v, by simp [Json.get, hl], hind.content v hl⟩
    obtain ⟨v, hv, hshape⟩ := hcontent
    have htext : ∃ t, (Json.obj choice).get "text" (.str []) = .ok (.str t) := by
      cases hl : choice.lookup "text" with
      | none => exact ⟨[], by simp [Json.get, hl]⟩
      | some w =>
        obtain ⟨t, rfl⟩ := hin.text w hl
        exact ⟨t, by simp [Json.get, hl]⟩
    obtain ⟨t, ht⟩ := htext
    simp only [fragment, chunkText, hget, Json.head, hd, hv, bind, Except.bind]
    rcases hshape with rfl | ⟨_ | ⟨a, s⟩, rfl⟩
    · simp [Json.truthy, ht, pure, Except.pure, Returns]
    · simp [Json.truthy, ht, pure, Except.pure, Returns]
    · simp [Json.truthy, pure, Except.pure, Returns]

end Objects

/-! ## Ollama -/

theorem inChunk_ollamaChatChunk (modelName : String) (created : ℤ) (s : List Char) :
    InChunk (ollamaChatChunk modelName created (.str s)) := by
  refine ⟨_, _, rfl, rfl, fun item hm => ?_⟩
  obtain rfl := List.mem_singleton.mp hm
  refine ⟨_, rfl, rfl, fun v hv => ?_, fun v hv => by simp [List.lookup_cons] at hv⟩
  obtain rfl : Json.obj [("content", .str s)] = v := by simpa [List.lookup_cons] using hv
  refine ⟨_, rfl, fun v hv => ?_, fun v hv => by simp [List.lookup_cons] at hv⟩
  exact .inr ⟨s, by simpa [List.lookup_cons, eq_comm] using hv⟩

theorem inChunk_ollamaTextChunk (modelName : String) (created : ℤ) (s : List Char) :
    InChunk (ollamaTextChunk modelName created (.str s)) := by
  refine ⟨_, _, rfl, rfl, fun item hm => ?_⟩
  obtain rfl := List.mem_singleton.mp hm
  refine ⟨_, rfl, rfl, fun v hv => by simp [List.lookup_cons] at hv, fun v hv => ?_⟩
  exact ⟨s, by simpa [List.lookup_cons, eq_comm] using hv⟩

theorem fragment_ollamaChatChunk (modelName : String) (created : ℤ) (content : Json) :
    fragment (ollamaChatChunk modelName created (orEmpty content)) = match orEmpty content with
      | .str s => .ok s
      | _ => .error .typeError := by
  rcases h : content.truthy with _ | _
  · have hempty : orEmpty content = .str [] := by simp [orEmpty, h]
    rw [hempty]
    simp [fragment, chunkText, ollamaChatChunk, Json.get, Json.head, Json.truthy, List.lookup_cons, bind, Except.bind,
      pure, Except.pure]
  · cases content <;> simp_all [orEmpty, fragment, chunkText, ollamaChatChunk, Json.get, Json.head, List.lookup_cons,
      bind, Except.bind, pure, Except.pure, throw, throwThe, MonadExceptOf.throw]

theorem fragment_ollamaTextChunk (modelName : String) (created : ℤ) (text : Json) :
    fragment (ollamaTextChunk modelName created text) = match text with
      | .str s => .ok s
      | _ => .error .typeError := by
  cases text <;> simp [fragment, chunkText, ollamaTextChunk, Json.get, Json.head, Json.truthy, List.lookup_cons, bind,
    Except.bind, pure, Except.pure, throw, throwThe, MonadExceptOf.throw]

/-- A line of the expected shape becomes a chunk of its text. -/
theorem translate_of_text {chat : Bool} {payload : Json} {s : List Char} (h : ollamaText chat payload = some s)
    (modelName : String) (created : ℤ) : ∃ p, translateOllamaStreamLine chat modelName created (.ok payload) =
      .ok (some (.data p)) ∧ fragment p = .ok s ∧ InChunk p := by
  cases payload with
  | obj fields =>
    cases chat with
    | true =>
      simp only [ollamaText, if_true] at h
      cases hm : (if ((fields.lookup "message").getD .null).truthy then (fields.lookup "message").getD .null
          else Json.obj []) with
      | obj message =>
        rw [hm] at h
        simp only at h
        have hstr : orEmpty ((message.lookup "content").getD .null) = .str s := by
          split at h <;> simp_all
        refine ⟨ollamaChatChunk modelName created (.str s), ?_, ?_, inChunk_ollamaChatChunk _ _ _⟩
        · simp [translateOllamaStreamLine, Json.get, hm, hstr, bind, Except.bind, pure, Except.pure]
        · rw [← hstr, fragment_ollamaChatChunk, hstr]
      | _ => rw [hm] at h; cases h
    | false =>
      simp only [ollamaText, Bool.false_eq_true, if_false] at h
      have hstr : (fields.lookup "response").getD (.str []) = .str s := by
        split at h <;> simp_all
      refine ⟨ollamaTextChunk modelName created (.str s), ?_, ?_, inChunk_ollamaTextChunk _ _ _⟩
      · simp [translateOllamaStreamLine, Json.get, hstr, bind, Except.bind, pure, Except.pure]
      · rw [fragment_ollamaTextChunk]
  | _ => cases h

/-- A line of another shape raises, in its translation or as the chunk that it becomes. -/
theorem translate_of_no_text {chat : Bool} {payload : Json} (h : ollamaText chat payload = none) (modelName : String)
    (created : ℤ) : (∃ e, translateOllamaStreamLine chat modelName created (.ok payload) = .error e) ∨
      ∃ p e, translateOllamaStreamLine chat modelName created (.ok payload) = .ok (some (.data p)) ∧
        fragment p = .error e := by
  have hother : (∀ fields, payload ≠ .obj fields) →
      ∃ e, translateOllamaStreamLine chat modelName created (.ok payload) = .error e := by
    intro hno
    refine ⟨.attributeError, ?_⟩
    cases payload with
    | obj fields => exact absurd rfl (hno fields)
    | _ => cases chat <;> rfl
  by_cases hobj : ∃ fields, payload = .obj fields
  · obtain ⟨fields, rfl⟩ := hobj
    cases chat with
    | true =>
      simp only [ollamaText, if_true] at h
      cases hm : (if ((fields.lookup "message").getD .null).truthy then (fields.lookup "message").getD .null
          else Json.obj []) with
      | obj message =>
        rw [hm] at h
        refine .inr ⟨ollamaChatChunk modelName created (orEmpty ((message.lookup "content").getD .null)), .typeError,
          ?_, ?_⟩
        · simp [translateOllamaStreamLine, Json.get, hm, bind, Except.bind, pure, Except.pure]
        · rw [fragment_ollamaChatChunk]
          split
          · rename_i s hs
            simp [hs] at h
          · rfl
      | _ => exact .inl ⟨.attributeError, by simp [translateOllamaStreamLine, Json.get, hm, bind, Except.bind]⟩
    | false =>
      simp only [ollamaText, Bool.false_eq_true, if_false] at h
      refine .inr ⟨ollamaTextChunk modelName created ((fields.lookup "response").getD (.str [])), .typeError, ?_, ?_⟩
      · simp [translateOllamaStreamLine, Json.get, bind, Except.bind, pure, Except.pure]
      · rw [fragment_ollamaTextChunk]
        split
        · rename_i s hs
          simp [hs] at h
        · rfl
  · exact .inl (hother fun fields h => hobj ⟨fields, h⟩)

/-! ## Turns -/

/-- The fragment that a line adds to the text. -/
def Origin.fragment? (o : Origin) (chat : Bool) (line : BackendLine) : Option (List Char) :=
  match o.read chat 0 line with
  | .ok (some (.data payload)) => (fragment payload).toOption
  | _ => none

namespace StreamSettings

variable {c : StreamSettings} {o : Origin} {line : BackendLine}

theorem returns_passOn {payload : Json} (h : InChunk payload) : Returns (c.passOn (.data payload)) := by
  unfold passOn
  split
  · exact returns_normalizeChatStreamLine h
  · exact returns_ok _

/-- The turn of a chunk whose text is read. -/
theorem lineTurn_data {payload : Json} {s : List Char} (hfragment : fragment payload = .ok s) (h : InChunk payload) :
    ∃ events, ∀ fragments, c.lineTurn fragments (.data payload) =
      if c.loopDetected (fragments ++ [s]) then .cut else .pass (some s) events := by
  obtain ⟨event, hevent⟩ := returns_passOn (c := c) h
  refine ⟨event.toList, fun fragments => ?_⟩
  simp only [lineTurn, hfragment, hevent]

theorem lineTurn_of_fragment_error {payload : Json} {e : PyError} (h : fragment payload = .error e)
    (fragments : List (List Char)) : c.lineTurn fragments (.data payload) = .raise e := by
  simp only [lineTurn, h]

theorem read_empty (h : line.isEmpty = true) (left : ℕ) : o.read c.chat left line = .ok none := by
  rw [Origin.read, if_pos h]

theorem read_ollama (hline : line.isEmpty = false) (ho : o.ollama = true) (left : ℕ) :
    o.read c.chat left line = translateOllamaStreamLine c.chat o.modelName (o.clock left) line.json := by
  simp [Origin.read, hline, ho]

theorem read_openai (hline : line.isEmpty = false) (ho : o.ollama = false) (left : ℕ) :
    o.read c.chat left line = .ok (some line.line) := by
  simp [Origin.read, hline, ho]

/-- A line that is skipped. -/
theorem turn_skip (h : ∀ left, o.read c.chat left line = .ok none) (left : ℕ) :
    ∃ events, ∀ fragments, c.turn o left fragments line = match o.fragment? c.chat line with
      | none => .pass none events
      | some s => if c.loopDetected (fragments ++ [s]) then .cut else .pass (some s) events :=
  ⟨[], fun fragments => by simp [turn, Origin.fragment?, h]⟩

/-- A line that is read as a chunk with a text. -/
theorem turn_chunk {s : List Char} (h : ∀ left, ∃ p, o.read c.chat left line = .ok (some (.data p)) ∧
      fragment p = .ok s ∧ InChunk p) (left : ℕ) :
    ∃ events, ∀ fragments, c.turn o left fragments line = match o.fragment? c.chat line with
      | none => .pass none events
      | some s => if c.loopDetected (fragments ++ [s]) then .cut else .pass (some s) events := by
  have hfragment : o.fragment? c.chat line = some s := by
    obtain ⟨p, hp, hs, -⟩ := h 0
    simp [Origin.fragment?, hp, hs, Except.toOption]
  obtain ⟨p, hp, hs, hin⟩ := h left
  obtain ⟨events, hevents⟩ := lineTurn_data (c := c) hs hin
  exact ⟨events, fun fragments => by simp only [turn, hp, hevents, hfragment]⟩

/-- A line that is no data and is passed on as it is. -/
theorem turn_plain {l : Line} (h : ∀ left, o.read c.chat left line = .ok (some l)) (hl : ∀ p, l ≠ .data p)
    (herror : ∀ s e, l = .malformed s e → e = .jsonDecodeError) (hpass : c.passOn l = .ok (some l)) (left : ℕ) :
    ∃ events, ∀ fragments, c.turn o left fragments line = match o.fragment? c.chat line with
      | none => .pass none events
      | some s => if c.loopDetected (fragments ++ [s]) then .cut else .pass (some s) events := by
  refine ⟨[l], fun fragments => ?_⟩
  cases l with
  | data p => exact absurd rfl (hl p)
  | malformed s e =>
    obtain rfl := herror s e rfl
    simp [turn, Origin.fragment?, h, lineTurn, hpass]
  | _ => simp [turn, Origin.fragment?, h, lineTurn, hpass]

/-- A line that is tolerated is passed on, or cuts the stream. -/
theorem turn_of_tolerates (hformat : line.InFormat) (h : c.Tolerates o line) (left : ℕ) :
    ∃ events, ∀ fragments, c.turn o left fragments line = match o.fragment? c.chat line with
      | none => .pass none events
      | some s => if c.loopDetected (fragments ++ [s]) then .cut else .pass (some s) events := by
  rcases hline : line.isEmpty with _ | _
  · rcases ho : o.ollama with _ | _
    · have hread := read_openai (c := c) hline ho
      simp only [Tolerates, ho, Bool.false_eq_true, if_false] at h
      cases line with
      | text s json =>
        exact turn_plain hread (fun p => by simp [BackendLine.line]) (fun s e => by simp [BackendLine.line])
          (by unfold passOn; split <;> rfl) left
      | done =>
        exact turn_plain hread (fun p => by simp [BackendLine.line]) (fun s e => by simp [BackendLine.line])
          (by unfold passOn; split <;> rfl) left
      | malformed s error =>
        obtain ⟨hchat, rfl⟩ := h
        exact turn_plain hread (fun p => by simp [BackendLine.line]) (fun s e h => (Line.malformed.inj h).2.symm)
          (by simp [passOn, hchat, BackendLine.line]) left
      | data payload =>
        obtain ⟨s, hs⟩ := returns_fragment hformat h
        exact turn_chunk (fun left => ⟨payload, hread left, hs, hformat⟩) left
    · have hread := read_ollama (c := c) hline ho
      simp only [Tolerates, ho, if_true] at h
      have h := h hline
      cases hjson : line.json with
      | error e =>
        rw [hjson] at h
        obtain rfl : e = .jsonDecodeError := h
        exact turn_skip (fun left => by rw [hread, hjson]; rfl) left
      | ok payload =>
        rw [hjson] at h
        obtain ⟨s, hs⟩ := Option.isSome_iff_exists.mp h
        refine turn_chunk (s := s) (fun left => ?_) left
        rw [hread, hjson]
        exact translate_of_text hs _ _
  · exact turn_skip (read_empty hline) left

/-- A line that is not tolerated raises. -/
theorem turn_of_not_tolerates (hformat : line.InFormat) (h : ¬ c.Tolerates o line) (left : ℕ)
    (fragments : List (List Char)) : ∃ e, c.turn o left fragments line = .raise e := by
  rcases ho : o.ollama with _ | _
  · simp only [Tolerates, ho, Bool.false_eq_true, if_false] at h
    cases line with
    | text s json => exact absurd trivial h
    | done => exact absurd trivial h
    | malformed s error =>
      have hread := read_openai (c := c) (rfl : (BackendLine.malformed s error).isEmpty = false) ho left
      refine ⟨error, ?_⟩
      simp only [turn, hread, BackendLine.line, lineTurn]
      split_ifs with herror
      · have hchat : c.chat = true := by simpa [herror] using h
        have hpass : c.passOn (.malformed s error) = .error error := by simp [passOn, hchat, normalizeChatStreamLine]
        rw [hpass]
      · rfl
    | data payload =>
      obtain ⟨fields, items, rfl, hitems, -⟩ := hformat
      have hnil : items = [] := by simpa [Json.get, hitems] using h
      have herror : fragment (.obj fields) = .error .indexError := by
        simp [fragment, chunkText, Json.get, hitems, hnil, Json.head, bind, Except.bind]
      have hread := read_openai (c := c) (rfl : (BackendLine.data (.obj fields)).isEmpty = false) ho left
      refine ⟨.indexError, ?_⟩
      simp only [turn, hread, BackendLine.line]
      exact lineTurn_of_fragment_error herror fragments
  · simp only [Tolerates, ho, if_true, Classical.not_imp] at h
    obtain ⟨hline, h⟩ := h
    have hread := read_ollama (c := c) hline ho left
    cases hjson : line.json with
    | error e =>
      rw [hjson] at h hread
      have hraise : o.read c.chat left line = .error e := by
        rw [hread]
        cases e <;> first | rfl | exact absurd rfl h
      exact ⟨e, by simp only [turn, hraise]⟩
    | ok payload =>
      rw [hjson] at h hread
      have hnone : ollamaText c.chat payload = none := by simpa using h
      rcases translate_of_no_text hnone o.modelName (o.clock left) with ⟨e, he⟩ | ⟨p, e, hp, he⟩
      · exact ⟨e, by simp only [turn, hread, he]⟩
      · refine ⟨e, ?_⟩
        simp only [turn, hread, hp]
        exact lineTurn_of_fragment_error he fragments

/-! ## Whole streams -/

/-- A repetition is detected after one of the new fragments. -/
def Cuts (c : StreamSettings) (fragments new : List (List Char)) : Prop :=
  ∃ n < new.length, c.loopDetected (fragments ++ new.take (n + 1)) = true

theorem not_cuts_nil (fragments : List (List Char)) : ¬ c.Cuts fragments [] := by
  rintro ⟨n, hn, -⟩
  simp at hn

theorem cuts_cons_iff {fragments new : List (List Char)} {s : List Char} :
    c.Cuts fragments (s :: new) ↔ c.loopDetected (fragments ++ [s]) = true ∨ c.Cuts (fragments ++ [s]) new := by
  constructor
  · rintro ⟨n, hn, h⟩
    cases n with
    | zero => exact .inl (by simpa using h)
    | succ n => exact .inr ⟨n, by simpa using hn, by simpa using h⟩
  · rintro (h | ⟨n, hn, h⟩)
    · exact ⟨0, by simp, by simpa using h⟩
    · exact ⟨n + 1, by simpa using hn, by simpa using h⟩

/-- The fragments of some lines. -/
def fragmentsOf (o : Origin) (chat : Bool) (lines : List BackendLine) : List (List Char) :=
  lines.filterMap (o.fragment? chat)

variable (c o) in
/-- Each line that is read before the stream is cut is tolerated. -/
def ToleratesAll (fragments : List (List Char)) (lines : List BackendLine) : Prop :=
  ∀ before line after, lines = before ++ line :: after → ¬ c.Cuts fragments (fragmentsOf o c.chat before) →
    c.Tolerates o line

theorem fragmentsOf_cons_none {lines : List BackendLine} (h : o.fragment? c.chat line = none) :
    fragmentsOf o c.chat (line :: lines) = fragmentsOf o c.chat lines := List.filterMap_cons_none h

theorem fragmentsOf_cons_some {lines : List BackendLine} {s : List Char} (h : o.fragment? c.chat line = some s) :
    fragmentsOf o c.chat (line :: lines) = s :: fragmentsOf o c.chat lines := List.filterMap_cons_some h

theorem ToleratesAll.head {fragments : List (List Char)} {lines : List BackendLine}
    (h : c.ToleratesAll o fragments (line :: lines)) : c.Tolerates o line :=
  h [] line lines rfl (not_cuts_nil _)

theorem toleratesAll_skip {fragments : List (List Char)} {lines : List BackendLine}
    (hnone : o.fragment? c.chat line = none) (h : c.Tolerates o line) :
    c.ToleratesAll o fragments (line :: lines) ↔ c.ToleratesAll o fragments lines := by
  constructor
  · rintro hall before l after rfl hcut
    exact hall (line :: before) l after rfl (by rwa [fragmentsOf_cons_none hnone])
  · intro hall before l after heq hcut
    cases before with
    | nil =>
      obtain ⟨rfl, -⟩ := List.cons.inj heq
      exact h
    | cons b before =>
      obtain ⟨rfl, rfl⟩ := List.cons.inj heq
      exact hall before l after rfl (by rwa [fragmentsOf_cons_none hnone] at hcut)

theorem toleratesAll_text {fragments : List (List Char)} {lines : List BackendLine} {s : List Char}
    (hsome : o.fragment? c.chat line = some s) (h : c.Tolerates o line) : c.ToleratesAll o fragments (line :: lines) ↔
      (c.loopDetected (fragments ++ [s]) = false → c.ToleratesAll o (fragments ++ [s]) lines) := by
  constructor
  · rintro hall hfree before l after rfl hcut
    refine hall (line :: before) l after rfl ?_
    rw [fragmentsOf_cons_some hsome, cuts_cons_iff]
    rintro (hloop | hcut')
    · rw [hfree] at hloop
      cases hloop
    · exact hcut hcut'
  · intro hall before l after heq hcut
    cases before with
    | nil =>
      obtain ⟨rfl, -⟩ := List.cons.inj heq
      exact h
    | cons b before =>
      obtain ⟨rfl, rfl⟩ := List.cons.inj heq
      rw [fragmentsOf_cons_some hsome, cuts_cons_iff, not_or, Bool.not_eq_true] at hcut
      exact hall hcut.1 before l after rfl hcut.2

/-- By induction on the lines, with the fragments before them. -/
theorem failure_eq_none_iff (broken : Option String) {lines : List BackendLine} (hformat : ∀ line ∈ lines, line.InFormat) :
    ∀ fragments, (c.stream o broken fragments lines).failure = none ↔ c.ToleratesAll o fragments lines := by
  induction lines with
  | nil =>
    intro fragments
    rw [stream]
    refine iff_of_true rfl fun before line after heq => ?_
    simp at heq
  | cons line lines ih =>
    intro fragments
    have hline := hformat line (by simp)
    have ih := ih fun l hl => hformat l (by simp [hl])
    by_cases ht : c.Tolerates o line
    · obtain ⟨events, hturn⟩ := turn_of_tolerates hline ht lines.length
      cases hs : o.fragment? c.chat line with
      | none =>
        simp only [hs] at hturn
        rw [stream, hturn, toleratesAll_skip hs ht, ← ih fragments]
        simp [Received.after]
      | some s =>
        simp only [hs] at hturn
        rw [stream, hturn, toleratesAll_text hs ht, ← ih (fragments ++ [s])]
        cases c.loopDetected (fragments ++ [s]) with
        | true => simp
        | false => simp [Received.after]
    · obtain ⟨e, hraise⟩ := turn_of_not_tolerates hline ht lines.length fragments
      rw [stream, hraise]
      exact iff_of_false (by simp) fun hall => ht hall.head

/-- **A stream ends without an exception, its response and its client closed once, exactly if every line that is read
before a repetition cuts it is tolerated**, for every provider, endpoint, template and repetition check, and whether or
not a transport error ends the lines. -/
theorem no_exception_iff (c : StreamSettings) (o : Origin) (broken : Option String) {lines : List BackendLine}
    (hformat : ∀ line ∈ lines, line.InFormat) :
    ((c.run o broken lines).1.failure = none ∧ (c.run o broken lines).2 = ⟨1, 1⟩) ↔ c.ToleratesAll o [] lines := by
  rw [run_eq, ← failure_eq_none_iff broken hformat]
  exact and_iff_left rfl

/-- A chunk without choices, the usage at the end of an answer, say. -/
def usageLine : BackendLine := .data (.obj [("object", .str "chat.completion.chunk".toList), ("choices", .arr []),
  ("usage", .obj [("total_tokens", .int 3)])])

theorem usageLine_inFormat : usageLine.InFormat :=
  ⟨_, [], rfl, rfl, fun item hm => absurd hm (by simp)⟩

/-- A chat of a `llama.cpp` backend, without repetition checks. -/
def plainChat : StreamSettings :=
  { chat := true, includeReasoning := false, promptTemplate := none, detectRepetition := fun _ => false }

def llamaCpp : Origin := ⟨false, "gemma", fun _ => 0⟩

theorem no_exception_iff_usage :
    ((plainChat.run llamaCpp none [usageLine]).1.failure = none ∧ (plainChat.run llamaCpp none [usageLine]).2 = ⟨1, 1⟩) ↔
      plainChat.ToleratesAll llamaCpp [] [usageLine] :=
  no_exception_iff plainChat llamaCpp none fun line hm => by
    obtain rfl := List.mem_singleton.mp hm
    exact usageLine_inFormat

/-- The usage chunk breaks the stream. -/
theorem usage_chunk_raises : ¬ ∀ (c : StreamSettings) (o : Origin) (lines : List BackendLine),
    (∀ line ∈ lines, line.InFormat) → (c.run o none lines).1.failure = none ∧ (c.run o none lines).2 = ⟨1, 1⟩ := by
  intro h
  have hfail := (h plainChat llamaCpp [usageLine] fun line hm => by
    obtain rfl := List.mem_singleton.mp hm
    exact usageLine_inFormat).1
  cases hfail

end StreamSettings

end LlmStore.Inference
