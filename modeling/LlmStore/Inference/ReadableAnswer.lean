import LlmStore.Inference.JsonAnswer
import LlmStore.Inference.Normalised
import LlmStore.Inference.StreamErrors

/-!
# Answers that can be read

Which JSON values `_json_forward` can make an answer of. The translation of an Ollama response, the normalisation and the
repetition check read the value without looking at its type first, so a value of another shape raises. `AnswerReadable`
says of the shape of a value that nothing is raised (`returns_jsonAnswer_iff`).
-/

namespace LlmStore.Inference

/-! ## The shapes -/

section Shapes

variable (includeReasoning : Bool) (promptTemplate : Option String)

/-- `sanitize_assistant_text` takes the value: the blocks of reasoning are searched in strings only. -/
def TextReadable (v : Json) : Prop :=
  v = .null ∨ includeReasoning = true ∨ promptTemplate ≠ some "qwen" ∨ ∃ s, v = .str s

/-- The keys that `_normalize_message` looks for. -/
def soughtKeys : List String :=
  ["role", "content", "text", "tool_calls"] ++ if includeReasoning then ["reasoning_content"] else []

/-- A message: an object with such a text, or a list or string in which no key is found. -/
def MessageReadable (message : Json) : Prop :=
  (∃ fields, message = .obj fields ∧ ∀ v ∈ messageText fields, TextReadable includeReasoning promptTemplate v) ∨
    (∀ fields, message ≠ .obj fields) ∧ ∀ key ∈ soughtKeys includeReasoning, message.has key = .ok false

/-- A choice: an object whose message and delta can be read, where a falsy value counts as an empty object. -/
def ChoiceReadable (choice : Json) : Prop :=
  ∃ fields, choice = .obj fields ∧ ∀ key ∈ ["message", "delta"], ∀ v ∈ fields.lookup key,
    MessageReadable includeReasoning promptTemplate (orObject v)

/-- `detect_repetition` takes the value, or is not called. -/
def Checkable (v : Json) : Prop := v.truthy = false ∨ ∃ s, v = .str s

/-- The text of the message of a choice can be checked for repetitions. -/
def ChoiceCheckable (choice : Json) : Prop :=
  ∀ fields message, choice = .obj fields → fields.lookup "message" = some (.obj message) →
    ∀ v ∈ messageText message, Checkable v

/-- A chat completion: an object whose `choices`, if any, are choices. -/
def CompletionReadable (payload : Json) : Prop :=
  ∃ fields choices, payload = .obj fields ∧ items fields = .ok choices ∧
    (∀ choice ∈ choices, ChoiceReadable includeReasoning promptTemplate choice) ∧
      ∀ choice ∈ choices.head?, ChoiceCheckable choice

/-- The text of a response of Ollama: the content of its message or else its `response`. -/
def ollamaAnswer (fields message : List (String × Json)) : Json :=
  let content := (message.lookup "content").getD .null
  if content.truthy then content else (fields.lookup "response").getD (.str [])

/-- A response of Ollama: an object and, at the chat endpoint, with a message that is falsy or an object. -/
def OllamaReadable (chat : Bool) (payload : Json) : Prop :=
  ∃ fields, payload = .obj fields ∧ (chat = true → ∃ message,
    orObject ((fields.lookup "message").getD .null) = .obj message ∧
      TextReadable includeReasoning promptTemplate (ollamaAnswer fields message) ∧
        Checkable (ollamaAnswer fields message))

/-- A value that the answer can be made of. -/
def AnswerReadable (o : Origin) (chat : Bool) (payload : Json) : Prop :=
  if o.ollama then OllamaReadable includeReasoning promptTemplate chat payload
  else chat = true → CompletionReadable includeReasoning promptTemplate payload

end Shapes

/-! ## Operations that return -/

section Returns

variable {α β : Type}

@[simp] theorem returns_ok_iff (a : α) : Returns (.ok a) ↔ True := iff_of_true ⟨a, rfl⟩ trivial

@[simp] theorem returns_pure_iff (a : α) : Returns (pure a) ↔ True := iff_of_true ⟨a, rfl⟩ trivial

@[simp] theorem not_returns_error (e : PyError) : ¬ Returns (.error e : Except PyError α) := fun ⟨_, h⟩ => by cases h

theorem returns_bind_iff {x : Except PyError α} {f : α → Except PyError β} :
    Returns (x >>= f) ↔ ∃ a, x = .ok a ∧ Returns (f a) := by
  cases x with
  | error e => simp [bind, Except.bind]
  | ok a => simp [bind, Except.bind]

theorem returns_map_iff {x : Except PyError α} {f : α → β} : Returns (x.map f) ↔ Returns x := by
  cases x with
  | error e => simp [Except.map]
  | ok a => simp [Except.map]

theorem map_eq_ok_iff {x : Except PyError α} {f : α → β} {b : β} : x.map f = .ok b ↔ ∃ a, x = .ok a ∧ f a = b := by
  cases x with
  | error e => simp [Except.map]
  | ok a => simp [Except.map]

theorem returns_mapM_iff {f : α → Except PyError β} {l : List α} :
    Returns (l.mapM f) ↔ ∀ a ∈ l, Returns (f a) := by
  refine ⟨fun h => ?_, returns_mapM⟩
  induction l with
  | nil => simp
  | cons a l ih =>
    rw [List.mapM_cons, returns_bind_iff] at h
    obtain ⟨b, hb, h⟩ := h
    obtain ⟨bs, hbs, -⟩ := returns_bind_iff.mp h
    exact List.forall_mem_cons.mpr ⟨⟨b, hb⟩, ih ⟨bs, hbs⟩⟩

end Returns

section Normaliser

variable {includeReasoning : Bool} {promptTemplate : Option String}

theorem returns_sanitize_iff {v : Json} : Returns (sanitizeAssistantText includeReasoning promptTemplate v) ↔
    TextReadable includeReasoning promptTemplate v := by
  unfold sanitizeAssistantText TextReadable
  cases includeReasoning with
  | true => cases v <;> simp
  | false =>
    by_cases hqwen : promptTemplate = some "qwen"
    · cases v <;> simp [hqwen]
    · cases v <;> simp [hqwen]

theorem returns_contentEntry_iff {text : Option Json} : Returns (contentEntry includeReasoning promptTemplate text) ↔
    ∀ v ∈ text, TextReadable includeReasoning promptTemplate v := by
  cases text with
  | none => simp [contentEntry]
  | some v => simp [contentEntry, returns_map_iff, returns_sanitize_iff]

theorem copied_eq_nil {value : Json} {key : String} (h : value.has key = .ok false) : copied key value = .ok [] := by
  simp [copied, h, bind, Except.bind, pure, Except.pure]

/-- A value that is no object is copied from just if the key is not found in it. -/
theorem copied_of_ne_obj {value : Json} (h : ∀ fields, value ≠ .obj fields) {key : String} :
    Returns (copied key value) ↔ value.has key = .ok false := by
  unfold copied
  rw [returns_bind_iff]
  constructor
  · rintro ⟨b, hb, hreturns⟩
    cases b with
    | false => exact hb
    | true => simp [get_of_ne_obj h] at hreturns
  · exact fun hb => ⟨false, hb, returns_ok _⟩

theorem forall_soughtKeys {P : String → Prop} : (∀ key ∈ soughtKeys includeReasoning, P key) ↔
    P "role" ∧ P "content" ∧ P "text" ∧ (includeReasoning = true → P "reasoning_content") ∧ P "tool_calls" := by
  cases includeReasoning with
  | true =>
    simp only [soughtKeys, if_true, List.forall_mem_append, List.forall_mem_cons, List.not_mem_nil, false_implies,
      implies_true, and_true, true_implies]
    tauto
  | false => simp [soughtKeys]

/-- Nothing is made of a value in which no key is found. -/
theorem normalizeMessage_of_keys {message : Json} (h : ∀ key ∈ soughtKeys includeReasoning, message.has key = .ok false) :
    normalizeMessage includeReasoning promptTemplate message = .ok (.obj []) := by
  obtain ⟨hrole, hcontent, htext, hreasoning, htoolCalls⟩ := forall_soughtKeys.mp h
  unfold normalizeMessage
  rw [copied_eq_nil hrole, copied_eq_nil htoolCalls, hcontent, htext]
  cases includeReasoning with
  | true =>
    rw [copied_eq_nil (hreasoning rfl)]
    rfl
  | false => rfl

theorem returns_normalizeMessage_of_ne_obj {message : Json} (h : ∀ fields, message ≠ .obj fields) :
    Returns (normalizeMessage includeReasoning promptTemplate message) ↔
      ∀ key ∈ soughtKeys includeReasoning, message.has key = .ok false := by
  have hget := get_of_ne_obj h
  have hno : ∀ key, (∃ entries, copied key message = .ok entries) → message.has key = .ok false := fun key =>
    (copied_of_ne_obj h).mp
  constructor
  · intro hreturns
    rw [forall_soughtKeys]
    unfold normalizeMessage at hreturns
    obtain ⟨role, hrole, hreturns⟩ := returns_bind_iff.mp hreturns
    obtain ⟨hasContent, hcontent, hreturns⟩ := returns_bind_iff.mp hreturns
    cases hasContent with
    | true => simp [returns_bind_iff, hget] at hreturns
    | false =>
      simp only [Bool.false_eq_true, if_false] at hreturns
      obtain ⟨hasText, htext, hreturns⟩ := returns_bind_iff.mp hreturns
      cases hasText with
      | true => simp [returns_bind_iff, hget] at hreturns
      | false =>
        simp only [Bool.false_eq_true, if_false] at hreturns
        obtain ⟨content, -, hreturns⟩ := returns_bind_iff.mp hreturns
        refine ⟨hno _ ⟨role, hrole⟩, hcontent, htext, fun hinclude => ?_, ?_⟩
        · subst hinclude
          obtain ⟨reasoning, hreasoning, -⟩ := returns_bind_iff.mp hreturns
          exact hno _ ⟨reasoning, hreasoning⟩
        · cases includeReasoning with
          | true =>
            obtain ⟨reasoning, -, hreturns⟩ := returns_bind_iff.mp hreturns
            obtain ⟨toolCalls, htoolCalls, -⟩ := returns_bind_iff.mp hreturns
            exact hno _ ⟨toolCalls, htoolCalls⟩
          | false =>
            obtain ⟨reasoning, -, hreturns⟩ := returns_bind_iff.mp hreturns
            obtain ⟨toolCalls, htoolCalls, -⟩ := returns_bind_iff.mp hreturns
            exact hno _ ⟨toolCalls, htoolCalls⟩
  · exact fun hkeys => ⟨_, normalizeMessage_of_keys hkeys⟩

theorem returns_normalizeMessage_iff {message : Json} :
    Returns (normalizeMessage includeReasoning promptTemplate message) ↔
      MessageReadable includeReasoning promptTemplate message := by
  by_cases hobj : ∃ fields, message = .obj fields
  · obtain ⟨fields, rfl⟩ := hobj
    rw [normalizeMessage_obj, returns_map_iff, returns_contentEntry_iff]
    simp [MessageReadable]
  · push Not at hobj
    rw [returns_normalizeMessage_of_ne_obj hobj]
    simp [MessageReadable, hobj]

theorem returns_messageEntry_iff {key : String} {value : Option Json} :
    Returns (messageEntry includeReasoning promptTemplate key value) ↔
      ∀ v ∈ value, MessageReadable includeReasoning promptTemplate (orObject v) := by
  cases value with
  | none => simp [messageEntry]
  | some v => simp [messageEntry, returns_map_iff, returns_normalizeMessage_iff]

theorem returns_normalizeChoice_iff {choice : Json} : Returns (normalizeChoice includeReasoning promptTemplate choice) ↔
    ChoiceReadable includeReasoning promptTemplate choice := by
  by_cases hobj : ∃ fields, choice = .obj fields
  · obtain ⟨fields, rfl⟩ := hobj
    have hboth : ChoiceReadable includeReasoning promptTemplate (.obj fields) ↔
        (∀ v ∈ fields.lookup "message", MessageReadable includeReasoning promptTemplate (orObject v)) ∧
          ∀ v ∈ fields.lookup "delta", MessageReadable includeReasoning promptTemplate (orObject v) := by
      simp [ChoiceReadable]
    rw [hboth, normalizeChoice_obj, ← returns_messageEntry_iff, ← returns_messageEntry_iff, returns_bind_iff]
    constructor
    · rintro ⟨message, hmessage, hreturns⟩
      obtain ⟨delta, hdelta, -⟩ := returns_bind_iff.mp hreturns
      exact ⟨⟨message, hmessage⟩, delta, hdelta⟩
    · rintro ⟨⟨message, hmessage⟩, delta, hdelta⟩
      exact ⟨message, hmessage, returns_bind_iff.mpr ⟨delta, hdelta, returns_ok _⟩⟩
  · push Not at hobj
    rw [normalizeChoice_of_ne_obj hobj]
    simp [ChoiceReadable, hobj]

end Normaliser

/-! ## The repetition check -/

theorem lookup_entry (key k : String) (fields : List (String × Json)) :
    (entry key fields).lookup k = if k = key then fields.lookup key else none := by
  unfold entry
  cases fields.lookup key with
  | none => simp
  | some v =>
    by_cases hk : k = key
    · simp [hk]
    · have hne : (k == key) = false := beq_eq_false_iff_ne.mpr hk
      simp [List.lookup_cons, hk, hne]

section Check

variable {lower : List Char → List Char} {includeReasoning : Bool} {promptTemplate : Option String}

theorem returns_repeatedText_iff {v : Json} : Returns (repeatedText lower promptTemplate v) ↔ Checkable v := by
  unfold Checkable
  cases v with
  | str s => simp [repeatedText, apply_ite Returns]
  | arr items =>
    cases items with
    | nil => simp [repeatedText, Json.truthy]
    | cons item items => simp [repeatedText, Json.truthy, apply_ite Returns]
  | _ => simp [repeatedText, apply_ite Returns]

/-- The sanitiser leaves strings strings and other values as they are. -/
theorem checkable_sanitize {v w : Json} (h : sanitizeAssistantText includeReasoning promptTemplate v = .ok w) :
    Checkable w ↔ Checkable v := by
  unfold sanitizeAssistantText at h
  cases v with
  | str s =>
    cases includeReasoning with
    | true =>
      cases h
      exact Iff.rfl
    | false =>
      by_cases hqwen : promptTemplate = some "qwen"
      · simp only [hqwen, Bool.false_eq_true, if_false, if_true] at h
        cases h
        exact iff_of_true (.inr ⟨_, rfl⟩) (.inr ⟨_, rfl⟩)
      · simp only [hqwen, Bool.false_eq_true, if_false] at h
        cases h
        exact Iff.rfl
  | null =>
    cases h
    exact Iff.rfl
  | _ =>
    simp only at h
    split_ifs at h
    all_goals
      cases h
      exact Iff.rfl

/-- The content of a normalised message can be checked just if its text can. -/
theorem checkable_normalizeMessage {fields : List (String × Json)} {w : Json}
    (h : normalizeMessage includeReasoning promptTemplate (.obj fields) = .ok w) :
    ∃ message, w = .obj message ∧
      (Checkable ((message.lookup "content").getD (.str [])) ↔ ∀ v ∈ messageText fields, Checkable v) := by
  rw [normalizeMessage_obj] at h
  obtain ⟨content, hcontent, rfl⟩ : ∃ content, contentEntry includeReasoning promptTemplate (messageText fields) =
      .ok content ∧ Json.obj (entry "role" fields ++ content ++ reasoningEntry includeReasoning fields ++
        entry "tool_calls" fields) = w := by
    cases hc : contentEntry includeReasoning promptTemplate (messageText fields) with
    | error e =>
      rw [hc] at h
      cases h
    | ok content =>
      rw [hc] at h
      exact ⟨content, rfl, Except.ok.inj h⟩
  refine ⟨_, rfl, ?_⟩
  have hreasoning : (reasoningEntry includeReasoning fields).lookup "content" = none := by
    cases includeReasoning <;> simp [reasoningEntry, lookup_entry]
  simp only [Hole.lookup_append, lookup_entry, hreasoning]
  cases htext : messageText fields with
  | none =>
    rw [htext] at hcontent
    cases hcontent
    exact iff_of_true (.inr ⟨[], rfl⟩) (by simp)
  | some v =>
    rw [htext, contentEntry] at hcontent
    cases hsanitized : sanitizeAssistantText includeReasoning promptTemplate v with
    | error e =>
      rw [hsanitized] at hcontent
      cases hcontent
    | ok w =>
      rw [hsanitized] at hcontent
      cases hcontent
      simpa using checkable_sanitize hsanitized

theorem lookup_messageEntry {key k : String} (hk : k ≠ key) {value : Option Json} {entries : List (String × Json)}
    (h : messageEntry includeReasoning promptTemplate key value = .ok entries) : entries.lookup k = none := by
  cases value with
  | none =>
    obtain rfl := Except.ok.inj h
    rfl
  | some v =>
    obtain ⟨message, -, rfl⟩ := map_eq_ok_iff.mp h
    simp [List.lookup_cons, beq_eq_false_iff_ne.mpr hk]

theorem choiceCheckable_obj {fields : List (String × Json)} : ChoiceCheckable (.obj fields) ↔
    ∀ message, fields.lookup "message" = some (.obj message) → ∀ v ∈ messageText message, Checkable v := by
  constructor
  · exact fun h message => h fields message rfl
  · rintro h fields' message heq hmessage
    cases heq
    exact h message hmessage

/-- The repetition check reads the content of the message of a choice. -/
theorem returns_antiLoop_choiceFields {fields message delta : List (String × Json)} (h : delta.lookup "message" = none) :
    Returns (antiLoop lower promptTemplate (choiceFields fields message delta)) ↔
      ∃ content, ((message.lookup "message").getD (.obj [])).get "content" (.str []) = .ok content ∧
        Checkable content := by
  have hlookup : (choiceFields fields message delta).lookup "message" = message.lookup "message" := by
    simp [choiceFields, Hole.lookup_append, lookup_entry, h, List.lookup_cons]
  unfold antiLoop
  rw [hlookup, returns_bind_iff]
  refine exists_congr fun content => and_congr_right fun _ => ?_
  rw [← (returns_repeatedText_iff : Returns (repeatedText lower promptTemplate content) ↔ Checkable content),
    returns_bind_iff]
  constructor
  · rintro ⟨text, htext, -⟩
    exact ⟨text, htext⟩
  · rintro ⟨text, htext⟩
    refine ⟨text, htext, ?_⟩
    cases text <;> exact returns_ok _

theorem returns_antiLoop_iff {fields choice : List (String × Json)}
    (h : normalizeChoice includeReasoning promptTemplate (.obj fields) = .ok choice) :
    Returns (antiLoop lower promptTemplate choice) ↔ ChoiceCheckable (.obj fields) := by
  rw [normalizeChoice_obj] at h
  obtain ⟨message, hmessage, h⟩ := bind_eq_ok_iff.mp h
  obtain ⟨delta, hdelta, h⟩ := bind_eq_ok_iff.mp h
  cases h
  rw [returns_antiLoop_choiceFields (lookup_messageEntry (by decide) hdelta), choiceCheckable_obj]
  cases hvalue : fields.lookup "message" with
  | none =>
    rw [hvalue] at hmessage
    cases hmessage
    exact iff_of_true ⟨.str [], rfl, .inr ⟨[], rfl⟩⟩ (by simp)
  | some v =>
    rw [hvalue] at hmessage
    obtain ⟨w, hw, rfl⟩ := map_eq_ok_iff.mp hmessage
    simp only [List.lookup_cons, beq_self_eq_true, Option.getD_some, Option.some.injEq]
    by_cases hobj : ∃ inner, v = .obj inner
    · obtain ⟨inner, rfl⟩ := hobj
      rw [orObject_obj] at hw
      obtain ⟨message, rfl, hiff⟩ := checkable_normalizeMessage hw
      simpa [Json.get] using hiff
    · push Not at hobj
      refine iff_of_true ?_ fun inner hinner => absurd hinner (hobj inner)
      unfold orObject at hw
      split_ifs at hw
      · have hkeys := (returns_normalizeMessage_of_ne_obj hobj).mp ⟨w, hw⟩
        rw [normalizeMessage_of_keys hkeys] at hw
        cases hw
        exact ⟨.str [], rfl, .inr ⟨[], rfl⟩⟩
      · obtain ⟨message, rfl, hiff⟩ := checkable_normalizeMessage hw
        exact ⟨_, rfl, hiff.mpr fun v hv => by simp [messageText] at hv⟩

end Check

/-! ## The answer -/

section Answer

variable {lower : List Char → List Char} {o : Origin} {chat includeReasoning : Bool} {promptTemplate : Option String}

theorem normalizeChatCompletion_obj_eq_ok_iff {fields out : List (String × Json)}
    {choices : List (List (String × Json))} :
    normalizeChatCompletion includeReasoning promptTemplate (.obj fields) = .ok (out, choices) ↔ ∃ before,
      items fields = .ok before ∧ before.mapM (normalizeChoice includeReasoning promptTemplate) = .ok choices ∧
        out = completionFields fields choices := by
  rw [normalizeChatCompletion_obj, bind_eq_ok_iff]
  refine exists_congr fun before => and_congr_right fun _ => ?_
  rw [bind_eq_ok_iff]
  constructor
  · rintro ⟨choices', hchoices, heq⟩
    cases heq
    exact ⟨hchoices, rfl⟩
  · rintro ⟨hchoices, rfl⟩
    exact ⟨choices, hchoices, rfl⟩

/-- The first choice is checked for repetitions, once all are normalised. -/
theorem returns_normalised_iff {before : List Json} :
    (∃ choices, before.mapM (normalizeChoice includeReasoning promptTemplate) = .ok choices ∧
      ∀ choice ∈ choices.head?, Returns (antiLoop lower promptTemplate choice)) ↔
        (∀ choice ∈ before, ChoiceReadable includeReasoning promptTemplate choice) ∧
          ∀ choice ∈ before.head?, ChoiceCheckable choice := by
  simp only [← returns_normalizeChoice_iff]
  rw [← returns_mapM_iff]
  cases before with
  | nil =>
    refine iff_of_true ⟨[], rfl, by simp⟩ ⟨returns_ok _, by simp⟩
  | cons item before =>
    have hfirst : ∀ choice choices, (item :: before).mapM (normalizeChoice includeReasoning promptTemplate) =
        .ok (choice :: choices) → (Returns (antiLoop lower promptTemplate choice) ↔ ChoiceCheckable item) := by
      intro choice choices h
      rw [List.mapM_cons] at h
      obtain ⟨c, hc, h⟩ := bind_eq_ok_iff.mp h
      obtain ⟨cs, -, h⟩ := bind_eq_ok_iff.mp h
      cases h
      by_cases hobj : ∃ fields, item = .obj fields
      · obtain ⟨fields, rfl⟩ := hobj
        exact returns_antiLoop_iff hc
      · push Not at hobj
        rw [normalizeChoice_of_ne_obj hobj] at hc
        cases hc
    have hcons : ∀ choices, (item :: before).mapM (normalizeChoice includeReasoning promptTemplate) = .ok choices →
        ∃ choice rest, choices = choice :: rest := by
      intro choices h
      rw [List.mapM_cons] at h
      obtain ⟨c, -, h⟩ := bind_eq_ok_iff.mp h
      obtain ⟨cs, -, h⟩ := bind_eq_ok_iff.mp h
      cases h
      exact ⟨c, cs, rfl⟩
    constructor
    · rintro ⟨choices, hchoices, hreturns⟩
      obtain ⟨choice, rest, rfl⟩ := hcons choices hchoices
      exact ⟨⟨_, hchoices⟩, by simpa using (hfirst choice rest hchoices).mp (hreturns choice rfl)⟩
    · rintro ⟨⟨choices, hchoices⟩, hcheckable⟩
      obtain ⟨choice, rest, rfl⟩ := hcons choices hchoices
      exact ⟨_, hchoices, by simpa using (hfirst choice rest hchoices).mpr (hcheckable item rfl)⟩

/-- The completion that the response is, or is translated to. -/
theorem returns_chatAnswer_iff {payload completion : Json} (h : o.translated true payload = .ok completion) :
    Returns (jsonAnswer lower o true includeReasoning promptTemplate payload) ↔
      CompletionReadable includeReasoning promptTemplate completion := by
  have hanswer : Returns (jsonAnswer lower o true includeReasoning promptTemplate payload) ↔
      ∃ out choices, normalizeChatCompletion includeReasoning promptTemplate completion = .ok (out, choices) ∧
        ∀ choice ∈ choices.head?, Returns (antiLoop lower promptTemplate choice) := by
    unfold jsonAnswer
    rw [h]
    simp only [bind, Except.bind, if_true]
    cases hnormalized : normalizeChatCompletion includeReasoning promptTemplate completion with
    | error e => simp
    | ok pair =>
      obtain ⟨out, choices⟩ := pair
      cases choices with
      | nil => simp
      | cons choice choices =>
        cases hloop : antiLoop lower promptTemplate choice <;> simp [hloop]
  rw [hanswer]
  by_cases hobj : ∃ fields, completion = .obj fields
  · obtain ⟨fields, rfl⟩ := hobj
    have hreadable : CompletionReadable includeReasoning promptTemplate (.obj fields) ↔ ∃ before,
        items fields = .ok before ∧ (∀ choice ∈ before, ChoiceReadable includeReasoning promptTemplate choice) ∧
          ∀ choice ∈ before.head?, ChoiceCheckable choice := by
      simp [CompletionReadable]
    rw [hreadable]
    constructor
    · rintro ⟨out, choices, hnormalized, hreturns⟩
      obtain ⟨before, hbefore, hchoices, -⟩ := normalizeChatCompletion_obj_eq_ok_iff.mp hnormalized
      exact ⟨before, hbefore, returns_normalised_iff.mp ⟨choices, hchoices, hreturns⟩⟩
    · rintro ⟨before, hbefore, hreadable⟩
      obtain ⟨choices, hchoices, hreturns⟩ : ∃ choices, before.mapM (normalizeChoice includeReasoning promptTemplate) =
          .ok choices ∧ ∀ choice ∈ choices.head?, Returns (antiLoop lower promptTemplate choice) :=
        returns_normalised_iff.mpr hreadable
      exact ⟨_, choices, normalizeChatCompletion_obj_eq_ok_iff.mpr ⟨before, hbefore, hchoices, rfl⟩, hreturns⟩
  · push Not at hobj
    rw [normalizeChatCompletion_of_ne_obj hobj]
    simp [CompletionReadable, hobj]

/-- A completion of Ollama with some text. -/
theorem completionReadable_ollama {modelName : String} {created : ℤ} {content : Json} :
    CompletionReadable includeReasoning promptTemplate (ollamaCompletion modelName created content) ↔
      TextReadable includeReasoning promptTemplate content ∧ Checkable content := by
  let message : List (String × Json) := [("role", .str "assistant".toList), ("content", content)]
  let choice : List (String × Json) :=
    [("index", .int 0), ("finish_reason", .str "stop".toList), ("message", .obj message)]
  have hlookup : choice.lookup "message" = some (.obj message) := by simp [choice, List.lookup_cons]
  have htext : messageText message = some content := by simp [message, messageText, List.lookup_cons]
  have hreadable : ChoiceReadable includeReasoning promptTemplate (.obj choice) ↔
      TextReadable includeReasoning promptTemplate content := by
    have hmessage : MessageReadable includeReasoning promptTemplate (orObject (.obj message)) ↔
        TextReadable includeReasoning promptTemplate content := by
      rw [orObject_obj]
      simp [MessageReadable, htext]
    have hdelta : choice.lookup "delta" = none := by simp [choice, List.lookup_cons]
    simp [ChoiceReadable, hlookup, hdelta, hmessage]
  have hcheckable : ChoiceCheckable (.obj choice) ↔ Checkable content := by
    constructor
    · exact fun h => h choice message rfl hlookup content htext
    · rintro h fields inner heq hinner v hv
      cases heq
      rw [hlookup] at hinner
      cases hinner
      rw [htext, Option.mem_some] at hv
      rwa [← hv]
  constructor
  · rintro ⟨fields, choices, heq, hitems, hall, hfirst⟩
    cases heq
    obtain rfl : [Json.obj choice] = choices := Except.ok.inj hitems
    exact ⟨hreadable.mp (hall _ List.mem_cons_self), hcheckable.mp (hfirst _ rfl)⟩
  · rintro ⟨htextReadable, hcheck⟩
    refine ⟨_, [.obj choice], rfl, rfl, fun c hc => ?_, fun c hc => ?_⟩
    · rw [List.mem_singleton.mp hc]
      exact hreadable.mpr htextReadable
    · obtain rfl : Json.obj choice = c := by simpa using hc
      exact hcheckable.mpr hcheck

/-- The text of a response of Ollama at the chat endpoint. -/
theorem translateOllamaResponse_chat {modelName : String} {created : ℤ} {fields : List (String × Json)} :
    translateOllamaResponse true modelName created (.obj fields) =
      ((orObject ((fields.lookup "message").getD .null)).get "content" .null).map fun content =>
        ollamaCompletion modelName created
          (if content.truthy then content else (fields.lookup "response").getD (.str [])) := by
  unfold translateOllamaResponse orObject
  simp only [if_true, Json.get, bind, Except.bind]
  cases (if ((fields.lookup "message").getD .null).truthy then (fields.lookup "message").getD .null else .obj []) with
  | obj message =>
    simp only [Except.map, pure, Except.pure]
    split_ifs <;> rfl
  | _ => rfl

theorem returns_jsonAnswer_ollama_iff {payload : Json} (ho : o.ollama = true) :
    Returns (jsonAnswer lower o chat includeReasoning promptTemplate payload) ↔
      OllamaReadable includeReasoning promptTemplate chat payload := by
  have htranslated : ∀ chat, o.translated chat payload = translateOllamaResponse chat o.modelName (o.clock 0) payload :=
    fun chat => by rw [Origin.translated, if_pos ho]
  by_cases hobj : ∃ fields, payload = .obj fields
  · obtain ⟨fields, rfl⟩ := hobj
    cases chat with
    | false =>
      refine iff_of_true ?_ ⟨fields, rfl, fun h => by cases h⟩
      unfold jsonAnswer
      rw [htranslated]
      exact returns_ok _
    | true =>
      have hpayload := htranslated true
      rw [translateOllamaResponse_chat] at hpayload
      by_cases hmessage : ∃ message, orObject ((fields.lookup "message").getD .null) = .obj message
      · obtain ⟨message, hmessage⟩ := hmessage
        rw [hmessage] at hpayload
        rw [returns_chatAnswer_iff hpayload, completionReadable_ollama]
        simp [OllamaReadable, hmessage, ollamaAnswer]
      · push Not at hmessage
        rw [get_of_ne_obj hmessage] at hpayload
        refine iff_of_false ?_ ?_
        · unfold jsonAnswer
          rw [hpayload]
          simp [Except.map, bind, Except.bind]
        · rintro ⟨fields', heq, h⟩
          cases heq
          obtain ⟨message, hm, -⟩ := h rfl
          exact hmessage message hm
  · push Not at hobj
    refine iff_of_false ?_ ?_
    · unfold jsonAnswer
      rw [htranslated]
      cases chat <;> simp [translateOllamaResponse, get_of_ne_obj hobj, bind, Except.bind]
    · rintro ⟨fields, heq, -⟩
      exact hobj fields heq

/-- **Which responses an answer can be made of.** -/
theorem returns_jsonAnswer_iff {payload : Json} :
    Returns (jsonAnswer lower o chat includeReasoning promptTemplate payload) ↔
      AnswerReadable includeReasoning promptTemplate o chat payload := by
  cases ho : o.ollama with
  | true => simpa [AnswerReadable, ho] using returns_jsonAnswer_ollama_iff ho
  | false =>
    have htranslated : ∀ chat, o.translated chat payload = .ok payload := fun chat => by
      rw [Origin.translated, if_neg (by simp [ho])]
    cases chat with
    | true => simpa [AnswerReadable, ho] using returns_chatAnswer_iff (htranslated true)
    | false =>
      refine iff_of_true ?_ (by simp [AnswerReadable, ho])
      unfold jsonAnswer
      rw [htranslated]
      exact returns_ok _

end Answer

end LlmStore.Inference
