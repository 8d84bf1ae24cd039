import LlmStore.Core.JsonLimits
import LlmStore.Inference.ReadableAnswer

/-!
# Answers that can be rendered

A `JSONResponse` renders its content when it is made, so an answer that JSON or UTF-8 cannot write raises in
`_json_forward`. `AnswerRenders` says of the response of a backend that what the answer shows of it can be written: the
entries that are copied, and what is left of the texts (`renders_jsonAnswer_iff`).
-/

namespace LlmStore.Inference

open Json (intLimit intLimit_pos)

/-! ## Rendering -/

/-- What a `JSONResponse` can write. -/
structure Renderer where
  /-- The characters that stand for lone surrogates, of which there is no `Char`. -/
  surrogate : Char → Bool
  /-- The lists and objects that `json.dumps` follows into each other before it raises `RecursionError`. -/
  depth : ℕ
  ascii : ∀ c : Char, c.toNat < 128 → surrogate c = false

namespace Renderer

variable (r : Renderer)

/-- `s.encode("utf-8")` returns. -/
def encodes (s : List Char) : Bool := s.all fun c => !r.surrogate c

/-- `json.dumps(value, ensure_ascii=False, allow_nan=False).encode("utf-8")` returns, in lists and objects that leave so
many levels. -/
def renders : ℕ → Json → Bool
  | _, .null => true
  | _, .bool _ => true
  | _, .int n => n.natAbs < intLimit
  | _, .float x => x.value?.isSome
  | _, .str s => r.encodes s
  | 0, .arr _ => false
  | 0, .obj _ => false
  | d + 1, .arr items => items.all (renders d)
  | d + 1, .obj fields => fields.all fun field => r.encodes field.1.toList && renders d field.2

/-- The entries can be written. -/
def FieldsRender (d : ℕ) (fields : List (String × Json)) : Prop :=
  ∀ field ∈ fields, r.encodes field.1.toList = true ∧ r.renders d field.2 = true

/-- The values of some keys can be written. -/
def ValuesRender (d : ℕ) (keys : List String) (fields : List (String × Json)) : Prop :=
  ∀ key ∈ keys, ∀ v ∈ fields.lookup key, r.renders d v = true

variable {r} {d : ℕ}

@[simp] theorem renders_null : r.renders d .null = true := by cases d <;> rfl

@[simp] theorem renders_int_iff {n : ℤ} : r.renders d (.int n) = true ↔ n.natAbs < intLimit := by
  cases d <;> simp only [renders, decide_eq_true_eq]

@[simp] theorem renders_str (s : List Char) : r.renders d (.str s) = r.encodes s := by cases d <;> rfl

@[simp] theorem renders_zero_arr (items : List Json) : r.renders 0 (.arr items) = false := rfl

@[simp] theorem renders_zero_obj (fields : List (String × Json)) : r.renders 0 (.obj fields) = false := rfl

theorem renders_arr_iff {items : List Json} :
    r.renders (d + 1) (.arr items) = true ↔ ∀ item ∈ items, r.renders d item = true := List.all_eq_true

theorem renders_obj_iff {fields : List (String × Json)} :
    r.renders (d + 1) (.obj fields) = true ↔ r.FieldsRender d fields := by
  rw [renders, List.all_eq_true]
  exact forall₂_congr fun field _ => Bool.and_eq_true_iff

/-- Letters of ASCII are encoded. -/
theorem encodes_ascii {s : List Char} (h : s.all fun c => c.toNat < 128) : r.encodes s = true := by
  refine List.all_eq_true.mpr fun c hc => ?_
  rw [r.ascii c (by simpa using List.all_eq_true.mp h c hc)]
  rfl

@[simp] theorem fieldsRender_nil : r.FieldsRender d [] := fun _ h => absurd h List.not_mem_nil

@[simp] theorem fieldsRender_cons_iff {key : String} {v : Json} {fields : List (String × Json)} :
    r.FieldsRender d ((key, v) :: fields) ↔
      (r.encodes key.toList = true ∧ r.renders d v = true) ∧ r.FieldsRender d fields := List.forall_mem_cons

@[simp] theorem fieldsRender_append_iff {fields fields' : List (String × Json)} :
    r.FieldsRender d (fields ++ fields') ↔ r.FieldsRender d fields ∧ r.FieldsRender d fields' :=
  List.forall_mem_append

theorem fieldsRender_single_iff {key : String} (hkey : r.encodes key.toList = true) {v : Json} :
    r.FieldsRender d [(key, v)] ↔ r.renders d v = true := by
  rw [fieldsRender_cons_iff]
  exact ⟨fun h => h.1.2, fun h => ⟨⟨hkey, h⟩, fieldsRender_nil⟩⟩

/-- An entry that is copied can be written just if its value can. -/
theorem fieldsRender_entry_iff {key : String} (hkey : r.encodes key.toList = true) {fields : List (String × Json)} :
    r.FieldsRender d (entry key fields) ↔ ∀ v ∈ fields.lookup key, r.renders d v = true := by
  unfold entry
  cases fields.lookup key with
  | none => simp
  | some v =>
    rw [Option.map_some, Option.toList_some, fieldsRender_single_iff hkey]
    simp

theorem renders_getD_iff {fields : List (String × Json)} {key : String} {default : Json}
    (h : r.renders d default = true) :
    r.renders d ((fields.lookup key).getD default) = true ↔ ∀ v ∈ fields.lookup key, r.renders d v = true := by
  cases fields.lookup key with
  | none => simp [h]
  | some v => simp

end Renderer

/-! ## What an answer shows -/

section Conditions

variable (r : Renderer) (lower : List Char → List Char) (includeReasoning : Bool) (promptTemplate : Option String)

/-- What a client sees of the text of a message; that of the first message is cut if it repeats itself. -/
def shownText (first : Bool) : Json → Json
  | .str s => .str (if first then answeredText lower includeReasoning promptTemplate s
      else assistantText includeReasoning promptTemplate s)
  | v => v

/-- The keys whose values a message keeps. -/
def keptKeys : List String := ["role", "tool_calls"] ++ if includeReasoning then ["reasoning_content"] else []

/-- What the answer shows of a message can be written. -/
def MessageRenders (first : Bool) : ℕ → Json → Prop
  | 0, _ => False
  | d + 1, .obj fields => r.ValuesRender d (keptKeys includeReasoning) fields ∧
      ∀ v ∈ messageText fields, r.renders d (shownText lower includeReasoning promptTemplate first v) = true
  | _ + 1, _ => True

/-- The text of the message of a choice. -/
def choiceText (fields : List (String × Json)) : Option Json :=
  match fields.lookup "message" with
  | some (.obj message) => messageText message
  | _ => none

/-- The text of the message of a choice repeats itself, as a client would see it. -/
def Repeats (fields : List (String × Json)) : Prop :=
  ∃ text, choiceText fields = some (.str text) ∧
    detectRepetition lower promptTemplate (assistantText includeReasoning promptTemplate text) = true

/-- What the answer shows of a choice can be written; the `finish_reason` of a first choice that is cut is replaced. -/
def ChoiceRenders (first : Bool) : ℕ → Json → Prop
  | d + 1, .obj fields => r.ValuesRender d ["index", "text", "logprobs"] fields ∧
      (¬ (first = true ∧ Repeats lower includeReasoning promptTemplate fields) →
        r.ValuesRender d ["finish_reason"] fields) ∧
      (∀ v ∈ fields.lookup "message",
        MessageRenders r lower includeReasoning promptTemplate first d (orObject v)) ∧
      ∀ v ∈ fields.lookup "delta", MessageRenders r lower includeReasoning promptTemplate false d (orObject v)
  | _, _ => False

/-- What the answer shows of a completion can be written. -/
def CompletionRenders : ℕ → Json → Prop
  | d + 2, .obj fields =>
    r.ValuesRender (d + 1) ["id", "object", "created", "model", "usage", "system_fingerprint"] fields ∧
      ∀ choices, items fields = .ok choices →
        (∀ choice ∈ choices.head?, ChoiceRenders r lower includeReasoning promptTemplate true d choice) ∧
          ∀ choice ∈ choices.tail, ChoiceRenders r lower includeReasoning promptTemplate false d choice
  | _, _ => False

/-- What the answer shows of a response of Ollama can be written. -/
def OllamaRenders (o : Origin) (chat : Bool) (payload : Json) : Prop :=
  r.encodes o.modelName.toList = true ∧ (o.clock 0).natAbs < intLimit ∧ ∀ fields, payload = .obj fields →
    if chat then
      4 ≤ r.depth ∧ ∀ message, orObject ((fields.lookup "message").getD .null) = .obj message →
        r.renders (r.depth - 4)
          (shownText lower includeReasoning promptTemplate true (ollamaAnswer fields message)) = true
    else 3 ≤ r.depth ∧ r.renders (r.depth - 3) ((fields.lookup "response").getD (.str [])) = true

/-- What the answer shows of the response of a backend can be written. -/
def AnswerRenders (o : Origin) (chat : Bool) (payload : Json) : Prop :=
  if o.ollama then OllamaRenders r lower includeReasoning promptTemplate o chat payload
  else if chat then CompletionRenders r lower includeReasoning promptTemplate r.depth payload
  else r.renders r.depth payload = true

end Conditions

/-! ## Messages -/

section Messages

variable {r : Renderer} {lower : List Char → List Char} {includeReasoning : Bool} {promptTemplate : Option String}
  {d : ℕ}

/-- The keys of an answer. -/
def answerKeys : List String :=
  ["id", "object", "created", "model", "choices", "usage", "system_fingerprint", "index", "finish_reason", "message",
    "delta", "text", "logprobs", "role", "content", "reasoning_content", "tool_calls", "prompt_tokens",
    "completion_tokens", "total_tokens"]

theorem encodes_key {key : String} (h : key ∈ answerKeys) : r.encodes key.toList = true :=
  Renderer.encodes_ascii ((by decide : ∀ key ∈ answerKeys, key.toList.all fun c => c.toNat < 128) key h)

theorem fieldsRender_copied_iff {key : String} (h : key ∈ answerKeys) {fields : List (String × Json)} :
    r.FieldsRender d (entry key fields) ↔ ∀ v ∈ fields.lookup key, r.renders d v = true :=
  Renderer.fieldsRender_entry_iff (encodes_key h)

/-- A message with some content. -/
def messageFields (includeReasoning : Bool) (fields content : List (String × Json)) : List (String × Json) :=
  entry "role" fields ++ content ++ reasoningEntry includeReasoning fields ++ entry "tool_calls" fields

theorem fieldsRender_messageFields_iff {fields content : List (String × Json)} :
    r.FieldsRender d (messageFields includeReasoning fields content) ↔
      r.ValuesRender d (keptKeys includeReasoning) fields ∧ r.FieldsRender d content := by
  have hreasoning : r.FieldsRender d (reasoningEntry includeReasoning fields) ↔
      (includeReasoning = true → ∀ v ∈ fields.lookup "reasoning_content", r.renders d v = true) := by
    cases includeReasoning with
    | true => simp [reasoningEntry, fieldsRender_copied_iff (by decide : "reasoning_content" ∈ answerKeys)]
    | false => simp [reasoningEntry]
  have hkeys : r.ValuesRender d (keptKeys includeReasoning) fields ↔
      (∀ v ∈ fields.lookup "role", r.renders d v = true) ∧ (∀ v ∈ fields.lookup "tool_calls", r.renders d v = true) ∧
        (includeReasoning = true → ∀ v ∈ fields.lookup "reasoning_content", r.renders d v = true) := by
    cases includeReasoning <;> simp [Renderer.ValuesRender, keptKeys]
  rw [messageFields, Renderer.fieldsRender_append_iff, Renderer.fieldsRender_append_iff,
    Renderer.fieldsRender_append_iff, fieldsRender_copied_iff (by decide), fieldsRender_copied_iff (by decide),
    hreasoning, hkeys]
  tauto

theorem sanitize_eq_shownText (lower : List Char → List Char) {v w : Json}
    (h : sanitizeAssistantText includeReasoning promptTemplate v = .ok w) :
    w = shownText lower includeReasoning promptTemplate false v := by
  cases v with
  | str s =>
    rw [sanitizeAssistantText_str] at h
    exact (Except.ok.inj h).symm
  | null => exact (Except.ok.inj h).symm
  | _ =>
    simp only [sanitizeAssistantText] at h
    split_ifs at h
    all_goals exact (Except.ok.inj h).symm

/-- The content of a message can be written just if what is seen of its text can. -/
theorem fieldsRender_contentEntry_iff {text : Option Json} {content : List (String × Json)}
    (h : contentEntry includeReasoning promptTemplate text = .ok content) :
    r.FieldsRender d content ↔
      ∀ v ∈ text, r.renders d (shownText lower includeReasoning promptTemplate false v) = true := by
  cases text with
  | none =>
    obtain rfl := Except.ok.inj h
    simp
  | some v =>
    obtain ⟨w, hw, rfl⟩ := map_eq_ok_iff.mp h
    rw [sanitize_eq_shownText lower hw, Renderer.fieldsRender_single_iff (encodes_key (by decide))]
    simp

/-- A message that is normalised can be written just if what it shows can. -/
theorem renders_normalizeMessage_iff (lower : List Char → List Char) {message w : Json}
    (h : normalizeMessage includeReasoning promptTemplate message = .ok w) :
    r.renders d w = true ↔ MessageRenders r lower includeReasoning promptTemplate false d message := by
  by_cases hobj : ∃ fields, message = .obj fields
  · obtain ⟨fields, rfl⟩ := hobj
    rw [normalizeMessage_obj] at h
    obtain ⟨content, hcontent, rfl⟩ := map_eq_ok_iff.mp h
    cases d with
    | zero => exact iff_of_false (by simp) id
    | succ d =>
      rw [Renderer.renders_obj_iff, MessageRenders, ← fieldsRender_contentEntry_iff hcontent]
      exact fieldsRender_messageFields_iff
  · push Not at hobj
    have hkeys := (returns_normalizeMessage_of_ne_obj hobj).mp ⟨w, h⟩
    rw [normalizeMessage_of_keys hkeys] at h
    obtain rfl := Except.ok.inj h
    cases d with
    | zero => exact iff_of_false (by simp) id
    | succ d =>
      refine iff_of_true (Renderer.renders_obj_iff.mpr Renderer.fieldsRender_nil) ?_
      cases message with
      | obj fields => exact absurd rfl (hobj fields)
      | _ => trivial

end Messages

/-! ## Choices -/

section Choices

variable {r : Renderer} {lower : List Char → List Char} {includeReasoning : Bool} {promptTemplate : Option String}
  {d : ℕ}

theorem fieldsRender_messageEntry_iff (lower : List Char → List Char) {key : String} (hkey : key ∈ answerKeys)
    {value : Option Json} {entries : List (String × Json)}
    (h : messageEntry includeReasoning promptTemplate key value = .ok entries) :
    r.FieldsRender d entries ↔
      ∀ v ∈ value, MessageRenders r lower includeReasoning promptTemplate false d (orObject v) := by
  cases value with
  | none =>
    obtain rfl := Except.ok.inj h
    simp
  | some v =>
    obtain ⟨w, hw, rfl⟩ := map_eq_ok_iff.mp h
    rw [Renderer.fieldsRender_single_iff (encodes_key hkey), renders_normalizeMessage_iff lower hw]
    simp

/-- The entries of a choice around those for its message. -/
theorem fieldsRender_choiceFields_iff {fields finishReason message delta : List (String × Json)} :
    r.FieldsRender d ([("index", (fields.lookup "index").getD (.int 0))] ++ finishReason ++ message ++ delta ++
        entry "text" fields ++ entry "logprobs" fields) ↔
      r.ValuesRender d ["index", "text", "logprobs"] fields ∧ r.FieldsRender d finishReason ∧
        r.FieldsRender d message ∧ r.FieldsRender d delta := by
  have hindex : r.renders d (.int 0) = true := Renderer.renders_int_iff.mpr intLimit_pos
  rw [Renderer.fieldsRender_append_iff, Renderer.fieldsRender_append_iff, Renderer.fieldsRender_append_iff,
    Renderer.fieldsRender_append_iff, Renderer.fieldsRender_append_iff,
    Renderer.fieldsRender_single_iff (encodes_key (by decide)), Renderer.renders_getD_iff hindex,
    fieldsRender_copied_iff (by decide), fieldsRender_copied_iff (by decide)]
  simp only [Renderer.ValuesRender, List.forall_mem_cons, List.not_mem_nil, false_implies, implies_true, and_true]
  tauto

/-- A choice that is normalised can be written just if what it shows can. -/
theorem renders_normalizeChoice_iff (lower : List Char → List Char) {choice : Json} {fields : List (String × Json)}
    (h : normalizeChoice includeReasoning promptTemplate choice = .ok fields) :
    r.renders d (.obj fields) = true ↔ ChoiceRenders r lower includeReasoning promptTemplate false d choice := by
  obtain ⟨before, rfl⟩ : ∃ before, choice = .obj before := by
    by_contra hobj
    push Not at hobj
    rw [normalizeChoice_of_ne_obj hobj] at h
    cases h
  rw [normalizeChoice_obj] at h
  obtain ⟨message, hmessage, h⟩ := bind_eq_ok_iff.mp h
  obtain ⟨delta, hdelta, h⟩ := bind_eq_ok_iff.mp h
  obtain rfl := Except.ok.inj h
  cases d with
  | zero => exact iff_of_false (by simp) id
  | succ d =>
    have hfinish : r.FieldsRender d [("finish_reason", (before.lookup "finish_reason").getD .null)] ↔
        r.ValuesRender d ["finish_reason"] before := by
      rw [Renderer.fieldsRender_single_iff (encodes_key (by decide)), Renderer.renders_getD_iff Renderer.renders_null]
      simp [Renderer.ValuesRender]
    rw [Renderer.renders_obj_iff, ChoiceRenders, ← fieldsRender_messageEntry_iff lower (by decide) hmessage,
      ← fieldsRender_messageEntry_iff lower (by decide) hdelta]
    refine fieldsRender_choiceFields_iff.trans ?_
    rw [hfinish]
    simp

/-- A first choice that is not cut shows what another one shows. -/
theorem choiceRenders_of_not_repeats {fields : List (String × Json)}
    (h : ¬ Repeats lower includeReasoning promptTemplate fields) :
    ChoiceRenders r lower includeReasoning promptTemplate true d (.obj fields) ↔
      ChoiceRenders r lower includeReasoning promptTemplate false d (.obj fields) := by
  cases d with
  | zero => exact Iff.rfl
  | succ d =>
    have hmessage : ∀ v ∈ fields.lookup "message", MessageRenders r lower includeReasoning promptTemplate true d
        (orObject v) ↔ MessageRenders r lower includeReasoning promptTemplate false d (orObject v) := by
      intro v hv
      unfold orObject
      split_ifs with htruthy
      · cases d with
        | zero => exact Iff.rfl
        | succ d =>
          cases v with
          | obj message =>
            have hshown : ∀ v ∈ messageText message, shownText lower includeReasoning promptTemplate true v =
                shownText lower includeReasoning promptTemplate false v := by
              intro v htext
              cases v with
              | str s =>
                have hno : ¬ detectRepetition lower promptTemplate
                    (assistantText includeReasoning promptTemplate s) = true :=
                  fun hyes => h ⟨s, by rw [choiceText, hv]; exact htext, hyes⟩
                simp [shownText, answeredText, hno]
              | _ => rfl
            simp only [MessageRenders]
            exact and_congr_right fun _ => forall₂_congr fun v hv => by rw [hshown v hv]
          | _ => exact Iff.rfl
      · cases d <;> simp [MessageRenders, messageText]
    simp only [ChoiceRenders, h, and_false, not_false_eq_true, true_implies, Bool.false_eq_true]
    exact and_congr_right fun _ => and_congr_right fun _ => and_congr_left fun _ => forall₂_congr hmessage

/-- The text that is checked for repetitions. -/
theorem firstText_normalizeChoice (lower : List Char → List Char) {fields choice : List (String × Json)}
    (h : normalizeChoice includeReasoning promptTemplate (.obj fields) = .ok choice) :
    ((choice.lookup "message").getD (.obj [])).get "content" (.str []) =
      .ok (((choiceText fields).map (shownText lower includeReasoning promptTemplate false)).getD (.str [])) := by
  rw [normalizeChoice_obj] at h
  obtain ⟨message, hmessage, h⟩ := bind_eq_ok_iff.mp h
  obtain ⟨delta, hdelta, h⟩ := bind_eq_ok_iff.mp h
  obtain rfl := Except.ok.inj h
  have hlookup : (choiceFields fields message delta).lookup "message" = message.lookup "message" := by
    have hno : delta.lookup "message" = none := lookup_messageEntry (by decide) hdelta
    simp [choiceFields, Hole.lookup_append, lookup_entry, hno, List.lookup_cons]
  have hcontent : ∀ {fields : List (String × Json)} {content : List (String × Json)},
      contentEntry includeReasoning promptTemplate (messageText fields) = .ok content →
      ((messageFields includeReasoning fields content).lookup "content").getD (.str []) =
        ((messageText fields).map (shownText lower includeReasoning promptTemplate false)).getD (.str []) := by
    intro fields content hentry
    have hreasoning : (reasoningEntry includeReasoning fields).lookup "content" = none := by
      cases includeReasoning <;> simp [reasoningEntry, lookup_entry]
    simp only [messageFields, Hole.lookup_append, lookup_entry, hreasoning]
    cases htext : messageText fields with
    | none =>
      rw [htext] at hentry
      obtain rfl := Except.ok.inj hentry
      simp
    | some v =>
      rw [htext] at hentry
      obtain ⟨w, hw, rfl⟩ := map_eq_ok_iff.mp hentry
      simp [sanitize_eq_shownText lower hw]
  rw [hlookup, choiceText]
  cases hvalue : fields.lookup "message" with
  | none =>
    rw [hvalue] at hmessage
    obtain rfl := Except.ok.inj hmessage
    rfl
  | some v =>
    rw [hvalue] at hmessage
    obtain ⟨w, hw, rfl⟩ := map_eq_ok_iff.mp hmessage
    simp only [List.lookup_cons, beq_self_eq_true, Option.getD_some]
    by_cases hobj : ∃ inner, v = .obj inner
    · obtain ⟨inner, rfl⟩ := hobj
      rw [orObject_obj, normalizeMessage_obj] at hw
      obtain ⟨content, hentry, rfl⟩ := map_eq_ok_iff.mp hw
      exact congrArg Except.ok (hcontent hentry)
    · push Not at hobj
      have hempty : w = .obj [] := by
        unfold orObject at hw
        split_ifs at hw
        · rw [normalizeMessage_of_keys ((returns_normalizeMessage_of_ne_obj hobj).mp ⟨w, hw⟩)] at hw
          exact (Except.ok.inj hw).symm
        · rw [normalizeMessage_obj] at hw
          cases includeReasoning <;> exact (Except.ok.inj hw).symm
      rw [hempty]
      cases v with
      | obj inner => exact absurd rfl (hobj inner)
      | _ => rfl

/-- Nothing but a string is cut. -/
theorem repeatedText_of_ne_str {v : Json} (h : ∀ s, v ≠ .str s) {repeated : Option (List Char)}
    (h' : repeatedText lower promptTemplate v = .ok repeated) : repeated = none := by
  cases v with
  | str s => exact absurd rfl (h s)
  | arr items =>
    cases items with
    | nil => exact (Except.ok.inj h').symm
    | cons item items =>
      simp only [repeatedText] at h'
      split_ifs at h'
  | _ =>
    simp only [repeatedText] at h'
    split_ifs at h'
    exact (Except.ok.inj h').symm

/-- The first choice is left as it is, or cut. -/
theorem antiLoop_cases {fields choice choice' : List (String × Json)}
    (h : normalizeChoice includeReasoning promptTemplate (.obj fields) = .ok choice)
    (h' : antiLoop lower promptTemplate choice = .ok choice') :
    (¬ Repeats lower includeReasoning promptTemplate fields ∧ choice' = choice) ∨
      ∃ text, choiceText fields = some (.str text) ∧
        detectRepetition lower promptTemplate (assistantText includeReasoning promptTemplate text) = true ∧
        choice' = cutChoice (answeredText lower includeReasoning promptTemplate text) choice := by
  obtain ⟨content, hcontent, h'⟩ := bind_eq_ok_iff.mp h'
  obtain ⟨repeated, hrepeated, h'⟩ := bind_eq_ok_iff.mp h'
  rw [firstText_normalizeChoice lower h] at hcontent
  obtain rfl := Except.ok.inj hcontent
  cases htext : choiceText fields with
  | none =>
    rw [htext] at hrepeated
    obtain rfl := Except.ok.inj hrepeated
    refine .inl ⟨?_, (Except.ok.inj h').symm⟩
    rintro ⟨text, hsome, -⟩
    cases htext.symm.trans hsome
  | some v =>
    rw [htext] at hrepeated
    by_cases hstr : ∃ s, v = .str s
    · obtain ⟨s, rfl⟩ := hstr
      simp only [Option.map_some, Option.getD_some, shownText, Bool.false_eq_true, if_false, repeatedText_str]
        at hrepeated
      by_cases hloop : detectRepetition lower promptTemplate (assistantText includeReasoning promptTemplate s) = true
      · rw [if_pos hloop] at hrepeated
        obtain rfl := Except.ok.inj hrepeated
        refine .inr ⟨s, rfl, hloop, ?_⟩
        rw [answeredText, if_pos hloop]
        exact (Except.ok.inj h').symm
      · rw [if_neg hloop] at hrepeated
        obtain rfl := Except.ok.inj hrepeated
        refine .inl ⟨?_, (Except.ok.inj h').symm⟩
        rintro ⟨text, hsome, hyes⟩
        cases htext.symm.trans hsome
        exact hloop hyes
    · push Not at hstr
      have hshown : shownText lower includeReasoning promptTemplate false v = v := by
        cases v with
        | str s => exact absurd rfl (hstr s)
        | _ => rfl
      rw [Option.map_some, Option.getD_some, hshown] at hrepeated
      obtain rfl := repeatedText_of_ne_str hstr hrepeated
      refine .inl ⟨?_, (Except.ok.inj h').symm⟩
      rintro ⟨text, hsome, -⟩
      cases htext.symm.trans hsome
      exact hstr text rfl

/-- A first choice that is cut. -/
theorem cutChoice_normalizeChoice (shown : List Char) {fields choice : List (String × Json)} {text : List Char}
    (h : normalizeChoice includeReasoning promptTemplate (.obj fields) = .ok choice)
    (htext : choiceText fields = some (.str text)) : ∃ message delta,
      fields.lookup "message" = some (.obj message) ∧ messageText message = some (.str text) ∧
        messageEntry includeReasoning promptTemplate "delta" (fields.lookup "delta") = .ok delta ∧
        cutChoice shown choice = [("index", (fields.lookup "index").getD (.int 0))] ++
          [("finish_reason", .str "length".toList)] ++
          [("message", .obj (messageFields includeReasoning message [("content", .str shown)]))] ++ delta ++
          entry "text" fields ++ entry "logprobs" fields := by
  obtain ⟨message, hvalue, hmessageText⟩ : ∃ message, fields.lookup "message" = some (.obj message) ∧
      messageText message = some (.str text) := by
    unfold choiceText at htext
    split at htext
    · exact ⟨_, by assumption, htext⟩
    · cases htext
  rw [normalizeChoice_obj, hvalue] at h
  obtain ⟨entries, hentries, h⟩ := bind_eq_ok_iff.mp h
  obtain ⟨delta, hdelta, h⟩ := bind_eq_ok_iff.mp h
  obtain rfl := Except.ok.inj h
  obtain ⟨w, hw, rfl⟩ := map_eq_ok_iff.mp hentries
  rw [orObject_obj, normalizeMessage_obj, hmessageText, contentEntry, sanitizeAssistantText_str] at hw
  obtain rfl := Except.ok.inj hw
  refine ⟨message, delta, hvalue, hmessageText, hdelta, ?_⟩
  have hcontent : ∀ v, Json.setItem "content" (.str shown) (messageFields includeReasoning message [("content", v)]) =
      messageFields includeReasoning message [("content", .str shown)] := by
    intro v
    unfold messageFields entry
    cases message.lookup "role" <;> simp [Json.setItem]
  have hlookup : (choiceFields fields [("message", .obj (messageFields includeReasoning message
      [("content", .str (assistantText includeReasoning promptTemplate text))]))] delta).lookup "message" =
        some (.obj (messageFields includeReasoning message
          [("content", .str (assistantText includeReasoning promptTemplate text))])) := by
    simp [choiceFields, List.lookup_cons]
  show cutChoice shown (choiceFields fields [("message", .obj (messageFields includeReasoning message
    [("content", .str (assistantText includeReasoning promptTemplate text))]))] delta) = _
  rw [cutChoice, hlookup]
  simp [hcontent, choiceFields, Json.setItem]

/-- The first choice can be written, cut or not, just if what it shows can. -/
theorem renders_antiLoop_iff {item : Json} {choice choice' : List (String × Json)}
    (h : normalizeChoice includeReasoning promptTemplate item = .ok choice)
    (h' : antiLoop lower promptTemplate choice = .ok choice') :
    r.renders d (.obj choice') = true ↔ ChoiceRenders r lower includeReasoning promptTemplate true d item := by
  obtain ⟨fields, rfl⟩ : ∃ fields, item = .obj fields := by
    by_contra hobj
    push Not at hobj
    rw [normalizeChoice_of_ne_obj hobj] at h
    cases h
  rcases antiLoop_cases h h' with ⟨hno, rfl⟩ | ⟨text, htext, hloop, rfl⟩
  · rw [choiceRenders_of_not_repeats hno]
    exact renders_normalizeChoice_iff lower h
  · obtain ⟨message, delta, hvalue, hmessageText, hdelta, hcut⟩ := cutChoice_normalizeChoice
      (answeredText lower includeReasoning promptTemplate text) h htext
    have hrepeats : Repeats lower includeReasoning promptTemplate fields := ⟨text, htext, hloop⟩
    rw [hcut]
    cases d with
    | zero => exact iff_of_false (by simp) id
    | succ d =>
      have hfinish : r.FieldsRender d [("finish_reason", .str "length".toList)] :=
        (Renderer.fieldsRender_single_iff (encodes_key (by decide))).mpr
          ((Renderer.renders_str _).trans (Renderer.encodes_ascii (by decide)))
      have hmessage : r.FieldsRender d [("message", .obj (messageFields includeReasoning message
          [("content", .str (answeredText lower includeReasoning promptTemplate text))]))] ↔
          ∀ v ∈ fields.lookup "message",
            MessageRenders r lower includeReasoning promptTemplate true d (orObject v) := by
        rw [Renderer.fieldsRender_single_iff (encodes_key (by decide)), hvalue]
        simp only [Option.mem_some, forall_eq', orObject_obj]
        cases d with
        | zero => exact iff_of_false (by simp) id
        | succ d =>
          rw [Renderer.renders_obj_iff, fieldsRender_messageFields_iff, MessageRenders, hmessageText,
            Renderer.fieldsRender_single_iff (encodes_key (by decide))]
          simp [shownText]
      rw [Renderer.renders_obj_iff, fieldsRender_choiceFields_iff, ChoiceRenders, hmessage,
        fieldsRender_messageEntry_iff lower (by decide) hdelta]
      simp only [hfinish, hrepeats, and_self, not_true_eq_false, false_implies, true_and]

end Choices

/-! ## Answers -/

section Answers

variable {r : Renderer} {lower : List Char → List Char} {o : Origin} {chat includeReasoning : Bool}
  {promptTemplate : Option String} {d : ℕ}

/-- A completion can be written just if the entries that are copied and its choices can. -/
theorem renders_completionFields_iff {fields : List (String × Json)} {choices : List (List (String × Json))} :
    r.renders (d + 2) (.obj (completionFields fields choices)) = true ↔
      r.ValuesRender (d + 1) ["id", "object", "created", "model", "usage", "system_fingerprint"] fields ∧
        ∀ choice ∈ choices, r.renders d (.obj choice) = true := by
  have hobject : r.renders (d + 1) (.str "chat.completion".toList) = true :=
    (Renderer.renders_str _).trans (Renderer.encodes_ascii (by decide))
  rw [Renderer.renders_obj_iff, completionFields]
  simp only [Renderer.fieldsRender_append_iff, Renderer.fieldsRender_cons_iff, Renderer.fieldsRender_nil, and_true]
  rw [Renderer.renders_getD_iff Renderer.renders_null, Renderer.renders_getD_iff hobject,
    Renderer.renders_getD_iff Renderer.renders_null, Renderer.renders_getD_iff Renderer.renders_null,
    Renderer.renders_arr_iff, List.forall_mem_map, fieldsRender_copied_iff (by decide),
    fieldsRender_copied_iff (by decide)]
  have hkey : ∀ key ∈ ["id", "object", "created", "model", "choices"], r.encodes key.toList = true := fun key h =>
    encodes_key ((by decide : ∀ key ∈ ["id", "object", "created", "model", "choices"], key ∈ answerKeys) key h)
  simp only [List.forall_mem_cons] at hkey
  obtain ⟨hid, hobjectKey, hcreated, hmodel, hchoices, -⟩ := hkey
  simp only [hid, hobjectKey, hcreated, hmodel, hchoices, true_and, Renderer.ValuesRender, List.forall_mem_cons,
    List.not_mem_nil, false_implies, implies_true, and_true]
  tauto

/-- With fewer than two levels left, no completion can be written. -/
theorem not_renders_completionFields {fields : List (String × Json)} {choices : List (List (String × Json))} :
    ∀ d < 2, r.renders d (.obj (completionFields fields choices)) = false
  | 0, _ => rfl
  | 1, _ => by
    rw [← Bool.not_eq_true, Renderer.renders_obj_iff]
    intro h
    have := (h ("choices", .arr (choices.map .obj)) (by simp [completionFields])).2
    simp at this

/-- The choices of an answer can be written just if what they show can. -/
theorem renders_choices_iff {item : Json} {items : List Json} {choice choice' : List (String × Json)}
    {choices : List (List (String × Json))}
    (h : (item :: items).mapM (normalizeChoice includeReasoning promptTemplate) = .ok (choice :: choices))
    (h' : antiLoop lower promptTemplate choice = .ok choice') :
    (∀ c ∈ choice' :: choices, r.renders d (.obj c) = true) ↔
      ChoiceRenders r lower includeReasoning promptTemplate true d item ∧
        ∀ c ∈ items, ChoiceRenders r lower includeReasoning promptTemplate false d c := by
  have hrest : ∀ {items : List Json} {choices : List (List (String × Json))},
      List.Forall₂ (fun c out => normalizeChoice includeReasoning promptTemplate c = .ok out) items choices →
        ((∀ c ∈ choices, r.renders d (.obj c) = true) ↔
          ∀ c ∈ items, ChoiceRenders r lower includeReasoning promptTemplate false d c) := by
    intro items choices hall
    induction hall with
    | nil => simp
    | cons hc _ ih => rw [List.forall_mem_cons, List.forall_mem_cons, renders_normalizeChoice_iff lower hc, ih]
  obtain ⟨hfirst, hall⟩ := List.forall₂_cons.mp (mapM_eq_ok_iff.mp h)
  rw [List.forall_mem_cons, renders_antiLoop_iff hfirst h', hrest hall]

/-- The completion that the response is, or is translated to, makes an answer that can be written. -/
theorem renders_chatAnswer_iff {payload completion answer : Json} (h : o.translated true payload = .ok completion)
    (hanswer : jsonAnswer lower o true includeReasoning promptTemplate payload = .ok answer) :
    r.renders d answer = true ↔ CompletionRenders r lower includeReasoning promptTemplate d completion := by
  obtain ⟨payload', hpayload, hanswer⟩ := bind_eq_ok_iff.mp hanswer
  obtain rfl := Except.ok.inj (h.symm.trans hpayload)
  simp only [if_true] at hanswer
  obtain ⟨⟨out, choices⟩, hnormalized, hanswer⟩ := bind_eq_ok_iff.mp hanswer
  obtain ⟨fields, rfl⟩ : ∃ fields, completion = .obj fields := by
    by_contra hobj
    push Not at hobj
    rw [normalizeChatCompletion_of_ne_obj hobj] at hnormalized
    cases hnormalized
  obtain ⟨before, hitems, hchoices, rfl⟩ := normalizeChatCompletion_obj_eq_ok_iff.mp hnormalized
  -- the list of choices is replaced by the one with the first choice cut
  have hset : ∀ choices', Json.setItem "choices" (.arr (choices'.map .obj)) (completionFields fields choices) =
      completionFields fields choices' := fun choices' => by simp [completionFields, Json.setItem]
  obtain ⟨shown, rfl, hshown⟩ : ∃ shown, answer = .obj (completionFields fields shown) ∧
      ∀ d, (∀ c ∈ shown, r.renders d (.obj c) = true) ↔
        (∀ choice ∈ before.head?, ChoiceRenders r lower includeReasoning promptTemplate true d choice) ∧
          ∀ choice ∈ before.tail, ChoiceRenders r lower includeReasoning promptTemplate false d choice := by
    cases choices with
    | nil =>
      cases before with
      | nil => exact ⟨[], (Except.ok.inj hanswer).symm, fun d => by simp⟩
      | cons item items => exact absurd (mapM_eq_ok_iff.mp hchoices) (by simp)
    | cons choice choices =>
      cases before with
      | nil => exact absurd (mapM_eq_ok_iff.mp hchoices) (by simp)
      | cons item items =>
        obtain ⟨choice', hchoice', hanswer⟩ := bind_eq_ok_iff.mp hanswer
        refine ⟨choice' :: choices, ?_, fun d => ?_⟩
        · rw [← hset]
          exact (Except.ok.inj hanswer).symm
        · rw [renders_choices_iff hchoices hchoice']
          simp
  rcases d with _ | _ | d
  · exact iff_of_false (by simp) id
  · exact iff_of_false (by simp [not_renders_completionFields]) id
  · rw [renders_completionFields_iff, CompletionRenders, hshown]
    exact and_congr_right fun _ => ⟨fun h choices heq => Except.ok.inj (hitems.symm.trans heq) ▸ h, fun h => h _ hitems⟩

theorem encodes_append {start name : String} (h : start.toList.all fun c => c.toNat < 128) :
    r.encodes (start ++ name).toList = r.encodes name.toList := by
  have hprefix := r.encodes_ascii h
  unfold Renderer.encodes at hprefix ⊢
  rw [String.toList_append, List.all_append, hprefix, Bool.true_and]

/-- The usage that stands in the answer for a response of Ollama. -/
theorem renders_noUsage : r.renders (d + 1)
    (.obj [("prompt_tokens", .int 0), ("completion_tokens", .int 0), ("total_tokens", .int 0)]) = true := by
  have hzero : r.renders d (.int 0) = true := Renderer.renders_int_iff.mpr intLimit_pos
  rw [Renderer.renders_obj_iff, Renderer.fieldsRender_cons_iff, Renderer.fieldsRender_cons_iff,
    Renderer.fieldsRender_cons_iff]
  exact ⟨⟨encodes_key (by decide), hzero⟩, ⟨encodes_key (by decide), hzero⟩, ⟨encodes_key (by decide), hzero⟩,
    Renderer.fieldsRender_nil⟩

theorem renders_ascii {s : List Char} (h : s.all fun c => c.toNat < 128) : r.renders d (.str s) = true :=
  (Renderer.renders_str s).trans (Renderer.encodes_ascii h)

theorem renders_zero : r.renders d (.int 0) = true := Renderer.renders_int_iff.mpr intLimit_pos

/-- The message of a completion of Ollama. -/
theorem messageRenders_assistant {content : Json} :
    MessageRenders r lower includeReasoning promptTemplate true d
        (.obj [("role", .str "assistant".toList), ("content", content)]) ↔
      1 ≤ d ∧ r.renders (d - 1) (shownText lower includeReasoning promptTemplate true content) = true := by
  cases d with
  | zero => exact iff_of_false id (by omega)
  | succ d =>
    have htext : messageText [("role", .str "assistant".toList), ("content", content)] = some content := rfl
    have hrole : ([("role", .str "assistant".toList), ("content", content)] : List (String × Json)).lookup "role" =
      some (.str "assistant".toList) := rfl
    have htools : ([("role", .str "assistant".toList), ("content", content)] : List (String × Json)).lookup
      "tool_calls" = none := rfl
    have hreasoning : ([("role", .str "assistant".toList), ("content", content)] : List (String × Json)).lookup
      "reasoning_content" = none := rfl
    have hkept : r.ValuesRender d (keptKeys includeReasoning)
        [("role", .str "assistant".toList), ("content", content)] := by
      have hassistant : ∀ v ∈ some (Json.str "assistant".toList), r.renders d v = true := by
        rintro v ⟨⟩
        exact renders_ascii (by decide)
      cases includeReasoning <;>
        simp only [Renderer.ValuesRender, keptKeys, if_true, Bool.false_eq_true, if_false, List.forall_mem_append,
          List.forall_mem_cons, hrole, htools, hreasoning, Option.not_mem_none, List.not_mem_nil, false_implies,
          implies_true, and_true] <;>
        exact hassistant
    rw [MessageRenders, htext]
    simp only [hkept, Option.mem_some, forall_eq', true_and, Nat.le_add_left, Nat.add_sub_cancel]

/-- The choice of a completion of Ollama. -/
theorem choiceRenders_stop {content : Json} :
    ChoiceRenders r lower includeReasoning promptTemplate true d
        (.obj [("index", .int 0), ("finish_reason", .str "stop".toList),
          ("message", .obj [("role", .str "assistant".toList), ("content", content)])]) ↔
      2 ≤ d ∧ r.renders (d - 2) (shownText lower includeReasoning promptTemplate true content) = true := by
  let fields : List (String × Json) := [("index", .int 0), ("finish_reason", .str "stop".toList),
    ("message", .obj [("role", .str "assistant".toList), ("content", content)])]
  cases d with
  | zero => exact iff_of_false id (by omega)
  | succ d =>
    have hvalues : r.ValuesRender d ["index", "text", "logprobs"] fields := by
      simp only [Renderer.ValuesRender, List.forall_mem_cons, List.not_mem_nil, false_implies, implies_true, and_true,
        show fields.lookup "index" = some (.int 0) from rfl, show fields.lookup "text" = none from rfl,
        show fields.lookup "logprobs" = none from rfl, Option.not_mem_none]
      rintro v ⟨⟩
      exact renders_zero
    have hfinish : r.ValuesRender d ["finish_reason"] fields := by
      simp only [Renderer.ValuesRender, List.forall_mem_cons, List.not_mem_nil, false_implies, implies_true, and_true,
        show fields.lookup "finish_reason" = some (.str "stop".toList) from rfl]
      rintro v ⟨⟩
      exact renders_ascii (by decide)
    have hmessage : fields.lookup "message" =
      some (.obj [("role", .str "assistant".toList), ("content", content)]) := rfl
    have hdelta : fields.lookup "delta" = none := rfl
    show ChoiceRenders r lower includeReasoning promptTemplate true (d + 1) (.obj fields) ↔ _
    rw [ChoiceRenders, hmessage, hdelta]
    simp only [hvalues, hfinish, Option.mem_some, forall_eq', orObject_obj, messageRenders_assistant,
      Option.not_mem_none, false_implies, implies_true, true_and, and_true]
    rw [show d + 1 - 2 = d - 1 by omega, show 2 ≤ d + 1 ↔ 1 ≤ d by omega]

/-- A completion of Ollama with some text. -/
theorem completionRenders_ollama {modelName : String} {created : ℤ} {content : Json} :
    CompletionRenders r lower includeReasoning promptTemplate d (ollamaCompletion modelName created content) ↔
      r.encodes modelName.toList = true ∧ created.natAbs < intLimit ∧ 4 ≤ d ∧
        r.renders (d - 4) (shownText lower includeReasoning promptTemplate true content) = true := by
  match d with
  | 0 => exact iff_of_false id (by omega)
  | 1 => exact iff_of_false id (by omega)
  | d + 2 =>
    obtain ⟨fields, heq, hid, hobject, hcreated, hmodel, hchoices, husage, hfingerprint⟩ : ∃ fields,
        ollamaCompletion modelName created content = .obj fields ∧
        fields.lookup "id" = some (.str ("chatcmpl-ollama-" ++ modelName).toList) ∧
        fields.lookup "object" = some (.str "chat.completion".toList) ∧ fields.lookup "created" = some (.int created) ∧
        fields.lookup "model" = some (.str modelName.toList) ∧ items fields = .ok [.obj [("index", .int 0),
          ("finish_reason", .str "stop".toList),
          ("message", .obj [("role", .str "assistant".toList), ("content", content)])]] ∧
        fields.lookup "usage" = some (.obj [("prompt_tokens", .int 0), ("completion_tokens", .int 0),
          ("total_tokens", .int 0)]) ∧ fields.lookup "system_fingerprint" = none :=
      ⟨_, rfl, rfl, rfl, rfl, rfl, rfl, rfl, rfl⟩
    have hobjectRenders : r.renders (d + 1) (.str "chat.completion".toList) = true := renders_ascii (by decide)
    have hprefix : r.encodes ("chatcmpl-ollama-" ++ modelName).toList = r.encodes modelName.toList :=
      encodes_append (by decide)
    rw [heq, CompletionRenders, hchoices]
    simp only [Renderer.ValuesRender, List.forall_mem_cons, List.not_mem_nil, false_implies, implies_true, and_true,
      hid, hobject, hcreated, hmodel, husage, hfingerprint, Option.mem_some, forall_eq', Option.not_mem_none,
      Renderer.renders_str, hprefix, hobjectRenders, Renderer.renders_int_iff, renders_noUsage, Except.ok.injEq,
      List.head?_cons, List.tail_cons, choiceRenders_stop]
    rw [show d + 2 - 4 = d - 2 by omega, show 4 ≤ d + 2 ↔ 2 ≤ d by omega]
    tauto

/-- A text completion of Ollama. -/
theorem renders_ollamaTextCompletion {modelName : String} {created : ℤ} {text : Json} :
    r.renders d (ollamaTextCompletion modelName created text) = true ↔
      r.encodes modelName.toList = true ∧ created.natAbs < intLimit ∧ 3 ≤ d ∧
        r.renders (d - 3) text = true := by
  have hchoice : ∀ d, r.renders (d + 1) (.obj [("index", .int 0), ("finish_reason", .str "stop".toList),
      ("text", text)]) = r.renders d text := by
    intro d
    have hstop : r.renders d (.str "stop".toList) = true := renders_ascii (by decide)
    rw [Bool.eq_iff_iff, Renderer.renders_obj_iff, Renderer.fieldsRender_cons_iff, Renderer.fieldsRender_cons_iff,
      Renderer.fieldsRender_single_iff (encodes_key (by decide))]
    exact ⟨fun h => h.2.2, fun h => ⟨⟨encodes_key (by decide), renders_zero⟩, ⟨encodes_key (by decide), hstop⟩, h⟩⟩
  have hfields : ∀ d, r.renders (d + 2) (ollamaTextCompletion modelName created text) = true ↔
      r.encodes modelName.toList = true ∧ created.natAbs < intLimit ∧ r.renders d (.obj [("index", .int 0),
        ("finish_reason", .str "stop".toList), ("text", text)]) = true := by
    intro d
    have hobject : r.renders (d + 1) (.str "text_completion".toList) = true := renders_ascii (by decide)
    have hprefix : r.encodes ("cmpl-ollama-" ++ modelName).toList = r.encodes modelName.toList :=
      encodes_append (by decide)
    have hkey : ∀ key ∈ ["id", "object", "created", "model", "choices", "usage"], r.encodes key.toList = true :=
      fun key h => encodes_key ((by decide : ∀ key ∈ ["id", "object", "created", "model", "choices", "usage"],
        key ∈ answerKeys) key h)
    simp only [List.forall_mem_cons] at hkey
    obtain ⟨hid, hobjectKey, hcreated, hmodel, hchoices, husage, -⟩ := hkey
    rw [ollamaTextCompletion, Renderer.renders_obj_iff]
    simp only [Renderer.fieldsRender_cons_iff, Renderer.fieldsRender_nil, hid, hobjectKey, hcreated, hmodel, hchoices,
      husage, hobject, hprefix, Renderer.renders_str, Renderer.renders_int_iff, Renderer.renders_arr_iff,
      List.forall_mem_singleton, renders_noUsage, true_and, and_true]
    tauto
  match d with
  | 0 => exact iff_of_false (by simp [ollamaTextCompletion]) (by omega)
  | 1 =>
    refine iff_of_false (fun h => ?_) (by omega)
    rw [ollamaTextCompletion, Renderer.renders_obj_iff] at h
    simp only [Renderer.fieldsRender_cons_iff, Renderer.renders_zero_arr, Bool.false_eq_true, and_false, false_and] at h
  | 2 =>
    rw [hfields]
    exact iff_of_false (fun h => by simp at h) (by omega)
  | d + 3 =>
    rw [show d + 3 = (d + 1) + 2 from rfl, hfields, hchoice, show d + 1 + 2 - 3 = d by omega]
    simp

/-- **Which responses make an answer that can be written.** -/
theorem renders_jsonAnswer_iff {payload : Json} :
    (∃ answer, jsonAnswer lower o chat includeReasoning promptTemplate payload = .ok answer ∧
      r.renders r.depth answer = true) ↔
        AnswerReadable includeReasoning promptTemplate o chat payload ∧
          AnswerRenders r lower includeReasoning promptTemplate o chat payload := by
  have hreturns : Returns (jsonAnswer lower o chat includeReasoning promptTemplate payload) ↔
      AnswerReadable includeReasoning promptTemplate o chat payload := returns_jsonAnswer_iff
  rw [← hreturns]
  -- given the answer, it remains to say when it can be written
  suffices h : ∀ answer, jsonAnswer lower o chat includeReasoning promptTemplate payload = .ok answer →
      (r.renders r.depth answer = true ↔ AnswerRenders r lower includeReasoning promptTemplate o chat payload) by
    constructor
    · rintro ⟨answer, hanswer, hrenders⟩
      exact ⟨⟨answer, hanswer⟩, (h answer hanswer).mp hrenders⟩
    · rintro ⟨⟨answer, hanswer⟩, hrenders⟩
      exact ⟨answer, hanswer, (h answer hanswer).mpr hrenders⟩
  intro answer hanswer
  unfold AnswerRenders
  cases ho : o.ollama with
  | false =>
    have htranslated : ∀ chat, o.translated chat payload = .ok payload := fun chat => by
      rw [Origin.translated, if_neg (by simp [ho])]
    cases chat with
    | true => simpa using renders_chatAnswer_iff (htranslated true) hanswer
    | false =>
      rw [jsonAnswer, htranslated] at hanswer
      obtain rfl := Except.ok.inj hanswer
      simp
  | true =>
    have htranslated : ∀ chat, o.translated chat payload =
        translateOllamaResponse chat o.modelName (o.clock 0) payload := fun chat => by
      rw [Origin.translated, if_pos ho]
    obtain ⟨fields, rfl, hmessage⟩ := (returns_jsonAnswer_ollama_iff ho).mp ⟨answer, hanswer⟩
    rw [if_pos rfl]
    cases chat with
    | true =>
      obtain ⟨message, hmessage, -⟩ := hmessage rfl
      have hpayload : o.translated true (.obj fields) =
          .ok (ollamaCompletion o.modelName (o.clock 0) (ollamaAnswer fields message)) := by
        rw [htranslated, translateOllamaResponse_chat, hmessage]
        rfl
      rw [renders_chatAnswer_iff hpayload hanswer, completionRenders_ollama]
      simp [OllamaRenders, hmessage]
    | false =>
      obtain ⟨text, htext, hrest⟩ := bind_eq_ok_iff.mp hanswer
      rw [htranslated] at htext
      obtain rfl := Except.ok.inj htext
      obtain rfl := Except.ok.inj hrest
      rw [renders_ollamaTextCompletion]
      simp [OllamaRenders]

end Answers

end LlmStore.Inference
