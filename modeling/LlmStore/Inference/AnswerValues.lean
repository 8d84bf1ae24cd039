import LlmStore.Core.JsonText
import LlmStore.Inference.JsonAnswer

/-!
# Answers are values

What `_json_forward` answers can be written to the cache and read back: from a value of Python it makes a value of
Python, whose objects have each key once (`proper_jsonAnswer`).
-/

namespace LlmStore.Inference

open JsonText (Proper)

/-- The fields have some of the keys, each once and in this order, with proper values. -/
structure FieldsOf (keys : List String) (fields : List (String × Json)) : Prop where
  keys : (fields.map Prod.fst).Sublist keys
  proper : ∀ field ∈ fields, Proper field.2

namespace FieldsOf

variable {keys keys' : List String} {fields fields' : List (String × Json)}

theorem nil (keys : List String) : FieldsOf keys [] := ⟨List.nil_sublist _, by simp⟩

theorem single (key : String) {v : Json} (hv : Proper v) : FieldsOf [key] [(key, v)] where
  keys := List.Sublist.refl _
  proper field hm := by
    obtain rfl := List.mem_singleton.mp hm
    exact hv

theorem append (h : FieldsOf keys fields) (h' : FieldsOf keys' fields') : FieldsOf (keys ++ keys') (fields ++ fields') where
  keys := by
    rw [List.map_append]
    exact h.keys.append h'.keys
  proper field hm := (List.mem_append.mp hm).elim (h.proper field) (h'.proper field)

theorem proper_obj (h : FieldsOf keys fields) (hkeys : keys.Nodup) : Proper (.obj fields) :=
  .obj (h.keys.nodup hkeys) h.proper

end FieldsOf

/-! ## Operations on values -/

theorem mem_of_lookup {key : String} {fields : List (String × Json)} {v : Json} (h : fields.lookup key = some v) :
    (key, v) ∈ fields := by
  induction fields with
  | nil => cases h
  | cons field fields ih =>
    obtain ⟨k, w⟩ := field
    rw [List.lookup_cons] at h
    split at h
    · rename_i hk
      obtain rfl := Option.some.inj h
      rw [beq_iff_eq.mp hk]
      exact List.mem_cons_self
    · exact List.mem_cons_of_mem _ (ih h)

theorem proper_lookup {key : String} {fields : List (String × Json)} (h : Proper (.obj fields)) {v : Json}
    (hv : fields.lookup key = some v) : Proper v := by
  cases h with
  | obj _ hfields => exact hfields _ (mem_of_lookup hv)

theorem proper_get {v d w : Json} {key : String} (hv : Proper v) (hd : Proper d) (h : v.get key d = .ok w) :
    Proper w := by
  cases v with
  | obj fields =>
    obtain rfl := Except.ok.inj h
    cases hl : fields.lookup key with
    | none => exact hd
    | some u => exact proper_lookup hv hl
  | _ => cases h

theorem fieldsOf_copied {key : String} {v : Json} (hv : Proper v) {fields : List (String × Json)}
    (h : copied key v = .ok fields) : FieldsOf [key] fields := by
  obtain ⟨has, -, h⟩ := bind_eq_ok_iff.mp h
  cases has with
  | true =>
    obtain ⟨w, hw, h⟩ := bind_eq_ok_iff.mp h
    obtain rfl := Except.ok.inj h
    exact .single key (proper_get hv .null hw)
  | false =>
    obtain rfl := Except.ok.inj h
    exact .nil _

theorem proper_iterate {v : Json} (hv : Proper v) {items : List Json} (h : v.iterate = .ok items) :
    ∀ item ∈ items, Proper item := by
  cases hv with
  | arr hitems =>
    obtain rfl := Except.ok.inj h
    exact hitems
  | str s =>
    obtain rfl := Except.ok.inj h
    intro item hm
    obtain ⟨c, -, rfl⟩ := List.mem_map.mp hm
    exact .str _
  | obj _ _ =>
    obtain rfl := Except.ok.inj h
    intro item hm
    obtain ⟨field, -, rfl⟩ := List.mem_map.mp hm
    exact .str _
  | _ => cases h

theorem map_fst_setItem (key : String) (v : Json) (fields : List (String × Json)) :
    (Json.setItem key v fields).map Prod.fst =
      if key ∈ fields.map Prod.fst then fields.map Prod.fst else fields.map Prod.fst ++ [key] := by
  induction fields with
  | nil => rfl
  | cons field fields ih =>
    obtain ⟨k, w⟩ := field
    by_cases hk : k = key
    · simp [Json.setItem, hk]
    · rw [Json.setItem, if_neg hk, List.map_cons, ih]
      by_cases hmem : key ∈ fields.map Prod.fst
      · have hcons : key ∈ ((k, w) :: fields).map Prod.fst := List.mem_cons_of_mem _ hmem
        rw [if_pos hmem, if_pos hcons, List.map_cons]
      · have hcons : key ∉ ((k, w) :: fields).map Prod.fst := by
          rw [List.map_cons, List.mem_cons, not_or]
          exact ⟨fun h => hk h.symm, hmem⟩
        rw [if_neg hmem, if_neg hcons, List.map_cons, List.cons_append]

theorem proper_setItem {key : String} {v : Json} {fields : List (String × Json)} (h : Proper (.obj fields))
    (hv : Proper v) : Proper (.obj (Json.setItem key v fields)) := by
  cases h with
  | obj hkeys hfields =>
    refine .obj ?_ ?_
    · rw [map_fst_setItem]
      split
      · exact hkeys
      · rename_i hmem
        exact List.nodup_append.mpr ⟨hkeys, by simp, fun k hk k' hk' => by
          obtain rfl := List.mem_singleton.mp hk'
          exact fun heq => hmem (heq ▸ hk)⟩
    · clear hkeys
      induction fields with
      | nil =>
        intro field hm
        obtain rfl := List.mem_singleton.mp hm
        exact hv
      | cons field fields ih =>
        obtain ⟨k, w⟩ := field
        have hrest := fun field hm => hfields field (List.mem_cons_of_mem _ hm)
        rw [Json.setItem]
        split
        · intro field hm
          rcases List.mem_cons.mp hm with rfl | hm
          · exact hv
          · exact hrest field hm
        · intro field hm
          rcases List.mem_cons.mp hm with rfl | hm
          · exact hfields (k, w) List.mem_cons_self
          · exact ih hrest field hm

/-! ## Normalised completions -/

section Normalized

variable {includeReasoning : Bool} {promptTemplate : Option String}

theorem proper_sanitize {v w : Json} (hv : Proper v)
    (h : sanitizeAssistantText includeReasoning promptTemplate v = .ok w) : Proper w := by
  have hother : (if includeReasoning then Except.ok v
      else if promptTemplate = some "qwen" then .error PyError.typeError else .ok v) = Except.ok w → Proper w := by
    intro h
    split at h
    · exact Except.ok.inj h ▸ hv
    · split at h
      · cases h
      · exact Except.ok.inj h ▸ hv
  cases v with
  | null => exact Except.ok.inj h ▸ .null
  | str s =>
    rw [sanitizeAssistantText_str] at h
    exact Except.ok.inj h ▸ .str _
  | bool b => exact hother h
  | int n => exact hother h
  | float x => exact hother h
  | arr items => exact hother h
  | obj fields => exact hother h

/-- The keys of a message that is passed on. -/
def messageKeys : List String := ["role", "content", "reasoning_content", "tool_calls"]

theorem proper_normalizeMessage {message w : Json} (hmessage : Proper message)
    (h : normalizeMessage includeReasoning promptTemplate message = .ok w) : Proper w := by
  have hrest : ∀ {role content : List (String × Json)}, FieldsOf ["role"] role → FieldsOf ["content"] content →
      (do
        let reasoning ← if includeReasoning then copied "reasoning_content" message else pure []
        let toolCalls ← copied "tool_calls" message
        pure (Json.obj (role ++ content ++ reasoning ++ toolCalls)) : Except PyError Json) = .ok w → Proper w := by
    intro role content hrole hcontent h
    have hjoin : ∀ {reasoning : List (String × Json)}, FieldsOf ["reasoning_content"] reasoning →
        (copied "tool_calls" message >>= fun toolCalls =>
          pure (Json.obj (role ++ content ++ reasoning ++ toolCalls))) = .ok w → Proper w := by
      intro reasoning hreasoning h
      obtain ⟨toolCalls, htoolCalls, h⟩ := bind_eq_ok_iff.mp h
      obtain rfl := Except.ok.inj h
      have hall := ((hrole.append hcontent).append hreasoning).append (fieldsOf_copied hmessage htoolCalls)
      exact hall.proper_obj (by decide : messageKeys.Nodup)
    cases includeReasoning with
    | true =>
      obtain ⟨reasoning, hreasoning, h⟩ := bind_eq_ok_iff.mp h
      exact hjoin (fieldsOf_copied hmessage hreasoning) h
    | false => exact hjoin (.nil _) h
  obtain ⟨role, hrole, h⟩ := bind_eq_ok_iff.mp h
  have hrole := fieldsOf_copied hmessage hrole
  have hsanitized : ∀ {key : String} {rest : Json → Except PyError Json},
      (do
        let value ← message.get key .null
        let content ← sanitizeAssistantText includeReasoning promptTemplate value
        rest content) = .ok w → ∃ content, Proper content ∧ rest content = .ok w := by
    intro key rest h
    obtain ⟨value, hvalue, h⟩ := bind_eq_ok_iff.mp h
    obtain ⟨content, hcontent, h⟩ := bind_eq_ok_iff.mp h
    exact ⟨content, proper_sanitize (proper_get hmessage .null hvalue) hcontent, h⟩
  obtain ⟨hasContent, -, h⟩ := bind_eq_ok_iff.mp h
  dsimp only at h
  split at h
  · obtain ⟨content, hcontent, h⟩ := hsanitized h
    exact hrest hrole (.single _ hcontent) h
  · obtain ⟨hasText, -, h⟩ := bind_eq_ok_iff.mp h
    split at h
    · obtain ⟨content, hcontent, h⟩ := hsanitized h
      exact hrest hrole (.single _ hcontent) h
    · exact hrest hrole (.nil _) h

theorem fieldsOf_normalizedMessage {key : String} {choice : Json} {fields : List (String × Json)}
    (hchoice : Proper choice) (h : normalizedMessage includeReasoning promptTemplate key choice = .ok fields) :
    FieldsOf [key] fields := by
  obtain ⟨has, -, h⟩ := bind_eq_ok_iff.mp h
  cases has with
  | true =>
    obtain ⟨message, hmessage, h⟩ := bind_eq_ok_iff.mp h
    obtain ⟨normalized, hnormalized, h⟩ := bind_eq_ok_iff.mp h
    obtain rfl := Except.ok.inj h
    have hproper : Proper (if message.truthy then message else .obj []) := by
      split
      · exact proper_get hchoice .null hmessage
      · exact .obj (by simp) (by simp)
    exact .single key (proper_normalizeMessage hproper hnormalized)
  | false =>
    obtain rfl := Except.ok.inj h
    exact .nil _

/-- The keys of a choice that is passed on. -/
def choiceKeys : List String := ["index", "finish_reason", "message", "delta", "text", "logprobs"]

theorem fieldsOf_normalizeChoice {choice : Json} {fields : List (String × Json)} (hchoice : Proper choice)
    (h : normalizeChoice includeReasoning promptTemplate choice = .ok fields) : FieldsOf choiceKeys fields := by
  obtain ⟨index, hindex, h⟩ := bind_eq_ok_iff.mp h
  obtain ⟨finishReason, hfinishReason, h⟩ := bind_eq_ok_iff.mp h
  obtain ⟨message, hmessage, h⟩ := bind_eq_ok_iff.mp h
  obtain ⟨delta, hdelta, h⟩ := bind_eq_ok_iff.mp h
  obtain ⟨text, htext, h⟩ := bind_eq_ok_iff.mp h
  obtain ⟨logprobs, hlogprobs, h⟩ := bind_eq_ok_iff.mp h
  obtain rfl := Except.ok.inj h
  have hfirst := (FieldsOf.single "index" (proper_get hchoice (.int 0) hindex)).append
    (.single "finish_reason" (proper_get hchoice .null hfinishReason))
  exact (((hfirst.append (fieldsOf_normalizedMessage hchoice hmessage)).append
    (fieldsOf_normalizedMessage hchoice hdelta)).append (fieldsOf_copied hchoice htext)).append
    (fieldsOf_copied hchoice hlogprobs)

theorem fieldsOf_mapM {items : List Json} : ∀ {choices : List (List (String × Json))}, (∀ item ∈ items, Proper item) →
    items.mapM (normalizeChoice includeReasoning promptTemplate) = .ok choices →
    ∀ choice ∈ choices, FieldsOf choiceKeys choice := by
  induction items with
  | nil =>
    intro choices _ h
    obtain rfl := Except.ok.inj h
    simp
  | cons item items ih =>
    intro choices hitems h
    rw [List.mapM_cons] at h
    obtain ⟨choice, hchoice, h⟩ := bind_eq_ok_iff.mp h
    obtain ⟨rest, hrest, h⟩ := bind_eq_ok_iff.mp h
    obtain rfl := Except.ok.inj h
    intro c hm
    rcases List.mem_cons.mp hm with rfl | hm
    · exact fieldsOf_normalizeChoice (hitems item (by simp)) hchoice
    · exact ih (fun i hi => hitems i (by simp [hi])) hrest c hm

/-- The keys of a completion that is passed on. -/
def completionKeys : List String := ["id", "object", "created", "model", "choices", "usage", "system_fingerprint"]

theorem proper_normalizeChatCompletion {payload : Json} {fields : List (String × Json)}
    {choices : List (List (String × Json))} (hpayload : Proper payload)
    (h : normalizeChatCompletion includeReasoning promptTemplate payload = .ok (fields, choices)) :
    Proper (.obj fields) ∧ ∀ choice ∈ choices, Proper (.obj choice) := by
  obtain ⟨id, hid, h⟩ := bind_eq_ok_iff.mp h
  obtain ⟨object, hobject, h⟩ := bind_eq_ok_iff.mp h
  obtain ⟨created, hcreated, h⟩ := bind_eq_ok_iff.mp h
  obtain ⟨model, hmodel, h⟩ := bind_eq_ok_iff.mp h
  obtain ⟨value, hvalue, h⟩ := bind_eq_ok_iff.mp h
  obtain ⟨items, hitems, h⟩ := bind_eq_ok_iff.mp h
  obtain ⟨normalized, hnormalized, h⟩ := bind_eq_ok_iff.mp h
  obtain ⟨usage, husage, h⟩ := bind_eq_ok_iff.mp h
  obtain ⟨fingerprint, hfingerprint, h⟩ := bind_eq_ok_iff.mp h
  obtain ⟨rfl, rfl⟩ := Prod.mk.inj (Except.ok.inj h)
  have hproper := proper_iterate (proper_get hpayload (.arr (by simp)) hvalue) hitems
  have hchoices : ∀ choice ∈ normalized, Proper (.obj choice) := fun choice hm =>
    (fieldsOf_mapM hproper hnormalized choice hm).proper_obj (by decide)
  have harr : Proper (.arr (normalized.map .obj)) := .arr fun item hm => by
    obtain ⟨choice, hchoice, rfl⟩ := List.mem_map.mp hm
    exact hchoices choice hchoice
  have hhead : FieldsOf ["id", "object", "created", "model", "choices"]
      [("id", id), ("object", object), ("created", created), ("model", model),
        ("choices", .arr (normalized.map .obj))] :=
    ((((FieldsOf.single "id" (proper_get hpayload .null hid)).append
      (.single "object" (proper_get hpayload (.str _) hobject))).append
      (.single "created" (proper_get hpayload .null hcreated))).append
      (.single "model" (proper_get hpayload .null hmodel))).append (.single "choices" harr)
  have hall := (hhead.append (fieldsOf_copied hpayload husage)).append (fieldsOf_copied hpayload hfingerprint)
  exact ⟨hall.proper_obj (by decide : completionKeys.Nodup), hchoices⟩

end Normalized

/-! ## Answers -/

theorem proper_cutChoice {text : List Char} {choice : List (String × Json)} (h : Proper (.obj choice)) :
    Proper (.obj (cutChoice text choice)) := by
  unfold cutChoice
  refine proper_setItem (proper_setItem h (proper_setItem ?_ (.str text))) (.str _)
  split
  · rename_i fields hl
    exact proper_lookup h hl
  · exact .obj (by simp) (by simp)

theorem proper_antiLoop {lower : List Char → List Char} {promptTemplate : Option String}
    {choice choice' : List (String × Json)} (hchoice : Proper (.obj choice))
    (h : antiLoop lower promptTemplate choice = .ok choice') : Proper (.obj choice') := by
  obtain ⟨content, -, h⟩ := bind_eq_ok_iff.mp h
  obtain ⟨repeated, -, h⟩ := bind_eq_ok_iff.mp h
  cases repeated with
  | none =>
    obtain rfl := Except.ok.inj h
    exact hchoice
  | some text =>
    obtain rfl := Except.ok.inj h
    exact proper_cutChoice hchoice

theorem proper_ollamaCompletion (modelName : String) (created : ℤ) {content : Json} (h : Proper content) :
    Proper (ollamaCompletion modelName created content) := by
  have hmessage : FieldsOf ["role", "content"] [("role", .str "assistant".toList), ("content", content)] :=
    (FieldsOf.single "role" (.str _)).append (.single "content" h)
  have hchoice : FieldsOf ["index", "finish_reason", "message"] _ :=
    ((FieldsOf.single "index" (.int 0)).append (.single "finish_reason" (.str "stop".toList))).append
      (.single "message" (hmessage.proper_obj (by decide)))
  have husage : FieldsOf ["prompt_tokens", "completion_tokens", "total_tokens"] _ :=
    ((FieldsOf.single "prompt_tokens" (.int 0)).append (.single "completion_tokens" (.int 0))).append
      (.single "total_tokens" (.int 0))
  have hall : FieldsOf ["id", "object", "created", "model", "choices", "usage"] _ :=
    (((((FieldsOf.single "id" (.str ("chatcmpl-ollama-" ++ modelName).toList)).append
      (.single "object" (.str "chat.completion".toList))).append (.single "created" (.int created))).append
      (.single "model" (.str modelName.toList))).append
      (.single "choices" (.arr fun item hm => by
        obtain rfl := List.mem_singleton.mp hm
        exact hchoice.proper_obj (by decide)))).append (.single "usage" (husage.proper_obj (by decide)))
  exact hall.proper_obj (by decide)

theorem proper_translated {o : Origin} {payload w : Json} (hpayload : Proper payload)
    (h : o.translated true payload = .ok w) : Proper w := by
  unfold Origin.translated at h
  split at h
  · obtain ⟨message, hmessage, h⟩ := bind_eq_ok_iff.mp h
    obtain ⟨content, hcontent, h⟩ := bind_eq_ok_iff.mp h
    have hor : Proper (if message.truthy then message else .obj []) := by
      split
      · exact proper_get hpayload .null hmessage
      · exact .obj (by simp) (by simp)
    dsimp only at h
    split at h
    · obtain rfl := Except.ok.inj h
      exact proper_ollamaCompletion _ _ (proper_get hor .null hcontent)
    · obtain ⟨response, hresponse, h⟩ := bind_eq_ok_iff.mp h
      obtain rfl := Except.ok.inj h
      exact proper_ollamaCompletion _ _ (proper_get hpayload (.str _) hresponse)
  · obtain rfl := Except.ok.inj h
    exact hpayload

/-- **A chat answer is a value of Python if the response of the backend is.** -/
theorem proper_jsonAnswer {lower : List Char → List Char} {o : Origin} {includeReasoning : Bool}
    {promptTemplate : Option String} {payload answer : Json} (hpayload : Proper payload)
    (h : jsonAnswer lower o true includeReasoning promptTemplate payload = .ok answer) : Proper answer := by
  obtain ⟨translated, htranslated, h⟩ := bind_eq_ok_iff.mp h
  simp only [if_true] at h
  obtain ⟨⟨fields, choices⟩, hnormalized, h⟩ := bind_eq_ok_iff.mp h
  obtain ⟨hfields, hchoices⟩ := proper_normalizeChatCompletion (proper_translated hpayload htranslated) hnormalized
  cases choices with
  | nil =>
    obtain rfl := Except.ok.inj h
    exact hfields
  | cons choice choices =>
    obtain ⟨choice', hchoice', h⟩ := bind_eq_ok_iff.mp h
    obtain rfl := Except.ok.inj h
    refine proper_setItem hfields (.arr fun item hm => ?_)
    obtain ⟨c, hc, rfl⟩ := List.mem_map.mp hm
    rcases List.mem_cons.mp hc with rfl | hc
    · exact proper_antiLoop (hchoices choice (by simp)) hchoice'
    · exact hchoices c (by simp [hc])

end LlmStore.Inference
