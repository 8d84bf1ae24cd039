import LlmStore.Inference.AsyncQuestion

/-!
# The limits of what is forwarded

`validate_params` compares `max_tokens`, `temperature` and `top_p` with their upper limits only, and `chat_completions`
lets the safety profile raise the last two afterwards. So a body keeps within the limits except for defaults that are
too small, or `nan`, and for the relaxed profile over small maxima: `forwarded_limits_iff`.
-/

namespace LlmStore.Inference.Admission

open LlmStore.Usage LlmStore.Models LlmStore.Lib Program

/-! ## Numbers -/

/-- The value under the key is a number from the lower to the upper bound. -/
def NumberWithin (body : List (String × Json)) (key : String) (lower : ℚ) (upper : PyFloat) : Prop :=
  ∃ v x, body.lookup key = some v ∧ v.float? = some x ∧ (PyFloat.finite lower).le x ∧ x.le upper

/-- The body keeps within the limits of the plan and the settings. -/
structure WithinLimits (settings : Settings) (plan : EffectivePlan) (body : List (String × Json)) : Prop where
  maxTokens : NumberWithin body "max_tokens" 1 (.finite (min plan.maxOutputTokens settings.maxCompletionTokens : ℤ))
  temperature : NumberWithin body "temperature" 0 settings.maxTemperature
  topP : NumberWithin body "top_p" 0 settings.maxTopP

/-- The default of the client under a key; one that is missing counts as `None`. -/
def MetadataJson.default (metadata : MetadataJson) (key : String) : Json :=
  match metadata.clientDefaults with
  | .obj fields => (fields.lookup key).getD .null
  | _ => .null

/-- The number that the client's default gives, and otherwise the one of the settings. -/
def defaultNumber (metadata : MetadataJson) (key : String) (fallback : PyFloat) : PyFloat :=
  (metadata.default key).float?.getD fallback

/-- The same for `max_tokens`, where 0 gives none. -/
def defaultTokens (metadata : MetadataJson) (fallback : ℤ) : PyFloat :=
  ((metadata.default "max_tokens").float?.filter PyFloat.truthy).getD (.finite fallback)

/-- What the payload leaves out has a default that is large enough, or under the relaxed profile one that is a number,
and the maxima are numbers, which that profile stays under. -/
def KeepsLimits (settings : Settings) (metadata : MetadataJson) (payload : ChatCompletionRequest) : Prop :=
  let temperature := defaultNumber metadata "temperature" settings.defaultTemperature
  let topP := defaultNumber metadata "top_p" settings.defaultTopP
  (payload.maxTokens = none → (PyFloat.finite 1).le (defaultTokens metadata settings.defaultMaxTokens)) ∧
    if payload.safetyProfile = .relaxed then
      ((payload.temperature = none → temperature ≠ .nan) ∧ (PyFloat.finite 1).le settings.maxTemperature) ∧
        (payload.topP = none → topP ≠ .nan) ∧ (PyFloat.finite (9 / 10)).le settings.maxTopP
    else
      ((payload.temperature = none → (PyFloat.finite 0).le temperature) ∧ settings.maxTemperature ≠ .nan) ∧
        (payload.topP = none → (PyFloat.finite 0).le topP) ∧ settings.maxTopP ≠ .nan

section Numbers

variable {v : Json} {x y bound upper : PyFloat}

theorem exceeds_false_iff : v.exceeds bound = .ok false ↔ ∃ x, v.float? = some x ∧ bound.lt x = false := by
  unfold Json.exceeds
  cases v.float? with
  | none => exact iff_of_false nofun nofun
  | some y => simp

theorem truthy_iff (hv : v.float? = some x) : v.truthy = x.truthy := by
  cases v with
  | null | str | arr | obj => cases hv
  | bool b => cases b <;> obtain rfl := Option.some.inj hv <;> simp [Json.truthy, PyFloat.truthy]
  | int n =>
    obtain rfl := Option.some.inj hv
    simp [Json.truthy, PyFloat.truthy]
  | float y =>
    obtain rfl := Option.some.inj hv
    rfl

theorem float_atMost (hv : v.float? = some x) : (atMost v bound).float? = some (if bound.lt x then bound else x) := by
  unfold atMost
  rw [hv, Option.any_some]
  split_ifs
  · rfl
  · exact hv

theorem float_atLeast (hv : v.float? = some x) : (atLeast v bound).float? = some (if x.lt bound then bound else x) := by
  unfold atLeast
  rw [hv, Option.any_some]
  split_ifs
  · rfl
  · exact hv

theorem ne_nan_of_le (h : x.le y = true) : x ≠ .nan ∧ y ≠ .nan := (PyFloat.le_iff_not_lt.mp h).2

theorem le_of_not_lt (h : x.lt y = false) (hx : x ≠ .nan) (hy : y ≠ .nan) : y.le x = true :=
  PyFloat.le_iff_not_lt.mpr ⟨h, hy, hx⟩

/-- A number that was compared with a maximum is within its limits if it is not negative and the maximum is a number. -/
theorem within_iff {lower : PyFloat} (hupper : upper.lt x = false) :
    (lower.le x = true ∧ x.le upper = true) ↔ lower.le x = true ∧ upper ≠ .nan :=
  and_congr_right fun h => ⟨fun hle => (ne_nan_of_le hle).2, fun hne => le_of_not_lt hupper hne (ne_nan_of_le h).2⟩

/-- So it is after `min`, with a bound that is not negative. -/
theorem within_min_iff (hbound : (PyFloat.finite 0).le bound = true) (hupper : upper.lt x = false) :
    ((PyFloat.finite 0).le (if bound.lt x then bound else x) = true ∧
      (if bound.lt x then bound else x).le upper = true) ↔ (PyFloat.finite 0).le x = true ∧ upper ≠ .nan := by
  split_ifs with hlt
  · have hle := PyFloat.le_of_lt hlt
    refine ⟨fun h => ⟨PyFloat.le_trans hbound hle, (ne_nan_of_le h.2).2⟩, fun h => ⟨hbound, ?_⟩⟩
    exact PyFloat.le_trans hle (le_of_not_lt hupper h.2 (ne_nan_of_le hle).2)
  · exact within_iff hupper

/-- After `max` it is if the bound is within the maximum, but `nan` stays. -/
theorem within_max_iff (hbound : (PyFloat.finite 0).le bound = true) (hupper : upper.lt x = false) :
    ((PyFloat.finite 0).le (if x.lt bound then bound else x) = true ∧
      (if x.lt bound then bound else x).le upper = true) ↔ x ≠ .nan ∧ bound.le upper = true := by
  split_ifs with hlt
  · have hne := (ne_nan_of_le (PyFloat.le_of_lt hlt)).1
    exact ⟨fun h => ⟨hne, h.2⟩, fun h => ⟨hbound, h.2⟩⟩
  · have hb := (ne_nan_of_le hbound).2
    constructor
    · rintro ⟨hx, hle⟩
      have hne := (ne_nan_of_le hx).2
      exact ⟨hne, PyFloat.le_trans (le_of_not_lt (Bool.eq_false_iff.mpr hlt) hne hb) hle⟩
    · rintro ⟨hne, hle⟩
      exact ⟨PyFloat.le_trans hbound (le_of_not_lt (Bool.eq_false_iff.mpr hlt) hne hb),
        le_of_not_lt hupper (ne_nan_of_le hle).2 hne⟩

end Numbers

/-! ## What is validated -/

section Validated

variable {settings : Settings} {client : Client} {payload : Sampling} {p : Parameters} {plan : EffectivePlan}

theorem ofPython_eq_ok_iff {α : Type} {x : Except PyError α} {a : α} : ofPython x = .ok a ↔ x = .ok a := by
  cases x with
  | ok b => exact ⟨fun h => congrArg Except.ok (Except.ok.inj h), fun h => congrArg Except.ok (Except.ok.inj h)⟩
  | error e => exact iff_of_false nofun nofun

theorem refuseIf_eq_ok_iff {refused : Bool} {statusCode : ℕ} {detail : String} {u : Unit} :
    refuseIf refused statusCode detail = .ok u ↔ refused = false := by
  cases refused with
  | true => exact iff_of_false nofun nofun
  | false => exact iff_of_true rfl rfl

/-- What an accepted request asks for are numbers under their upper limits. -/
theorem validateParams_ok (h : validateParams settings client payload = .ok (p, plan)) :
    plan = resolveEffectivePlan client ∧
      requestedMaxTokens payload.maxTokens client.metadataJson.clientDefaults settings.defaultMaxTokens =
        .ok p.maxTokens ∧
      givenOrDefault payload.temperature client.metadataJson.clientDefaults "temperature" settings.defaultTemperature =
        .ok p.temperature ∧
      givenOrDefault payload.topP client.metadataJson.clientDefaults "top_p" settings.defaultTopP = .ok p.topP ∧
      (∃ m, p.maxTokens.float? = some m ∧
        (PyFloat.finite (min plan.maxOutputTokens settings.maxCompletionTokens : ℤ)).lt m = false) ∧
      (∃ t, p.temperature.float? = some t ∧ settings.maxTemperature.lt t = false) ∧
      ∃ r, p.topP.float? = some r ∧ settings.maxTopP.lt r = false := by
  unfold validateParams at h
  simp only [bind_eq_ok_iff, ofPython_eq_ok_iff, refuseIf_eq_ok_iff] at h
  obtain ⟨maxTokens, hmax, _, hm, -, rfl, temperature, htemperature, topP, htopP, -, -, _, ht, -, rfl, _, hq, -, rfl,
    hp⟩ := h
  cases hp
  exact ⟨rfl, hmax, htemperature, htopP, exceeds_false_iff.mp hm, exceeds_false_iff.mp ht, exceeds_false_iff.mp hq⟩

theorem number_requested {given : Option ℤ} {metadata : MetadataJson} {fallback : ℤ} {v : Json} {x : PyFloat}
    (h : requestedMaxTokens given metadata.clientDefaults fallback = .ok v) (hv : v.float? = some x) :
    x = given.elim (defaultTokens metadata fallback) fun n => .finite n := by
  cases given with
  | some n =>
    obtain rfl := Except.ok.inj h
    exact (Option.some.inj hv).symm
  | none =>
    have hdefault : ∀ value : Json, (if value.truthy = true then value else .int fallback).float? = some x →
        x = (value.float?.filter PyFloat.truthy).getD (.finite fallback) := by
      intro value hx
      cases hn : value.float? with
      | none =>
        split_ifs at hx
        · cases hn.symm.trans hx
        · exact (Option.some.inj hx).symm
      | some y =>
        rw [truthy_iff hn] at hx
        rw [Option.filter_some]
        split_ifs at hx ⊢
        · exact Option.some.inj (hx.symm.trans hn)
        · exact (Option.some.inj hx).symm
    unfold requestedMaxTokens at h
    unfold defaultTokens MetadataJson.default
    rw [Option.elim_none]
    cases hD : metadata.clientDefaults with
    | obj fields =>
      rw [hD] at h
      obtain rfl := Except.ok.inj h
      exact hdefault _ hv
    | _ =>
      rw [hD] at h
      cases h

theorem number_given {given : Option PyFloat} {metadata : MetadataJson} {key : String} {fallback : PyFloat} {v : Json}
    {x : PyFloat} (h : givenOrDefault given metadata.clientDefaults key fallback = .ok v) (hv : v.float? = some x) :
    x = given.getD (defaultNumber metadata key fallback) := by
  cases given with
  | some y =>
    obtain rfl := Except.ok.inj h
    exact (Option.some.inj hv).symm
  | none =>
    unfold givenOrDefault at h
    unfold defaultNumber MetadataJson.default
    rw [Option.getD_none]
    cases hD : metadata.clientDefaults with
    | obj fields =>
      rw [hD] at h
      dsimp only [Json.get, Except.map] at h ⊢
      generalize (fields.lookup key).getD .null = value at h ⊢
      obtain rfl := Except.ok.inj h
      cases value with
      | null => exact (Option.some.inj hv).symm
      | bool | int | float => exact (Option.some.inj hv).symm
      | str | arr | obj => cases hv
    | _ =>
      rw [hD] at h
      cases h

end Validated

/-! ## What is forwarded -/

section Forwarded

variable {body : List (String × Json)} {key : String} {v : Json} {x upper : PyFloat} {lower : ℚ}

theorem numberWithin_iff (hl : body.lookup key = some v) (hv : v.float? = some x) :
    NumberWithin body key lower upper ↔ (PyFloat.finite lower).le x = true ∧ x.le upper = true := by
  constructor
  · rintro ⟨v', x', hl', hv', hx⟩
    obtain rfl := Option.some.inj (hl.symm.trans hl')
    obtain rfl := Option.some.inj (hv.symm.trans hv')
    exact hx
  · exact fun hx => ⟨v, x, hl, hv, hx⟩

theorem withinLimits_iff {settings : Settings} {plan : EffectivePlan} : WithinLimits settings plan body ↔
    NumberWithin body "max_tokens" 1 (.finite (min plan.maxOutputTokens settings.maxCompletionTokens : ℤ)) ∧
      NumberWithin body "temperature" 0 settings.maxTemperature ∧ NumberWithin body "top_p" 0 settings.maxTopP :=
  ⟨fun h => ⟨h.maxTokens, h.temperature, h.topP⟩, fun h => ⟨h.1, h.2.1, h.2.2⟩⟩

/-- What the payload gives is checked by its schema. -/
theorem forall_getD_iff {P : PyFloat → Prop} {given : Option PyFloat} {default : PyFloat} (hgiven : ∀ x ∈ given, P x) :
    P (given.getD default) ↔ (given = none → P default) := by
  cases given with
  | none => simp
  | some x => simpa using hgiven x rfl

theorem one_le_elim_iff {given : Option ℤ} {default : PyFloat} (hgiven : ∀ n ∈ given, 1 ≤ n) :
    (PyFloat.finite 1).le (given.elim default fun n => .finite n) = true ↔
      (given = none → (PyFloat.finite 1).le default = true) := by
  cases given with
  | none => simp
  | some n =>
    have hcast : (1 : ℚ) ≤ n := by exact_mod_cast hgiven n rfl
    simpa using hcast

/-- The numbers that a safety profile leaves, of two that are not over the maxima. -/
theorem withinClamped_iff {profile : SafetyProfile} {p : Parameters} {t r maxTemperature maxTopP : PyFloat}
    (htemperature : body.lookup "temperature" = some (profile.clamp p).temperature)
    (htopP : body.lookup "top_p" = some (profile.clamp p).topP) (ht : p.temperature.float? = some t)
    (hr : p.topP.float? = some r) (htle : maxTemperature.lt t = false) (hrle : maxTopP.lt r = false) :
    NumberWithin body "temperature" 0 maxTemperature ∧ NumberWithin body "top_p" 0 maxTopP ↔
      if profile = .relaxed then
        (t ≠ .nan ∧ (PyFloat.finite 1).le maxTemperature = true) ∧
          r ≠ .nan ∧ (PyFloat.finite (9 / 10)).le maxTopP = true
      else
        ((PyFloat.finite 0).le t = true ∧ maxTemperature ≠ .nan) ∧ (PyFloat.finite 0).le r = true ∧ maxTopP ≠ .nan := by
  have hdefault : SafetyProfile.default ≠ .relaxed := nofun
  have hstrict : SafetyProfile.strict ≠ .relaxed := nofun
  cases profile with
  | default =>
    rw [numberWithin_iff htemperature ht, numberWithin_iff htopP hr, if_neg hdefault, within_iff htle, within_iff hrle]
  | strict =>
    rw [numberWithin_iff htemperature (float_atMost ht), numberWithin_iff htopP (float_atMost hr), if_neg hstrict,
      within_min_iff (by norm_num) htle, within_min_iff (by norm_num) hrle]
  | relaxed =>
    rw [numberWithin_iff htemperature (float_atLeast ht), numberWithin_iff htopP (float_atLeast hr), if_pos rfl,
      within_max_iff (by norm_num) htle, within_max_iff (by norm_num) hrle]

/-- **When the forwarded parameters keep within the configured limits**: exactly if what the payload leaves out has a
default that is large enough, and for the relaxed profile the maxima are large enough and no default is `nan`. -/
theorem forwarded_limits_iff (ctx : Context) (now : Now) (sourceIp : String) (s : Counters)
    (payload : ChatCompletionRequest) {q : Question}
    (h : ((chatCompletions ctx now sourceIp payload).exec s).1 = .ok q) :
    WithinLimits ctx.settings (resolveEffectivePlan ctx.client) q.body ↔
      KeepsLimits ctx.settings ctx.client.metadataJson payload := by
  obtain ⟨model, messages, p, plan, -, -, hparams, rfl⟩ := chatCompletions_ok h
  obtain ⟨rfl, hmax, htemperature, htopP, ⟨m, hm, hmle⟩, ⟨t, ht, htle⟩, r, hr, hrle⟩ := validateParams_ok hparams
  have hmeq := number_requested hmax hm
  have hteq := number_given htemperature ht
  have hreq := number_given htopP hr
  rw [chatQuestion_body, withinLimits_iff]
  generalize withSystemPrompt ctx.client.systemPrompt messages = messages
  have hlookup : ∀ p : Parameters, (plainBody payload model.modelId messages p).lookup "max_tokens" = some p.maxTokens ∧
      (plainBody payload model.modelId messages p).lookup "temperature" = some p.temperature ∧
        (plainBody payload model.modelId messages p).lookup "top_p" = some p.topP := by
    intro p
    simp [plainBody, List.lookup_cons]
  obtain ⟨hl, hl', hl''⟩ := hlookup (payload.safetyProfile.clamp p)
  have hclampMax : (payload.safetyProfile.clamp p).maxTokens = p.maxTokens := by cases payload.safetyProfile <;> rfl
  have hone : (PyFloat.finite 1).le m = true ↔ (payload.maxTokens = none →
      (PyFloat.finite 1).le (defaultTokens ctx.client.metadataJson ctx.settings.defaultMaxTokens) = true) := by
    rw [hmeq]
    exact one_le_elim_iff fun n hn => (payload.maxTokens_range n hn).1
  have hgiven : ∀ x ∈ payload.temperature, (PyFloat.finite 0).le x = true := fun x hx =>
    (payload.temperature_range x hx).1
  have hgiven' : ∀ x ∈ payload.topP, (PyFloat.finite 0).le x = true := fun x hx => (payload.topP_range x hx).1
  have hlimit : PyFloat.finite
      (min (resolveEffectivePlan ctx.client).maxOutputTokens ctx.settings.maxCompletionTokens : ℤ) ≠ .nan := by
    rintro ⟨⟩
  rw [numberWithin_iff hl (hclampMax ▸ hm), KeepsLimits, ← hone, within_iff hmle, and_iff_left hlimit]
  refine and_congr_right fun _ => (withinClamped_iff hl' hl'' ht hr htle hrle).trans ?_
  rw [hteq, hreq, forall_getD_iff hgiven, forall_getD_iff hgiven',
    forall_getD_iff (P := (· ≠ .nan)) fun x hx => (ne_nan_of_le (hgiven x hx)).2,
    forall_getD_iff (P := (· ≠ .nan)) fun x hx => (ne_nan_of_le (hgiven' x hx)).2]

end Forwarded

/-! ## A negative default -/

theorem forwarded_limits_iff_hello :
    ∃ q, ((chatCompletions demoContext demoNow "10.0.0.1" helloChat).exec noCounters).1 = .ok q ∧
      (WithinLimits demoContext.settings (resolveEffectivePlan demoContext.client) q.body ↔
        KeepsLimits demoContext.settings demoContext.client.metadataJson helloChat) := by
  obtain ⟨q, hq⟩ := of_outcome_ok chat_admits_hello
  exact ⟨q, hq, forwarded_limits_iff demoContext demoNow "10.0.0.1" noCounters helloChat hq⟩

/-- The client with a default of -100 tokens. -/
def negativeContext : Context :=
  { demoContext with client := { demoClient with metadataJson := .value (.obj [("max_tokens", .int (-100))]) } }

/-- A greeting that leaves `max_tokens` to the default. -/
def shortChat : ChatCompletionRequest :=
  { helloChat with maxTokens := none, maxTokens_range := nofun }

theorem validate_negative : validateParams negativeContext.settings negativeContext.client shortChat.toSampling =
    .ok (⟨.int (-100), .float (.finite (7 / 10)), .float (.finite (95 / 100))⟩, resolveEffectivePlan demoClient) := by
  have htemperature : ("temperature" == "max_tokens") = false := by decide
  have htopP : ("top_p" == "max_tokens") = false := by decide
  norm_num [validateParams, negativeContext, demoContext, demoClient, defaultSettings, shortChat, helloChat,
    demoSampling, requestedMaxTokens, givenOrDefault, ofPython, refuseIf, Json.exceeds, Json.float?, Json.get, Json.truthy,
    MetadataJson.clientDefaults, resolveEffectivePlan, Except.map, Except.mapError, bind, Except.bind, pure,
    Except.pure, List.lookup_cons, htemperature, htopP]

theorem negative_admits :
    outcome (chatCompletions negativeContext demoNow "10.0.0.1" shortChat) noCounters = .ok () := by
  have hm : normalizeMessages shortChat.messages = .ok [⟨.user, "hello"⟩] := rfl
  have hc : checkContext negativeContext (estimatePromptTokens [⟨.user, "hello"⟩]) = .ok () := by rfl
  have hr : resolve negativeContext shortChat.model = .ok onlyModel := resolve_demo
  have hs : withSystemPrompt negativeContext.client.systemPrompt [⟨.user, "hello"⟩] =
      [⟨.system, "Be brief."⟩, ⟨.user, "hello"⟩] := rfl
  have hc' : checkContext negativeContext (estimatePromptTokens [⟨.system, "Be brief."⟩, ⟨.user, "hello"⟩]) = .ok () := by
    rfl
  have hq : ((Json.int (-100)).float?.getD (.finite 0)).plusInt
      (estimatePromptTokens [⟨.system, "Be brief."⟩, ⟨.user, "hello"⟩]) = .finite (-89 : ℤ) := by
    have he : estimatePromptTokens [⟨.system, "Be brief."⟩, ⟨.user, "hello"⟩] = 11 := by decide
    norm_num [he, Json.float?, PyFloat.plusInt]
  simp only [outcome, chatCompletions, exec_ofExcept_bind, hr, hm, hc, validate_negative, hs, hc', enforceClientLimits,
    ensureQuota, hq, PyFloat.value?, Option.getD_some, Int.ceil_intCast]
  rfl

/-- **A negative number of tokens is forwarded**: nothing compares a default with its lower bound. -/
theorem negative_forwarded : ¬ ∀ (ctx : Context) (now : Now) (sourceIp : String) (s : Counters)
    (payload : ChatCompletionRequest) (q : Question),
    ((chatCompletions ctx now sourceIp payload).exec s).1 = .ok q →
      WithinLimits ctx.settings (resolveEffectivePlan ctx.client) q.body := by
  intro h
  obtain ⟨q, hq⟩ := of_outcome_ok negative_admits
  have hwithin := h negativeContext demoNow "10.0.0.1" noCounters shortChat q hq
  obtain ⟨model, messages, p, plan, -, -, hparams, rfl⟩ := chatCompletions_ok hq
  obtain ⟨rfl, -⟩ := Prod.mk.inj (Except.ok.inj (hparams.symm.trans validate_negative))
  obtain ⟨v, x, hl, hv, hone, -⟩ := hwithin.maxTokens
  rw [chatQuestion_body] at hl
  have hvalue : v = .int (-100) := by
    have hclamp : shortChat.safetyProfile = .default := rfl
    simpa [plainBody, List.lookup_cons, hclamp, SafetyProfile.clamp, eq_comm] using hl
  rw [hvalue] at hv
  obtain rfl := Option.some.inj hv
  norm_num at hone

end LlmStore.Inference.Admission
