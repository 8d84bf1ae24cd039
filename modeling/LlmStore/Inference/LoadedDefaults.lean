import LlmStore.Inference.ForwardedLimits

/-!
# Defaults of any shape

The `metadata_json` of a client is any text, and `json.loads` reads `NaN`, `Infinity` and numbers beyond the floats too.
A default of the wrong shape raises what no handler expects: `declared_iff` says when.
-/

namespace LlmStore.Inference.Admission

/-! ## Shapes -/

/-- `isinstance(value, int)`. -/
def isInt : Json → Bool
  | .bool _ | .int _ => true
  | _ => false

/-- `isinstance(value, (int, float))`. -/
def isNumber (value : Json) : Bool := value.float?.isSome

/-- `isinstance(value, dict)`. -/
def isObject : Json → Bool
  | .obj _ => true
  | _ => false

/-- The value is a number above the bound. -/
def isOver (value : Json) (bound : PyFloat) : Bool := value.float?.any (bound.lt ·)

/-! ## Failing only in the declared way -/

/-- An integer and two numbers, or an `HTTPException`. -/
def Declared : Except Failure (Parameters × EffectivePlan) → Prop
  | .ok (p, _) => isInt p.maxTokens = true ∧ isNumber p.temperature = true ∧ isNumber p.topP = true
  | .error (.http _) => True
  | .error _ => False

section Declared

variable {α : Type}

theorem declared_ofPython {x : Except PyError α} {f : α → Except Failure (Parameters × EffectivePlan)} :
    Declared (ofPython x >>= f) ↔ ∃ a, x = .ok a ∧ Declared (f a) := by
  cases x with
  | error e => exact iff_of_false id nofun
  | ok a =>
    constructor
    · exact fun h => ⟨a, rfl, h⟩
    · rintro ⟨b, hb, h⟩
      obtain rfl := Except.ok.inj hb
      exact h

theorem declared_refuseIf {refused : Bool} {statusCode : ℕ} {detail : String}
    {f : Unit → Except Failure (Parameters × EffectivePlan)} :
    Declared (refuseIf refused statusCode detail >>= f) ↔ refused = true ∨ Declared (f ()) := by
  cases refused with
  | true => exact iff_of_true trivial (.inl rfl)
  | false => exact (or_iff_right Bool.false_ne_true).symm

end Declared

/-! ### The values that are used -/

/-- `requested_max_tokens`. -/
def usedMaxTokens (settings : Settings) (metadata : MetadataJson) (payload : Sampling) : Json :=
  match payload.maxTokens with
  | some n => .int n
  | none =>
    if (metadata.default "max_tokens").truthy then metadata.default "max_tokens" else .int settings.defaultMaxTokens

def usedFloat (given : Option PyFloat) (metadata : MetadataJson) (key : String) (fallback : PyFloat) : Json :=
  match given, metadata.default key with
  | some x, _ => .float x
  | none, .null => .float fallback
  | none, value => value

/-- `temperature`. -/
def usedTemperature (settings : Settings) (metadata : MetadataJson) (payload : Sampling) : Json :=
  usedFloat payload.temperature metadata "temperature" settings.defaultTemperature

/-- `top_p`. -/
def usedTopP (settings : Settings) (metadata : MetadataJson) (payload : Sampling) : Json :=
  usedFloat payload.topP metadata "top_p" settings.defaultTopP

/-- The metadata give an object if the payload leaves `max_tokens` out, the number of tokens is a number, and it is over
the limit or the other values fit. -/
structure Fits (settings : Settings) (plan : EffectivePlan) (metadata : MetadataJson) (payload : Sampling) : Prop where
  object : payload.maxTokens = none → isObject metadata.clientDefaults = true
  maxTokens : isNumber (usedMaxTokens settings metadata payload) = true
  rest : isOver (usedMaxTokens settings metadata payload)
        (.finite (min plan.maxOutputTokens settings.maxCompletionTokens : ℤ)) = true ∨
    ((payload.temperature = none ∨ payload.topP = none → isObject metadata.clientDefaults = true) ∧
      (payload.stream = true ∧ plan.allowStreaming = false ∨
        isNumber (usedTemperature settings metadata payload) = true ∧
          (isOver (usedTemperature settings metadata payload) settings.maxTemperature = true ∨
            isNumber (usedTopP settings metadata payload) = true ∧
              (isOver (usedTopP settings metadata payload) settings.maxTopP = true ∨
                isInt (usedMaxTokens settings metadata payload) = true))))

section Fits

variable {settings : Settings} {metadata : MetadataJson} {v : Json} {payload : Sampling}

theorem requestedMaxTokens_eq_ok_iff :
    requestedMaxTokens payload.maxTokens metadata.clientDefaults settings.defaultMaxTokens = .ok v ↔
      (payload.maxTokens = none → isObject metadata.clientDefaults = true) ∧
        v = usedMaxTokens settings metadata payload := by
  unfold requestedMaxTokens usedMaxTokens MetadataJson.default
  cases payload.maxTokens with
  | some n => exact ⟨fun h => ⟨nofun, (Except.ok.inj h).symm⟩, fun h => congrArg Except.ok h.2.symm⟩
  | none =>
    cases metadata.clientDefaults with
    | obj fields => exact ⟨fun h => ⟨fun _ => rfl, (Except.ok.inj h).symm⟩, fun h => congrArg Except.ok h.2.symm⟩
    | _ => exact iff_of_false nofun fun h => Bool.false_ne_true (h.1 rfl)

theorem givenOrDefault_eq_ok_iff {given : Option PyFloat} {key : String} {fallback : PyFloat} :
    givenOrDefault given metadata.clientDefaults key fallback = .ok v ↔
      (given = none → isObject metadata.clientDefaults = true) ∧ v = usedFloat given metadata key fallback := by
  unfold usedFloat MetadataJson.default
  cases given with
  | some x => exact ⟨fun h => ⟨nofun, (Except.ok.inj h).symm⟩, fun h => congrArg Except.ok h.2.symm⟩
  | none =>
    cases metadata.clientDefaults with
    | obj fields =>
      dsimp only [givenOrDefault, Json.get, Except.map]
      generalize (fields.lookup key).getD .null = value
      cases value
      all_goals exact ⟨fun h => ⟨fun _ => rfl, (Except.ok.inj h).symm⟩, fun h => congrArg Except.ok h.2.symm⟩
    | _ => exact iff_of_false nofun fun h => Bool.false_ne_true (h.1 rfl)

theorem exceeds_eq_ok_iff {bound : PyFloat} {b : Bool} :
    v.exceeds bound = .ok b ↔ isNumber v = true ∧ b = isOver v bound := by
  unfold Json.exceeds isNumber isOver
  cases v.float? with
  | none => exact iff_of_false nofun fun h => Bool.false_ne_true h.1
  | some x => exact ⟨fun h => ⟨rfl, (Except.ok.inj h).symm⟩, fun h => congrArg Except.ok h.2.symm⟩

/-- **When the validation fails only in the declared way.** -/
theorem declared_iff (settings : Settings) (client : Client) (payload : Sampling) :
    Declared (validateParams settings client payload) ↔
      Fits settings (resolveEffectivePlan client) client.metadataJson payload := by
  have hdone : ∀ maxTokens temperature topP plan, Declared (pure (⟨maxTokens, temperature, topP⟩, plan)) ↔
      isInt maxTokens = true ∧ isNumber temperature = true ∧ isNumber topP = true := fun _ _ _ _ => Iff.rfl
  unfold validateParams
  simp only [declared_ofPython, declared_refuseIf, requestedMaxTokens_eq_ok_iff, givenOrDefault_eq_ok_iff,
    exceeds_eq_ok_iff, hdone, Bool.and_eq_true, Bool.not_eq_true']
  constructor
  · rintro ⟨_, ⟨hobject, rfl⟩, _, ⟨hnumber, rfl⟩, hrest⟩
    refine ⟨hobject, hnumber, hrest.imp_right ?_⟩
    rintro ⟨_, ⟨htemperature, rfl⟩, _, ⟨htopP, rfl⟩, hrest⟩
    refine ⟨fun h => h.elim htemperature htopP, hrest.imp_right ?_⟩
    rintro ⟨_, ⟨ht, rfl⟩, hrest⟩
    refine ⟨ht, hrest.imp_right ?_⟩
    rintro ⟨_, ⟨hp, rfl⟩, hrest⟩
    exact ⟨hp, hrest.imp_right fun h => h.1⟩
  · rintro ⟨hobject, hnumber, hrest⟩
    refine ⟨_, ⟨hobject, rfl⟩, _, ⟨hnumber, rfl⟩, hrest.imp_right ?_⟩
    rintro ⟨hfloats, hrest⟩
    refine ⟨_, ⟨fun h => hfloats (.inl h), rfl⟩, _, ⟨fun h => hfloats (.inr h), rfl⟩, hrest.imp_right ?_⟩
    rintro ⟨ht, hrest⟩
    refine ⟨_, ⟨ht, rfl⟩, hrest.imp_right ?_⟩
    rintro ⟨hp, hrest⟩
    exact ⟨_, ⟨hp, rfl⟩, hrest.imp_right fun h => ⟨h, ht, hp⟩⟩

end Fits

/-! ### A list -/

/-- **Metadata that are a list lock the client out**: `client_defaults.get` raises for every payload without
`max_tokens`. -/
theorem list_raises : ¬ ∀ (settings : Settings) (client : Client) (payload : ChatCompletionRequest),
    Declared (validateParams settings client payload.toSampling) := fun h =>
  h defaultSettings { demoClient with metadataJson := .value (.arr []) } shortChat

end LlmStore.Inference.Admission
