import LlmStore.Core.JsonEquality
import LlmStore.Core.JsonValues

/-!
# What `json` gives up on

`int` reads and writes a limited number of digits, and the scanner and the encoder of `json` follow lists and objects into
each other only so deep. A `Decoder` is `json.loads` with what it raises for these reasons. What it has read it reads again
after it was written (`Decoder.loads_dumps`), also with an entry more or less (`within_setItem`, `within_exclude`).
-/

namespace LlmStore

/-! ## Limits -/

namespace Json

/-- The digits that an `int` may have as a text. -/
@[irreducible] def maxStrDigits : ℕ := 4300

/-- The least absolute value of an integer that is not read or written. -/
def intLimit : ℕ := 10 ^ maxStrDigits

theorem intLimit_pos : 0 < intLimit := Nat.pow_pos (by decide)

/-- No integer has too many digits, and lists and objects take no more than so many levels. -/
def within : ℕ → Json → Bool
  | _, .null => true
  | _, .bool _ => true
  | _, .int n => n.natAbs < intLimit
  | _, .float _ => true
  | _, .str _ => true
  | 0, .arr _ => false
  | 0, .obj _ => false
  | d + 1, .arr items => items.all (within d)
  | d + 1, .obj fields => fields.all fun field => within d field.2

section Within

variable {d : ℕ} {fields : List (String × Json)}

@[simp] theorem within_bool (b : Bool) : within d (.bool b) = true := by cases d <;> rfl

@[simp] theorem within_str (s : List Char) : within d (.str s) = true := by cases d <;> rfl

theorem within_obj_iff : within (d + 1) (.obj fields) = true ↔ ∀ field ∈ fields, within d field.2 = true :=
  List.all_eq_true

/-- An object takes a level. -/
theorem exists_succ_of_within (h : within d (.obj fields) = true) : ∃ e, d = e + 1 := by
  cases d with
  | zero => exact absurd h Bool.false_ne_true
  | succ e => exact ⟨e, rfl⟩

/-- A value that takes no level can be set. -/
theorem within_setItem (key : String) {v : Json} (hv : ∀ e, within e v = true) (h : within d (.obj fields) = true) :
    within d (.obj (setItem key v fields)) = true := by
  obtain ⟨e, rfl⟩ := exists_succ_of_within h
  refine within_obj_iff.mpr fun field hfield => ?_
  rcases JsonText.mem_setItem hfield with hvalue | hfield
  · rw [hvalue]
    exact hv e
  · exact within_obj_iff.mp h field hfield

theorem within_exclude (keys : List String) (h : within d (.obj fields) = true) :
    within d (.obj (exclude keys fields)) = true := by
  obtain ⟨e, rfl⟩ := exists_succ_of_within h
  exact within_obj_iff.mpr fun field hfield => within_obj_iff.mp h field (List.mem_of_mem_filter hfield)

end Within

end Json

namespace JsonText

open Json

/-! ## `json.loads` -/

/-- `json.loads` as it gives up: with `ValueError` where it meets an integer of too many digits, with `RecursionError`
where it meets too deep a nesting, be the text JSON or not. -/
structure Decoder where
  /-- The levels that it follows. -/
  depth : ℕ
  /-- What it raises beside `JSONDecodeError`. -/
  raises : List Char → Option PyError
  depth_pos : 0 < depth
  no_decodeError : ∀ text, raises text ≠ some .jsonDecodeError
  /-- It returns no value beyond the limits. -/
  within_of_loads : ∀ {text v}, raises text = none → JsonText.loads text = .ok v → within depth v = true
  /-- It reads what `json.dumps` writes of a value within the limits. -/
  raises_dumps : ∀ {v}, Proper v → within depth v = true → raises (dumps .default v) = none

namespace Decoder

variable (decoder : Decoder)

def loads (text : List Char) : Except PyError Json :=
  match decoder.raises text with
  | some e => .error e
  | none => JsonText.loads text

variable {decoder} {text : List Char} {v : Json}

theorem loads_eq_ok_iff : decoder.loads text = .ok v ↔ decoder.raises text = none ∧ JsonText.loads text = .ok v := by
  unfold loads
  cases decoder.raises text <;> simp

/-- What is within the limits is read again after it was written. -/
theorem loads_dumps (hv : Proper v) (hwithin : within decoder.depth v = true) :
    decoder.loads (dumps .default v) = .ok v :=
  loads_eq_ok_iff.mpr ⟨decoder.raises_dumps hv hwithin, JsonText.loads_dumps readable_default rfl hv⟩

theorem proper_of_loads (h : decoder.loads text = .ok v) : Proper v :=
  JsonText.proper_of_loads (loads_eq_ok_iff.mp h).2

theorem within_loads (h : decoder.loads text = .ok v) : within decoder.depth v = true :=
  decoder.within_of_loads (loads_eq_ok_iff.mp h).1 (loads_eq_ok_iff.mp h).2

end Decoder

/-- A decoder that gives up just on the JSON that is beyond the limits. -/
def plainDecoder : Decoder where
  depth := 1000
  raises text :=
    match JsonText.loads text with
    | .ok v => if within 1000 v then none else some .valueError
    | .error _ => none
  depth_pos := by decide
  no_decodeError := by
    intro text
    split
    · split_ifs <;> exact nofun
    · exact nofun
  within_of_loads := by
    intro text v hraises hloads
    rw [hloads] at hraises
    by_contra hwithin
    simp [hwithin] at hraises
  raises_dumps := by
    intro v hv hwithin
    rw [JsonText.loads_dumps readable_default rfl hv]
    exact if_pos hwithin

end JsonText

end LlmStore
