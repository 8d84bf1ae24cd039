import Mathlib.Algebra.Order.Ring.Rat
import Mathlib.Data.List.Forall2
import Mathlib.Data.List.Infix
import Mathlib.Order.WithBot

/-!
# JSON values as Python reads them

What `json.loads` returns and the operations that the code applies to it without looking at its type first, with the
exception each of them raises on a value of another type.
-/

namespace LlmStore

/-- The exceptions that operations on an unexpected value raise. -/
inductive PyError
  | attributeError
  | typeError
  | indexError
  | keyError
  | jsonDecodeError
  /-- A `ValueError` that is no `JSONDecodeError`: `json.loads` finds an integer of more than 4300 digits. -/
  | valueError
  | recursionError
  deriving DecidableEq, Repr

theorem bind_eq_ok_iff {ε α β : Type} {x : Except ε α} {f : α → Except ε β} {b : β} :
    x >>= f = .ok b ↔ ∃ a, x = .ok a ∧ f a = .ok b := by
  cases x with
  | ok a => simp [bind, Except.bind]
  | error e => simp [bind, Except.bind]

/-- All calls succeed, and these are their results in order. -/
theorem mapM_eq_ok_iff {α β ε : Type} {f : α → Except ε β} {as : List α} {bs : List β} :
    as.mapM f = .ok bs ↔ List.Forall₂ (fun a b => f a = .ok b) as bs := by
  induction as generalizing bs with
  | nil => cases bs <;> simp [pure, Except.pure]
  | cons a as ih =>
    rw [List.mapM_cons, bind_eq_ok_iff, List.forall₂_cons_left_iff]
    constructor
    · rintro ⟨b, hb, h⟩
      obtain ⟨bs', hbs', h⟩ := bind_eq_ok_iff.mp h
      exact ⟨b, bs', hb, ih.mp hbs', (Except.ok.inj h).symm⟩
    · rintro ⟨b, bs', hb, hbs', rfl⟩
      exact ⟨b, hb, bind_eq_ok_iff.mpr ⟨bs', ih.mpr hbs', rfl⟩⟩

/-! ## Floats -/

/-- A Python `float`. A finite one is known by its value, apart from the zero with a sign. -/
inductive PyFloat
  | finite (value : ℚ)
  | negZero
  | posInf
  | negInf
  | nan
  deriving DecidableEq, Repr

namespace PyFloat

/-- `bool(x)`. -/
def truthy : PyFloat → Bool
  | finite q => q ≠ 0
  | negZero => false
  | _ => true

/-- The value of a finite float. -/
def value? : PyFloat → Option ℚ
  | finite q => some q
  | negZero => some 0
  | _ => none

/-- Its place in the order of the floats; `nan` has none. -/
def rank : PyFloat → Option (WithBot (WithTop ℚ))
  | finite q => some (q : WithTop ℚ)
  | negZero => some ((0 : ℚ) : WithTop ℚ)
  | posInf => some (⊤ : WithTop ℚ)
  | negInf => some ⊥
  | nan => none

/-- `x < y`. -/
def lt (x y : PyFloat) : Bool :=
  match x.rank, y.rank with
  | some a, some b => a < b
  | _, _ => false

/-- `x <= y`. -/
def le (x y : PyFloat) : Bool :=
  match x.rank, y.rank with
  | some a, some b => a ≤ b
  | _, _ => false

/-- `n + x`. -/
def plusInt (n : ℤ) : PyFloat → PyFloat
  | finite q => finite (n + q)
  | negZero => finite n
  | x => x

section Order

variable {x y z : PyFloat}

theorem lt_iff : x.lt y = true ↔ ∃ a b, x.rank = some a ∧ y.rank = some b ∧ a < b := by
  unfold lt
  cases x.rank with
  | none => exact iff_of_false Bool.false_ne_true nofun
  | some a =>
    cases y.rank with
    | none => exact iff_of_false Bool.false_ne_true nofun
    | some b => simp

theorem le_iff : x.le y = true ↔ ∃ a b, x.rank = some a ∧ y.rank = some b ∧ a ≤ b := by
  unfold le
  cases x.rank with
  | none => exact iff_of_false Bool.false_ne_true nofun
  | some a =>
    cases y.rank with
    | none => exact iff_of_false Bool.false_ne_true nofun
    | some b => simp

theorem ne_nan_iff : x ≠ nan ↔ x.rank ≠ none := by cases x <;> simp [rank]

theorem le_trans (h : x.le y = true) (h' : y.le z = true) : x.le z = true := by
  obtain ⟨a, b, hx, hy, hab⟩ := le_iff.mp h
  obtain ⟨b', c, hy', hz, hbc⟩ := le_iff.mp h'
  obtain rfl := Option.some.inj (hy.symm.trans hy')
  exact le_iff.mpr ⟨a, c, hx, hz, hab.trans hbc⟩

theorem le_of_lt (h : x.lt y = true) : x.le y = true := by
  obtain ⟨a, b, hx, hy, hab⟩ := lt_iff.mp h
  exact le_iff.mpr ⟨a, b, hx, hy, hab.le⟩

/-- A number is at most another one just if it is not above it, unless one of them is `nan`. -/
theorem le_iff_not_lt : x.le y = true ↔ y.lt x = false ∧ x ≠ nan ∧ y ≠ nan := by
  rw [← Bool.not_eq_true, lt_iff, le_iff, ne_nan_iff, ne_nan_iff]
  cases x.rank with
  | none => exact iff_of_false nofun fun h => h.2.1 rfl
  | some a =>
    cases y.rank with
    | none => exact iff_of_false nofun fun h => h.2.2 rfl
    | some b => simp

@[simp] theorem finite_le_finite {p q : ℚ} : (finite p).le (finite q) = decide (p ≤ q) := by simp [le, rank]

@[simp] theorem finite_lt_finite {p q : ℚ} : (finite p).lt (finite q) = decide (p < q) := by simp [lt, rank]

end Order

end PyFloat

/-! ## Values -/

/-- A JSON value as Python reads it; an object has one entry for each key. -/
inductive Json
  | null
  | bool (b : Bool)
  | int (n : ℤ)
  | float (x : PyFloat)
  | str (s : List Char)
  | arr (items : List Json)
  | obj (fields : List (String × Json))
  deriving Repr, Inhabited

namespace Json

/-- `bool(value)`. -/
def truthy : Json → Bool
  | null => false
  | bool b => b
  | int n => n ≠ 0
  | float x => x.truthy
  | str s => !s.isEmpty
  | arr items => !items.isEmpty
  | obj fields => !fields.isEmpty

/-- `value.get(key, default)`. -/
def get (value : Json) (key : String) (default : Json) : Except PyError Json :=
  match value with
  | obj fields => .ok ((fields.lookup key).getD default)
  | _ => .error .attributeError

/-- `key in value`. -/
def has (key : String) : Json → Except PyError Bool
  | obj fields => .ok (fields.lookup key).isSome
  | arr items => .ok (items.any fun item => match item with | str s => s = key.toList | _ => false)
  | str s => .ok (s.tails.any fun t => key.toList.isPrefixOf t)
  | _ => .error .typeError

/-- `value[0]`. -/
def head : Json → Except PyError Json
  | arr (item :: _) => .ok item
  | arr [] => .error .indexError
  | str (c :: _) => .ok (str [c])
  | str [] => .error .indexError
  | obj _ => .error .keyError
  | _ => .error .typeError

/-- `for item in value`. -/
def iterate : Json → Except PyError (List Json)
  | arr items => .ok items
  | str s => .ok (s.map fun c => str [c])
  | obj fields => .ok (fields.map fun field => str field.1.toList)
  | _ => .error .typeError

/-- The number that arithmetic and comparisons take the value for; a boolean is one. -/
def float? : Json → Option PyFloat
  | bool b => some (.finite (if b then 1 else 0))
  | int n => some (.finite n)
  | float x => some x
  | _ => none

/-- `value > bound`. -/
def exceeds (value : Json) (bound : PyFloat) : Except PyError Bool :=
  match value.float? with
  | some x => .ok (bound.lt x)
  | none => .error .typeError

end Json

/-! ## Objects as `dict`s -/

namespace Json

/-- `fields[key] = value`: in its place for a key that is there, at the end for a new one. -/
def setItem (key : String) (value : Json) : List (String × Json) → List (String × Json)
  | [] => [(key, value)]
  | (k, v) :: fields => if k = key then (k, value) :: fields else (k, v) :: setItem key value fields

theorem lookup_setItem (key : String) (value : Json) (fields : List (String × Json)) (k : String) :
    (setItem key value fields).lookup k = if k = key then some value else fields.lookup k := by
  have hself : ∀ k : String, (k == k) = true := fun k => beq_self_eq_true k
  have hother : ∀ {k k' : String}, k ≠ k' → (k == k') = false := fun h => beq_eq_false_iff_ne.mpr h
  induction fields with
  | nil =>
    rcases eq_or_ne k key with rfl | hk
    · simp only [setItem, List.lookup_cons, hself, if_true]
    · simp only [setItem, List.lookup_cons, List.lookup_nil, hother hk, hk, if_false]
  | cons field fields ih =>
    obtain ⟨k', v⟩ := field
    rcases eq_or_ne k' key with rfl | hk'
    · rcases eq_or_ne k k' with rfl | hk
      · simp only [setItem, List.lookup_cons, hself, if_true]
      · simp only [setItem, List.lookup_cons, hother hk, hk, if_false, if_true]
    · rcases eq_or_ne k k' with rfl | hk
      · simp only [setItem, List.lookup_cons, hself, hk', if_false]
      · simp only [setItem, List.lookup_cons, hother hk, hk', if_false, ih]

/-- The fields without those of some keys. -/
def exclude (keys : List String) (fields : List (String × Json)) : List (String × Json) :=
  fields.filter fun field => field.1 ∉ keys

/-- The two `dict`s are equal: the order of the keys does not count. -/
def SameDict (fields fields' : List (String × Json)) : Prop := ∀ key, fields.lookup key = fields'.lookup key

end Json

/-! ## One key of an object -/

/-- An object without the value at one key. -/
structure Hole (key : String) where
  before : List (String × Json)
  after : List (String × Json)
  fresh : ∀ field ∈ before ++ after, field.1 ≠ key

namespace Hole

variable {key : String} (h : Hole key)

/-- The object with the value at the key. -/
def fill (value : Json) : Json := .obj (h.before ++ (key, value) :: h.after)

/-- The object without the key. -/
def bare : Json := .obj (h.before ++ h.after)

theorem lookup_eq_none {fields : List (String × Json)} {key : String} (h : ∀ field ∈ fields, field.1 ≠ key) :
    fields.lookup key = none := by
  induction fields with
  | nil => rfl
  | cons field fields ih =>
    have hne : (key == field.1) = false := by
      rw [beq_eq_false_iff_ne]
      exact (h field (by simp)).symm
    obtain ⟨k, v⟩ := field
    simp only [List.lookup_cons, hne]
    exact ih fun field hf => h field (by simp [hf])

theorem lookup_append (fields fields' : List (String × Json)) (k : String) :
    (fields ++ fields').lookup k = (fields.lookup k).or (fields'.lookup k) := by
  induction fields with
  | nil => rfl
  | cons field fields ih =>
    obtain ⟨k', v⟩ := field
    rcases hk : k == k' with _ | _ <;> simp [List.lookup_cons, hk, ih]

theorem lookup_fill (value : Json) : (h.before ++ (key, value) :: h.after).lookup key = some value := by
  rw [lookup_append, lookup_eq_none fun field hf => h.fresh field (by simp [hf])]
  simp

theorem lookup_fill_of_ne {k : String} (hk : k ≠ key) (value : Json) :
    (h.before ++ (key, value) :: h.after).lookup k = (h.before ++ h.after).lookup k := by
  have hne : (k == key) = false := by rw [beq_eq_false_iff_ne]; exact hk
  rw [lookup_append, lookup_append, List.lookup_cons, hne]

@[simp] theorem get_fill (value default : Json) : (h.fill value).get key default = .ok value := by
  simp [fill, Json.get, lookup_fill]

theorem get_fill_of_ne {k : String} (hk : k ≠ key) (value default : Json) :
    (h.fill value).get k default = .ok (((h.before ++ h.after).lookup k).getD default) := by
  rw [fill, Json.get, h.lookup_fill_of_ne hk]

@[simp] theorem has_fill (value : Json) : (h.fill value).has key = .ok true := by
  simp [fill, Json.has, lookup_fill]

theorem has_fill_of_ne {k : String} (hk : k ≠ key) (value : Json) :
    (h.fill value).has k = .ok ((h.before ++ h.after).lookup k).isSome := by
  rw [fill, Json.has, h.lookup_fill_of_ne hk]

@[simp] theorem get_bare (default : Json) : h.bare.get key default = .ok default := by
  simp [bare, Json.get, lookup_eq_none h.fresh]

@[simp] theorem has_bare : h.bare.has key = .ok false := by
  simp [bare, Json.has, lookup_eq_none h.fresh]

end Hole

end LlmStore
