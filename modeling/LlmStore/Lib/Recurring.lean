import Mathlib.Data.List.Count
import Mathlib.Data.List.Induction
import Mathlib.Order.Basic

/-!
# What recurs in a list

The items of a list are rare if none is in it a given number of times. A list that loses a property of its prefixes on
the way loses it at one item (`exists_losesAt`, `LosesAt.unique`). What recurs among the longer windows of a list
recurs among the shorter ones (`Rare.windows`).
-/

namespace LlmStore.Lib

variable {α β : Type*}

/-! ## Where a property is lost -/

/-- The item with which the first items of a list lose a property. -/
structure LosesAt (P : List α → Prop) (xs : List α) (i : ℕ) : Prop where
  lt : i < xs.length
  before : P (xs.take i)
  after : ¬ P (xs.take (i + 1))

/-- A property that a prefix has of a list that has it. -/
def PrefixClosed (P : List α → Prop) : Prop := ∀ {a b : List α}, a <+: b → P b → P a

section LosesAt

variable {P : List α → Prop} {xs : List α} {i j : ℕ}

theorem LosesAt.unique (hP : PrefixClosed P) (hi : LosesAt P xs i) (hj : LosesAt P xs j) : i = j := by
  have hle : ∀ {i j : ℕ}, LosesAt P xs i → LosesAt P xs j → j ≤ i := fun {i j} hi hj => by
    by_contra hlt
    exact hi.after (hP (List.take_prefix_take_left (by omega)) hj.before)
  have hij := hle hi hj
  have hji := hle hj hi
  omega

theorem LosesAt.not (hP : PrefixClosed P) (hi : LosesAt P xs i) : ¬ P xs := fun h =>
  hi.after (hP (List.take_prefix _ _) h)

theorem exists_losesAt (hnil : P []) (h : ¬ P xs) : ∃ i, LosesAt P xs i := by
  induction xs using List.reverseRecOn with
  | nil => exact absurd hnil h
  | append_singleton xs x ih =>
    by_cases hxs : P xs
    · refine ⟨xs.length, by simp, by rwa [List.take_left], ?_⟩
      rwa [List.take_of_length_le (by simp)]
    · obtain ⟨i, hi⟩ := ih hxs
      have hlt := hi.lt
      refine ⟨i, by rw [List.length_append]; omega, ?_, ?_⟩
      · rw [List.take_append_of_le_length (by omega)]
        exact hi.before
      · rw [List.take_append_of_le_length (by omega)]
        exact hi.after

end LosesAt

/-! ## Windows -/

/-- The parts of a list with `w` items. -/
def windows (w : ℕ) (xs : List α) : List (List α) := (List.range (xs.length + 1 - w)).map fun i => (xs.drop i).take w

theorem length_windows (w : ℕ) (xs : List α) : (windows w xs).length = xs.length + 1 - w := by
  rw [windows, List.length_map, List.length_range]

/-! ## Rare items -/

variable [DecidableEq α] [DecidableEq β]

/-- No item is in the list `n` times. -/
def Rare (n : ℕ) (xs : List α) : Prop := ∀ x, xs.count x < n

variable {n : ℕ} {a b xs : List α}

/-- The items may be counted with any equality that is lawful. -/
theorem rare_iff [B : BEq α] [LawfulBEq α] : Rare n xs ↔ ∀ x, xs.count x < n := by
  obtain rfl : B = instBEqOfDecidableEq := lawful_beq_subsingleton _ _
  rfl

theorem rare_nil (hn : 0 < n) : Rare n ([] : List α) := fun x => by
  rw [List.count_nil]
  exact hn

theorem Rare.sublist (h : Rare n b) (hab : a.Sublist b) : Rare n a := fun x =>
  Nat.lt_of_le_of_lt (hab.count_le x) (h x)

theorem rare_prefixClosed (n : ℕ) : PrefixClosed (Rare n (α := α)) := fun hab h =>
  h.sublist hab.sublist

/-- One more item is rare if it is not there for the last time that it may be. -/
theorem rare_concat_iff [BEq α] [LawfulBEq α] {x : α} (h : Rare n xs) :
    Rare n (xs ++ [x]) ↔ (xs ++ [x]).count x < n := by
  rw [rare_iff]
  rw [rare_iff] at h
  constructor
  · exact fun hall => hall x
  · intro hx y
    by_cases hy : y = x
    · rw [hy]
      exact hx
    · rw [List.count_append, List.count_singleton, if_neg (by simpa using Ne.symm hy)]
      exact h y

theorem count_map_of_injOn {f : α → β} (hf : ∀ x ∈ xs, ∀ y ∈ xs, f x = f y → x = y) {x : α} (hx : x ∈ xs) :
    (xs.map f).count (f x) = xs.count x := by
  rw [List.count, List.countP_map, List.count]
  refine List.countP_congr fun y hy => ?_
  simp only [Function.comp_apply, beq_iff_eq]
  exact ⟨hf y hy x hx, fun h => h ▸ rfl⟩

/-- Items that are told apart afterwards are as rare as they are. -/
theorem rare_map_iff (hn : 0 < n) {f : α → β} (hf : ∀ x ∈ xs, ∀ y ∈ xs, f x = f y → x = y) :
    Rare n (xs.map f) ↔ Rare n xs := by
  constructor
  · intro h x
    by_cases hx : x ∈ xs
    · rw [← count_map_of_injOn hf hx]
      exact h (f x)
    · rw [List.count_eq_zero_of_not_mem hx]
      exact hn
  · intro h y
    by_cases hy : y ∈ xs.map f
    · obtain ⟨x, hx, rfl⟩ := List.mem_map.mp hy
      rw [count_map_of_injOn hf hx]
      exact h x
    · rw [List.count_eq_zero_of_not_mem hy]
      exact hn

theorem losesAt_map_iff (hn : 0 < n) {f : α → β} (hf : ∀ x ∈ xs, ∀ y ∈ xs, f x = f y → x = y) {i : ℕ} :
    LosesAt (Rare n) (xs.map f) i ↔ LosesAt (Rare n) xs i := by
  have htake : ∀ j, Rare n ((xs.map f).take j) ↔ Rare n (xs.take j) := fun j => by
    rw [← List.map_take]
    exact rare_map_iff hn fun x hx y hy => hf x (List.mem_of_mem_take hx) y (List.mem_of_mem_take hy)
  constructor
  · intro h
    exact ⟨by simpa using h.lt, (htake i).mp h.before, fun hr => h.after ((htake _).mpr hr)⟩
  · intro h
    exact ⟨by simpa using h.lt, (htake i).mpr h.before, fun hr => h.after ((htake _).mp hr)⟩

/-- What some indices are mapped to is there at most as often as what these and others are mapped to. -/
theorem count_map_le {is js : List ℕ} (hsub : is.Sublist js) {f : ℕ → α} {g : ℕ → β} {x : α} {y : β}
    (h : ∀ i ∈ is, f i = x → g i = y) : (is.map f).count x ≤ (js.map g).count y := by
  rw [List.count, List.countP_map, List.count, List.countP_map]
  refine Nat.le_trans (List.countP_mono_left fun i hi hx => ?_) hsub.countP_le
  simp only [Function.comp_apply, beq_iff_eq] at hx ⊢
  exact h i hi hx

/-- What recurs among the longer windows recurs among the shorter ones: a window is there at most as often as its
beginning. -/
theorem Rare.windows {v w : ℕ} (h : Rare n (windows v xs)) (hvw : v ≤ w) : Rare n (windows w xs) := by
  intro g
  refine Nat.lt_of_le_of_lt (count_map_le ?_ fun i _ hi => ?_) (h (g.take v))
  · rw [List.range_sublist]
    omega
  · rw [← hi, List.take_take, Nat.min_eq_left hvw]

end LlmStore.Lib
