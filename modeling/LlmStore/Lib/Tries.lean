import Mathlib.Order.Basic
import Mathlib.Data.Nat.Basic

/-!
# Trying until it works

Something is tried again and again, at most `limit` times; `stops i` says that the try number `i` is not followed by
another one. `tries` counts the tries that are made.
-/

namespace LlmStore.Lib

/-- The number of tries made. -/
def tries : ℕ → (ℕ → Bool) → ℕ
  | 0, _ => 0
  | limit + 1, stops => if stops 0 then 1 else tries limit (fun i => stops (i + 1)) + 1

variable {limit k j : ℕ} {stops : ℕ → Bool}

theorem tries_succ_of_stops (h : stops 0 = true) : tries (limit + 1) stops = 1 := by
  rw [tries, if_pos h]

theorem tries_succ_of_not (h : stops 0 = false) :
    tries (limit + 1) stops = tries limit (fun i => stops (i + 1)) + 1 := by
  rw [tries, if_neg (by simp [h])]

theorem tries_pos (h : 0 < limit) : 0 < tries limit stops := by
  obtain ⟨limit, rfl⟩ := Nat.exists_eq_succ_of_ne_zero h.ne'
  cases h0 : stops 0 with
  | true =>
    rw [tries_succ_of_stops h0]
    exact Nat.one_pos
  | false =>
    rw [tries_succ_of_not h0]
    exact Nat.succ_pos _

theorem tries_le (limit : ℕ) (stops : ℕ → Bool) : tries limit stops ≤ limit := by
  induction limit generalizing stops with
  | zero => exact le_rfl
  | succ limit ih =>
    cases h0 : stops 0 with
    | true =>
      rw [tries_succ_of_stops h0]
      omega
    | false =>
      rw [tries_succ_of_not h0]
      exact Nat.succ_le_succ (ih _)

/-- Where a try is the first that stops, it is the last one, unless the limit comes first. -/
theorem tries_eq_min (hj : stops j = true) (hbefore : ∀ i < j, stops i = false) :
    tries limit stops = min (j + 1) limit := by
  induction limit generalizing stops j with
  | zero => simp [tries]
  | succ limit ih =>
    cases j with
    | zero =>
      rw [tries_succ_of_stops hj]
      omega
    | succ j =>
      have hnext := @ih j (fun i => stops (i + 1)) hj fun i hi => hbefore (i + 1) (Nat.succ_lt_succ hi)
      rw [tries_succ_of_not (hbefore 0 (Nat.succ_pos _)), hnext]
      omega

/-- Where no try stops, the limit does. -/
theorem tries_eq_limit (h : ∀ i, stops i = false) : tries limit stops = limit := by
  induction limit generalizing stops with
  | zero => rfl
  | succ limit ih => rw [tries_succ_of_not (h 0), ih fun i => h (i + 1)]

end LlmStore.Lib
