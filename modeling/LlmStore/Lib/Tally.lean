import Mathlib.Algebra.BigOperators.Fin
import Mathlib.Algebra.Order.BigOperators.Group.Finset

/-!
# Counting over a finite family of processes

Each process of a family is in a phase. `tally w f` adds up a weight of the phases; when one process changes its
phase, the tally changes by the difference of the two weights (`tally_update`).
-/

namespace LlmStore.Lib

variable {κ π : Type*} [Fintype κ]

/-- The sum of the processes' weights. -/
def tally (w : κ → π → ℤ) (f : κ → π) : ℤ := ∑ c, w c (f c)

theorem tally_mono {w w' : κ → π → ℤ} {f : κ → π} (h : ∀ c, w c (f c) ≤ w' c (f c)) : tally w f ≤ tally w' f :=
  Finset.sum_le_sum fun c _ => h c

theorem tally_add (w w' : κ → π → ℤ) (f : κ → π) : tally (fun c p => w c p + w' c p) f = tally w f + tally w' f :=
  Finset.sum_add_distrib

/-- A process with a positive weight counts. -/
theorem le_tally {w : κ → π → ℤ} {f : κ → π} (h : ∀ c, 0 ≤ w c (f c)) (c : κ) : w c (f c) ≤ tally w f :=
  Finset.single_le_sum (f := fun c => w c (f c)) (fun c _ => h c) (Finset.mem_univ c)

variable [DecidableEq κ]

theorem tally_update (w : κ → π → ℤ) (f : κ → π) (c : κ) (p : π) :
    tally w (Function.update f c p) = tally w f - w c (f c) + w c p := by
  have hrest : ∑ d ∈ Finset.univ.erase c, w d (Function.update f c p d) = ∑ d ∈ Finset.univ.erase c, w d (f d) :=
    Finset.sum_congr rfl fun d hd => by rw [Function.update_of_ne (Finset.ne_of_mem_erase hd)]
  have hold := Finset.add_sum_erase Finset.univ (fun d => w d (f d)) (Finset.mem_univ c)
  have hnew := Finset.add_sum_erase Finset.univ (fun d => w d (Function.update f c p d)) (Finset.mem_univ c)
  simp only [Function.update_self] at hnew
  unfold tally
  rw [← hold, ← hnew, hrest]
  omega

end LlmStore.Lib
