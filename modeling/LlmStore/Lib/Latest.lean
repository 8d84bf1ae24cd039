import Mathlib.Data.List.Induction
import Mathlib.Logic.Function.Basic

/-!
# The latest value of a key

Actions that give keys of a map values or empty it. `Latest` says of a list of actions which value a key was given last
since the map was last emptied; `view_eq_some_iff` reads it off the state of every system whose actions have these
effects on a view of its states.
-/

namespace LlmStore.Lib

universe u v

/-- What an action does to a map. -/
inductive Effect (κ : Type u) (ν : Type v)
  | put (k : κ) (x : ν)
  | clear
  | keep

variable {κ : Type u} {ν : Type v} {α σ : Type*}

def Effect.apply [DecidableEq κ] : Effect κ ν → (κ → Option ν) → κ → Option ν
  | .put k x, m => Function.update m k (some x)
  | .clear, _ => fun _ => none
  | .keep, m => m

/-- The key was given `x`, and since then no other value and the map was not emptied. -/
def Latest (effect : α → Effect κ ν) (as : List α) (k : κ) (x : ν) : Prop :=
  ∃ before a after, as = before ++ a :: after ∧ effect a = .put k x ∧
    ∀ b ∈ after, effect b ≠ .clear ∧ ∀ y, effect b ≠ .put k y

variable {effect : α → Effect κ ν}

theorem latest_snoc_iff {as : List α} {a : α} {k : κ} {x : ν} :
    Latest effect (as ++ [a]) k x ↔
      effect a = .put k x ∨ (effect a ≠ .clear ∧ ∀ y, effect a ≠ .put k y) ∧ Latest effect as k x := by
  constructor
  · rintro ⟨before, b, after, heq, hput, hafter⟩
    rcases List.eq_nil_or_concat after with rfl | ⟨after, c, rfl⟩
    · obtain ⟨-, rfl⟩ := List.append_singleton_inj.mp heq
      exact .inl hput
    · rw [List.concat_eq_append, ← List.cons_append, ← List.append_assoc] at heq
      obtain ⟨rfl, rfl⟩ := List.append_singleton_inj.mp heq
      exact .inr ⟨hafter a (by simp), before, b, after, rfl, hput, fun d hd => hafter d (by simp [hd])⟩
  · rintro (hput | ⟨ha, before, b, after, rfl, hput, hafter⟩)
    · exact ⟨as, a, [], rfl, hput, by simp⟩
    · refine ⟨before, b, after ++ [a], by simp, hput, fun d hd => ?_⟩
      rcases List.mem_append.mp hd with hd | hd
      · exact hafter d hd
      · obtain rfl := List.mem_singleton.mp hd
        exact ha

variable [DecidableEq κ] {step : σ → α → σ} {view : σ → κ → Option ν}

/-- By induction on the actions, last one first: each changes the view by its effect. -/
theorem view_eq_some_iff (hstep : ∀ s a, view (step s a) = (effect a).apply (view s)) {s : σ}
    (hs : ∀ k, view s k = none) (as : List α) (k : κ) (x : ν) :
    view (as.foldl step s) k = some x ↔ Latest effect as k x := by
  induction as using List.reverseRecOn with
  | nil =>
    rw [List.foldl_nil, hs]
    constructor
    · intro h
      cases h
    · rintro ⟨before, a, after, heq, -⟩
      simp at heq
  | append_singleton as a ih =>
    rw [List.foldl_append, List.foldl_cons, List.foldl_nil, hstep, latest_snoc_iff]
    cases ha : effect a with
    | put k' y =>
      by_cases hk : k = k'
      · subst hk
        simp [Effect.apply]
      · simp [Effect.apply, Function.update_of_ne hk, Ne.symm hk, ih]
    | clear => simp [Effect.apply]
    | keep => simp [Effect.apply, ih]

end LlmStore.Lib
