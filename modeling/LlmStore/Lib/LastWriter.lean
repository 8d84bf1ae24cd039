import LlmStore.Lib.Commits

/-!
# Last writers

A system whose rows can be edited by some of its actions. Beside the state runs a record of what the edits gave each
row: `gives s a t` is the change that the action `a`, taken in `s` and committing `t`, makes to the record. The edits
are durable if in every state that a run commits the rows are as in the record (`Recorded`), so that no row has changed
by anything but its edits. `recorded_iff` turns an exact condition on single actions into the exact condition on runs.
-/

namespace LlmStore.Lib.LastWriter

universe u v

variable {σ : Type u} {α : Type v} {κ γ : Type*}

/-- What the last edits gave the rows. -/
abbrev Record (κ γ : Type*) := κ → Option γ

section Record

variable (commits : σ → α → List σ) (gives : σ → α → σ → Record κ γ → Record κ γ)

/-- The states that an action commits, with the record after it. -/
def recording (x : σ × Record κ γ) (a : α) : List (σ × Record κ γ) :=
  (commits x.1 a).map fun t => (t, gives x.1 a t x.2)

/-- In every state of the run the rows are as the last edits gave them. -/
def Recorded (view : σ → Record κ γ) (s : σ) (as : List α) : Prop :=
  ∀ x ∈ history (recording commits gives) (s, view s) as, view x.1 = x.2

variable {commits gives}

/-- The record has no influence on the states. -/
theorem after_recording_fst (x : σ × Record κ γ) (a : α) :
    (after (recording commits gives) x a).1 = after commits x.1 a := by
  have hlast : ∀ (l : List σ) (g : σ → Record κ γ) (y : σ × Record κ γ),
      ((l.map fun t => (t, g t)).getLastD y).1 = l.getLastD y.1 := by
    intro l g
    induction l with
    | nil => exact fun _ => rfl
    | cons t l ih =>
      intro y
      rw [List.map_cons, List.getLastD_cons, List.getLastD_cons, ih]
  exact hlast _ _ _

theorem along_recording_iff {P : σ → α → Prop} {as : List α} {x : σ × Record κ γ} :
    Along (commitStep (recording commits gives)) (fun x a => P x.1 a) x as ↔ Along (commitStep commits) P x.1 as := by
  induction as generalizing x with
  | nil => exact Iff.rfl
  | cons a as ih =>
    simp only [Along, commitStep, Option.some.injEq, forall_eq', ih, after_recording_fst]

/-- **Edits are durable in a run exactly if every action changes the rows as the record says.** -/
theorem recorded_iff {view : σ → Record κ γ} {P : σ → α → Prop}
    (hstep : ∀ s a, P s a ↔ ∀ t ∈ commits s a, view t = gives s a t (view s)) {s : σ} {as : List α} :
    Recorded commits gives view s as ↔ Along (commitStep commits) P s as := by
  have hrow : ∀ (x : σ × Record κ γ) (a : α), view x.1 = x.2 →
      (P x.1 a ↔ ∀ y ∈ recording commits gives x a, view y.1 = y.2) := by
    intro x a hx
    rw [hstep]
    simp only [recording, List.mem_map, forall_exists_index, and_imp]
    constructor
    · rintro h y t ht rfl
      rw [← hx]
      exact h t ht
    · intro h t ht
      have := h _ t ht rfl
      rwa [← hx] at this
  have h : (∀ x ∈ (s, view s) :: history (recording commits gives) (s, view s) as, view x.1 = x.2) ↔
      view s = view s ∧ Along (commitStep (recording commits gives)) (fun x a => P x.1 a) (s, view s) as :=
    forall_history_iff hrow
  rw [along_recording_iff] at h
  rw [← h.trans (and_iff_right rfl), Recorded]
  exact ⟨fun h x hx => (List.mem_cons.mp hx).elim (fun he => he ▸ rfl) (h x), fun h x hx => h x (.tail _ hx)⟩

end Record

end LlmStore.Lib.LastWriter
