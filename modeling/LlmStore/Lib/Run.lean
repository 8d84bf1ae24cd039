import Mathlib.Data.Option.Basic
import Mathlib.Data.List.Basic

/-!
# Runs of a transition function

A system is a partial step function `step : σ → α → Option σ`: `none` says that the action cannot be taken in that
state. `run` takes a list of actions one after another. `Along P` says that every action of a run meets `P` in the
state in which it is taken. Invariants are proved of one step and carried to whole runs by `run_inv`, and by
`run_inv_along` when a step keeps the invariant only under the condition `P`. `run_map` carries the runs of a system
over to one that simulates it.
-/

namespace LlmStore.Lib

universe u v

variable {σ : Type u} {α : Type v}

section Run

variable (step : σ → α → Option σ)

/-- The actions of a list, one after another. -/
def run : σ → List α → Option σ
  | s, [] => some s
  | s, a :: as => (step s a).bind fun s' => run s' as

/-- `P` holds of every action of the run, in the state in which it is taken. -/
def Along (P : σ → α → Prop) : σ → List α → Prop
  | _, [] => True
  | s, a :: as => P s a ∧ ∀ s', step s a = some s' → Along P s' as

instance Along.decidable (P : σ → α → Prop) [∀ s a, Decidable (P s a)] : ∀ s as, Decidable (Along step P s as)
  | _, [] => .isTrue trivial
  | s, a :: as =>
    match h : step s a with
    | none => decidable_of_iff (P s a) (by simp [Along, h])
    | some t =>
      have := Along.decidable P t as
      decidable_of_iff (P s a ∧ Along step P t as) (by simp [Along, h])

/-- `s'` is the end of some run from `s`. -/
def Reaches (s s' : σ) : Prop := ∃ as, run step s as = some s'

variable {step}

@[simp] theorem run_nil (s : σ) : run step s [] = some s := rfl

theorem run_cons_iff {s s' : σ} {a : α} {as : List α} :
    run step s (a :: as) = some s' ↔ ∃ t, step s a = some t ∧ run step t as = some s' := by
  simp [run, Option.bind_eq_some_iff]

theorem run_append_iff {s s' : σ} : ∀ {as bs : List α},
    run step s (as ++ bs) = some s' ↔ ∃ t, run step s as = some t ∧ run step t bs = some s' := by
  intro as
  induction as generalizing s with
  | nil => intro bs; simp
  | cons a as ih =>
    intro bs
    simp only [List.cons_append, run_cons_iff, ih]
    constructor
    · rintro ⟨t, ht, u, hu, hs⟩
      exact ⟨u, ⟨t, ht, hu⟩, hs⟩
    · rintro ⟨u, ⟨t, ht, hu⟩, hs⟩
      exact ⟨t, ht, u, hu, hs⟩

theorem run_snoc_iff {s s' : σ} {as : List α} {a : α} :
    run step s (as ++ [a]) = some s' ↔ ∃ t, run step s as = some t ∧ step t a = some s' := by
  rw [run_append_iff]
  simp [run_cons_iff]

/-- Runs compose. -/
theorem Reaches.trans {s t u : σ} (h : Reaches step s t) (h' : Reaches step t u) : Reaches step s u := by
  obtain ⟨as, has⟩ := h
  obtain ⟨bs, hbs⟩ := h'
  exact ⟨as ++ bs, run_append_iff.mpr ⟨t, has, hbs⟩⟩

theorem Reaches.refl (s : σ) : Reaches step s s := ⟨[], rfl⟩

/-! ## Conditions along a run -/

theorem Along.mono {P Q : σ → α → Prop} (hPQ : ∀ s a, P s a → Q s a) :
    ∀ {as : List α} {s : σ}, Along step P s as → Along step Q s as
  | [], _, _ => trivial
  | _ :: _, _, h => ⟨hPQ _ _ h.1, fun s' hs => (h.2 s' hs).mono hPQ⟩

theorem along_of_forall {P : σ → α → Prop} (hP : ∀ s a, P s a) : ∀ (as : List α) (s : σ), Along step P s as
  | [], _ => trivial
  | _ :: as, _ => ⟨hP _ _, fun s' _ => along_of_forall hP as s'⟩

/-- Two conditions along one run. -/
theorem along_and {P Q : σ → α → Prop} {as : List α} {s : σ} :
    Along step (fun s a => P s a ∧ Q s a) s as ↔ Along step P s as ∧ Along step Q s as := by
  induction as generalizing s with
  | nil => simp [Along]
  | cons a as ih =>
    constructor
    · rintro ⟨⟨hp, hq⟩, h⟩
      exact ⟨⟨hp, fun s' hs => (ih.mp (h s' hs)).1⟩, hq, fun s' hs => (ih.mp (h s' hs)).2⟩
    · rintro ⟨⟨hp, h⟩, hq, h'⟩
      exact ⟨⟨hp, hq⟩, fun s' hs => ih.mpr ⟨h s' hs, h' s' hs⟩⟩

/-- A condition along a run is a condition along its parts. -/
theorem along_append {P : σ → α → Prop} {as bs : List α} {s t : σ} (h : run step s as = some t) :
    Along step P s (as ++ bs) ↔ Along step P s as ∧ Along step P t bs := by
  induction as generalizing s with
  | nil =>
    cases h
    simp [Along]
  | cons a as ih =>
    obtain ⟨u, hu, h⟩ := run_cons_iff.mp h
    simp only [List.cons_append, Along, hu, Option.some.injEq, forall_eq']
    rw [ih h, and_assoc]

/-- At the step after the prefix `as`, the condition holds. -/
theorem Along.at {P : σ → α → Prop} {as bs : List α} {a : α} {s t : σ} (h : Along step P s (as ++ a :: bs))
    (ht : run step s as = some t) : P t a :=
  ((along_append ht).mp h).2.1

/-- A condition that holds at each step of a run holds along it. -/
theorem along_of_at {P : σ → α → Prop} {as : List α} {s u : σ} (h : run step s as = some u)
    (hP : ∀ bs a cs t, as = bs ++ a :: cs → run step s bs = some t → P t a) : Along step P s as := by
  induction as generalizing s with
  | nil => trivial
  | cons a as ih =>
    obtain ⟨t, ht, h⟩ := run_cons_iff.mp h
    refine ⟨hP [] a as s rfl rfl, fun t' ht' => ?_⟩
    obtain rfl : t = t' := Option.some.inj (ht.symm.trans ht')
    refine ih h fun bs b cs v has hv => hP (a :: bs) b cs v (by rw [has, List.cons_append]) ?_
    exact run_cons_iff.mpr ⟨t, ht, hv⟩

/-! ## Invariants -/

/-- An invariant that every step keeps under `P` holds at the end of every run whose steps meet `P`. -/
theorem run_inv_along {P : σ → α → Prop} {I : σ → Prop}
    (hstep : ∀ s a s', I s → P s a → step s a = some s' → I s') {as : List α} {s s' : σ} (hi : I s)
    (hp : Along step P s as) (h : run step s as = some s') : I s' := by
  induction as generalizing s with
  | nil =>
    cases h
    exact hi
  | cons a as ih =>
    obtain ⟨t, ht, h⟩ := run_cons_iff.mp h
    exact ih (hstep s a t hi hp.1 ht) (hp.2 t ht) h

/-- An invariant that every step keeps holds at the end of every run. -/
theorem run_inv {I : σ → Prop} (hstep : ∀ s a s', I s → step s a = some s' → I s') {as : List α} {s s' : σ}
    (hi : I s) (h : run step s as = some s') : I s' :=
  run_inv_along (P := fun _ _ => True) (fun s a s' hs _ => hstep s a s' hs) hi
    (along_of_forall (fun _ _ => trivial) _ _) h

/-- A condition that the invariant guarantees holds along every run. -/
theorem along_of_inv {P : σ → α → Prop} {I : σ → Prop} (hstep : ∀ s a s', I s → step s a = some s' → I s')
    (hP : ∀ s a, I s → P s a) : ∀ {as : List α} {s : σ}, I s → Along step P s as
  | [], _, _ => trivial
  | _ :: _, _, hi => ⟨hP _ _ hi, fun s' hs => along_of_inv hstep hP (hstep _ _ s' hi hs)⟩

/-! ## Simulation -/

section Simulation

variable {σ' : Type*} {α' : Type*} {step' : σ' → α' → Option σ'} {f : σ → σ'} {g : α → α'}

/-- If each step of a system is a step of another one, so are its runs. -/
theorem run_map (hstep : ∀ s a t, step s a = some t → step' (f s) (g a) = some (f t)) {as : List α} {s t : σ}
    (h : run step s as = some t) : run step' (f s) (as.map g) = some (f t) := by
  induction as generalizing s with
  | nil =>
    cases h
    rfl
  | cons a as ih =>
    obtain ⟨u, hu, h⟩ := run_cons_iff.mp h
    exact run_cons_iff.mpr ⟨f u, hstep s a u hu, ih h⟩

theorem along_map (hstep : ∀ s a t, step s a = some t → step' (f s) (g a) = some (f t)) {P : σ' → α' → Prop}
    {as : List α} {s t : σ} (h : run step s as = some t) :
    Along step' P (f s) (as.map g) ↔ Along step (fun s a => P (f s) (g a)) s as := by
  induction as generalizing s with
  | nil => exact Iff.rfl
  | cons a as ih =>
    obtain ⟨u, hu, h⟩ := run_cons_iff.mp h
    simp only [List.map_cons, Along, hu, hstep s a u hu, Option.some.injEq, forall_eq']
    rw [ih h]

end Simulation

end Run

end LlmStore.Lib
