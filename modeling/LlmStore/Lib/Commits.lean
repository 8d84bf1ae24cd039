import LlmStore.Lib.Run

/-!
# Actions that commit several states

An action taken alone may commit more than one state before it ends: `commits s a` lists them in order, and the next
action starts from the last one (`after`). `history` lists all states that a run of actions commits. A property of all
these states is checked one action at a time: `history_iff` turns an exact condition on single actions into the exact
condition on runs, for a property of each state and a transitive relation between earlier and later ones.
-/

namespace LlmStore.Lib

universe u v

variable {σ : Type u} {α : Type v} (commits : σ → α → List σ)

/-- The state after an action. -/
def after (s : σ) (a : α) : σ := (commits s a).getLastD s

/-- All states that a run of actions commits, in order. -/
def history : σ → List α → List σ
  | _, [] => []
  | s, a :: as => commits s a ++ history (after commits s a) as

/-- The actions as steps from one last state to the next. -/
def commitStep (s : σ) (a : α) : Option σ := some (after commits s a)

variable {commits}

theorem after_mem (s : σ) (a : α) : after commits s a ∈ s :: commits s a := List.getLastD_mem_cons

theorem after_inv {I : σ → Prop} {s : σ} {a : α} (hs : I s) (h : ∀ t ∈ commits s a, I t) : I (after commits s a) := by
  have hmem : after commits s a ∈ s :: commits s a := after_mem s a
  rcases List.mem_cons.mp hmem with he | hm
  · rw [he]
    exact hs
  · exact h _ hm

/-- A relation between earlier and later states of two stretches, the second starting at the end of the first. -/
theorem pairwise_append_getLastD {R : σ → σ → Prop} (htrans : ∀ a b c, R a b → R b c → R a c) (s : σ) (xs ys : List σ) :
    (s :: (xs ++ ys)).Pairwise R ↔ (s :: xs).Pairwise R ∧ (xs.getLastD s :: ys).Pairwise R := by
  have : IsTrans σ R := ⟨htrans⟩
  induction xs generalizing s with
  | nil => simp
  | cons x xs ih =>
    have ih' := ih x
    rw [List.cons_append, ← List.isChain_iff_pairwise, List.isChain_cons_cons, List.isChain_iff_pairwise,
      ← List.isChain_iff_pairwise (l := s :: x :: xs), List.isChain_cons_cons, List.isChain_iff_pairwise, and_assoc,
      List.getLastD_cons]
    exact and_congr_right fun _ => ih'

/-- **A run keeps to a property exactly if its actions do**: every committed state satisfies `I` and stands in `R` to
all earlier ones just if every action meets the condition `P` in the state in which it is taken. -/
theorem history_iff {I : σ → Prop} {R : σ → σ → Prop} {P : σ → α → Prop}
    (htrans : ∀ a b c, R a b → R b c → R a c)
    (hstep : ∀ s a, I s → (P s a ↔ (s :: commits s a).Pairwise R ∧ ∀ t ∈ commits s a, I t)) {as : List α} {s : σ} :
    ((s :: history commits s as).Pairwise R ∧ ∀ t ∈ s :: history commits s as, I t) ↔
      I s ∧ Along (commitStep commits) P s as := by
  induction as generalizing s with
  | nil => simp [history, Along]
  | cons a as ih =>
    have hsplit := pairwise_append_getLastD htrans s (commits s a)
      (history commits (after commits s a) as)
    simp only [history, hsplit, Along, commitStep, Option.some.injEq, forall_eq']
    have ih' := ih (s := after commits s a)
    constructor
    · rintro ⟨⟨hfirst, hrest⟩, hI⟩
      have hs := hI s List.mem_cons_self
      have hcommits : ∀ t ∈ commits s a, I t := fun t ht => hI t (by simp [ht])
      refine ⟨hs, (hstep s a hs).mpr ⟨hfirst, hcommits⟩, (ih'.mp ⟨hrest, ?_⟩).2⟩
      intro t ht
      rcases List.mem_cons.mp ht with rfl | ht
      · exact after_inv hs hcommits
      · exact hI t (by simp [ht])
    · rintro ⟨hs, hP, hAlong⟩
      obtain ⟨hfirst, hcommits⟩ := (hstep s a hs).mp hP
      obtain ⟨hrest, hI⟩ := ih'.mpr ⟨after_inv hs hcommits, hAlong⟩
      refine ⟨⟨hfirst, hrest⟩, fun t ht => ?_⟩
      rcases List.mem_cons.mp ht with rfl | ht
      · exact hs
      · rcases List.mem_append.mp ht with ht | ht
        · exact hcommits t ht
        · exact hI t (List.mem_cons_of_mem _ ht)

/-- The same for a property of each state alone. -/
theorem forall_history_iff {I : σ → Prop} {P : σ → α → Prop}
    (hstep : ∀ s a, I s → (P s a ↔ ∀ t ∈ commits s a, I t)) {as : List α} {s : σ} :
    (∀ t ∈ s :: history commits s as, I t) ↔ I s ∧ Along (commitStep commits) P s as := by
  have hall : ∀ l : List σ, l.Pairwise fun _ _ => True := fun l => List.pairwise_of_forall fun _ _ => trivial
  have h : ((s :: history commits s as).Pairwise (fun _ _ => True) ∧ ∀ t ∈ s :: history commits s as, I t) ↔
      I s ∧ Along (commitStep commits) P s as :=
    history_iff (fun _ _ _ _ _ => trivial) fun s a hs => (hstep s a hs).trans (by simp [hall])
  rw [← h]
  simp [hall]

/-- A property that every action keeps under the condition `P` holds of all states of a run whose actions meet it. -/
theorem forall_history_of_along {I : σ → Prop} {P : σ → α → Prop}
    (hstep : ∀ s a, I s → P s a → ∀ t ∈ commits s a, I t) {as : List α} {s : σ} (hs : I s)
    (h : Along (commitStep commits) P s as) : ∀ t ∈ s :: history commits s as, I t := by
  induction as generalizing s with
  | nil =>
    intro t ht
    obtain rfl := List.mem_singleton.mp ht
    exact hs
  | cons a as ih =>
    have hcommits := hstep s a hs h.1
    have hrest := ih (after_inv hs hcommits) (h.2 _ rfl)
    intro t ht
    rcases List.mem_cons.mp ht with rfl | ht
    · exact hs
    · rcases List.mem_append.mp ht with ht | ht
      · exact hcommits t ht
      · exact hrest t (List.mem_cons_of_mem _ ht)

/-- Along such a run, what the property and the condition imply of a single action holds of every action. -/
theorem along_of_along {I : σ → Prop} {P Q : σ → α → Prop} (hstep : ∀ s a, I s → P s a → ∀ t ∈ commits s a, I t)
    (hQ : ∀ s a, I s → P s a → Q s a) {as : List α} {s : σ} (hs : I s) (h : Along (commitStep commits) P s as) :
    Along (commitStep commits) Q s as := by
  induction as generalizing s with
  | nil => trivial
  | cons a as ih =>
    refine ⟨hQ s a hs h.1, fun t ht => ?_⟩
    have hafter : after commits s a = t := Option.some.inj ht
    exact ih (hafter ▸ after_inv hs (hstep s a hs h.1)) (h.2 t ht)

/-- A relation that every action keeps between its states holds between all states of a run. -/
theorem pairwise_history {R : σ → σ → Prop} (htrans : ∀ a b c, R a b → R b c → R a c)
    (hstep : ∀ s a, (s :: commits s a).Pairwise R) {as : List α} {s : σ} : (s :: history commits s as).Pairwise R :=
  ((history_iff (I := fun _ => True) (P := fun _ _ => True) htrans
    (fun s a _ => iff_of_true trivial ⟨hstep s a, fun _ _ => trivial⟩)).mpr
    ⟨trivial, along_of_forall (fun _ _ => trivial) _ _⟩).1

end LlmStore.Lib
