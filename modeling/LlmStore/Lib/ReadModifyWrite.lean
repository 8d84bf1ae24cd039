import Mathlib.Algebra.BigOperators.Fin
import Mathlib.Algebra.Order.Ring.Int
import LlmStore.Lib.Run
import LlmStore.Lib.Tally

/-!
# Read-modify-write transactions

Any number of transactions share a store of rows. Each one selects its rows, in its own order, keeps the selected
values in its session, computes new values from them and writes these back when it commits. Selecting takes no lock,
so other transactions may commit in between (READ COMMITTED isolation). A row that a session has already loaded keeps
its loaded value when it is selected again.

* a run in which every commit finds the row as its session has loaded it (`Fresh`) gives the row the value of a
  serial execution in the order of the commits (`run_fresh`);
* if each transaction adds one to a measure of the row, then no other run does: the measure has grown by the number of
  commits exactly if the run is fresh (`fresh_iff`);
* if each transaction adds something to a measure of the row, then in every run the measure stays between its first
  value and that value and the amounts of the committed transactions (`step_between`); transactions one after another
  bring it up to that (`run_turns`).
-/

namespace LlmStore.Lib.ReadModifyWrite

universe u v w

variable {τ : Type u} {ρ : Type v} {ν : ρ → Type w}

/-- A transaction: the rows it selects, in order, and the new value it computes for a row from the loaded one. -/
structure Program (ρ : Type v) (ν : ρ → Type w) where
  reads : List ρ
  upd : (r : ρ) → ν r → ν r

/-- The selects that are still to come, the loaded rows, and whether the transaction has committed. -/
structure Session (ν : ρ → Type w) where
  todo : List ρ
  loaded : (r : ρ) → Option (ν r)
  done : Bool

/-- The committed rows and the sessions. -/
structure State (τ : Type u) (ν : ρ → Type w) where
  store : (r : ρ) → ν r
  session : τ → Session ν

inductive Action (τ : Type u) where
  | select (t : τ)
  | commit (t : τ)

section Step

variable [DecidableEq τ] [DecidableEq ρ] (prog : τ → Program ρ ν)

/-- Selecting row `r`: a row that is already loaded is not loaded again. -/
def load (store : (r : ρ) → ν r) (loaded : (r : ρ) → Option (ν r)) (r : ρ) : (r : ρ) → Option (ν r) :=
  Function.update loaded r (some ((loaded r).getD (store r)))

/-- The session after it has selected row `r`. -/
def Session.select (x : Session ν) (store : (r : ρ) → ν r) (r : ρ) (rest : List ρ) : Session ν :=
  { x with todo := rest, loaded := load store x.loaded r }

/-- The session after its commit. -/
def Session.commit (x : Session ν) : Session ν := { x with done := true }

/-- The store after the loaded rows have been written back with their new values. -/
def writeBack (p : Program ρ ν) (store : (r : ρ) → ν r) (loaded : (r : ρ) → Option (ν r)) (r : ρ) : ν r :=
  ((loaded r).map (p.upd r)).getD (store r)

def step (s : State τ ν) : Action τ → Option (State τ ν)
  | .select t =>
    match (s.session t).todo with
    | [] => none
    | r :: rest => some { s with session := Function.update s.session t ((s.session t).select s.store r rest) }
  | .commit t =>
    if (s.session t).todo.isEmpty && !(s.session t).done then
      some
        { store := writeBack (prog t) s.store (s.session t).loaded
          session := Function.update s.session t (s.session t).commit }
    else none

/-- All transactions before their first select. -/
def init (store : (r : ρ) → ν r) : State τ ν :=
  { store, session := fun t => { todo := (prog t).reads, loaded := fun _ => none, done := false } }

/-- The transactions that a run commits, in the order of their commits. -/
def commits : List (Action τ) → List τ
  | [] => []
  | .select _ :: as => commits as
  | .commit t :: as => t :: commits as

/-- The row still has the value that the committing session has loaded. -/
def Fresh (r : ρ) (s : State τ ν) (a : Action τ) : Prop :=
  ∀ t, a = .commit t → ∀ v, (s.session t).loaded r = some v → v = s.store r

variable {prog}

/-! ## What one step does -/

@[simp] theorem Session.select_todo (x : Session ν) (store : (r : ρ) → ν r) (r : ρ) (rest : List ρ) :
    (x.select store r rest).todo = rest := rfl

@[simp] theorem Session.select_loaded (x : Session ν) (store : (r : ρ) → ν r) (r : ρ) (rest : List ρ) :
    (x.select store r rest).loaded = load store x.loaded r := rfl

@[simp] theorem Session.select_done (x : Session ν) (store : (r : ρ) → ν r) (r : ρ) (rest : List ρ) :
    (x.select store r rest).done = x.done := rfl

omit [DecidableEq ρ] in
@[simp] theorem Session.commit_todo (x : Session ν) : x.commit.todo = x.todo := rfl

omit [DecidableEq ρ] in
@[simp] theorem Session.commit_loaded (x : Session ν) : x.commit.loaded = x.loaded := rfl

omit [DecidableEq ρ] in
@[simp] theorem Session.commit_done (x : Session ν) : x.commit.done = true := rfl

theorem step_select {s s' : State τ ν} {t : τ} (h : step prog s (.select t) = some s') :
    ∃ r rest, (s.session t).todo = r :: rest ∧
      s' = { s with session := Function.update s.session t ((s.session t).select s.store r rest) } := by
  cases ht : (s.session t).todo with
  | nil => simp [step, ht] at h
  | cons r rest => exact ⟨r, rest, rfl, by simpa [step, ht] using h.symm⟩

theorem step_commit {s s' : State τ ν} {t : τ} (h : step prog s (.commit t) = some s') :
    (s.session t).todo = [] ∧ (s.session t).done = false ∧
      s' = { store := writeBack (prog t) s.store (s.session t).loaded
             session := Function.update s.session t (s.session t).commit } := by
  simp only [step, Bool.and_eq_true, List.isEmpty_iff, Bool.not_eq_true'] at h
  split at h
  · rename_i hc
    exact ⟨hc.1, hc.2, by simpa using h.symm⟩
  · cases h

@[simp] theorem load_self (store : (r : ρ) → ν r) (loaded : (r : ρ) → Option (ν r)) (r : ρ) :
    load store loaded r r = some ((loaded r).getD (store r)) := by simp [load]

theorem load_of_ne (store : (r : ρ) → ν r) (loaded : (r : ρ) → Option (ν r)) {r r' : ρ} (h : r' ≠ r) :
    load store loaded r r' = loaded r' := by simp [load, Function.update_of_ne h]

/-- What a session has loaded of a row after a select: the old value, or the committed one. -/
theorem load_eq {store : (r : ρ) → ν r} {loaded : (r : ρ) → Option (ν r)} {r r' : ρ} {v : ν r'}
    (h : load store loaded r r' = some v) : loaded r' = some v ∨ v = store r' := by
  by_cases hr : r' = r
  · subst hr
    rw [load_self, Option.some.injEq] at h
    cases hl : loaded r' with
    | none => rw [hl] at h; exact Or.inr h.symm
    | some v' => rw [hl] at h; exact Or.inl (congrArg some h)
  · rw [load_of_ne _ _ hr] at h
    exact Or.inl h

/-! ## Every transaction commits once -/

theorem done_iff {as : List (Action τ)} {s s' : State τ ν} (h : run (step prog) s as = some s') (t : τ) :
    (s'.session t).done = true ↔ (s.session t).done = true ∨ t ∈ commits as := by
  induction as generalizing s with
  | nil =>
    cases h
    simp [commits]
  | cons a as ih =>
    obtain ⟨u, hu, h⟩ := run_cons_iff.mp h
    rw [ih h]
    cases a with
    | select t' =>
      obtain ⟨r, rest, -, rfl⟩ := step_select hu
      by_cases ht : t = t' <;> simp [commits, ht]
    | commit t' =>
      obtain ⟨-, -, rfl⟩ := step_commit hu
      by_cases ht : t = t' <;> simp [commits, ht]

theorem commits_nodup {as : List (Action τ)} {s s' : State τ ν} (h : run (step prog) s as = some s') :
    (commits as).Nodup ∧ ∀ t ∈ commits as, (s.session t).done = false := by
  induction as generalizing s with
  | nil => simp [commits]
  | cons a as ih =>
    obtain ⟨u, hu, h⟩ := run_cons_iff.mp h
    obtain ⟨hn, hd⟩ := ih h
    cases a with
    | select t' =>
      obtain ⟨r, rest, -, rfl⟩ := step_select hu
      refine ⟨hn, fun t ht => ?_⟩
      have := hd t ht
      by_cases htt : t = t' <;> simpa [htt] using this
    | commit t' =>
      obtain ⟨-, hf, rfl⟩ := step_commit hu
      have hnew : t' ∉ commits as := fun hm => by simpa using hd t' hm
      refine ⟨List.nodup_cons.mpr ⟨hnew, hn⟩, fun t ht => ?_⟩
      rcases List.mem_cons.mp ht with rfl | ht
      · exact hf
      · have htt : t ≠ t' := fun e => hnew (e ▸ ht)
        simpa [htt] using hd t ht

/-- A run from the start that ends with all transactions committed has committed each of them once. -/
theorem commits_perm [Fintype τ] {as : List (Action τ)} {store : (r : ρ) → ν r} {s' : State τ ν}
    (h : run (step prog) (init prog store) as = some s') (hall : ∀ t, (s'.session t).done = true) :
    (commits as).Perm Finset.univ.toList := by
  refine (List.perm_ext_iff_of_nodup (commits_nodup h).1 (Finset.nodup_toList _)).mpr fun t => ?_
  have := (done_iff h t).mp (hall t)
  simpa [init] using this

/-! ## Fresh runs are serial -/

/-- The session has loaded the row or will still select it. -/
def Covers (r : ρ) (s : State τ ν) : Prop :=
  ∀ t, r ∈ (s.session t).todo ∨ (s.session t).loaded r ≠ none

variable (prog) in
omit [DecidableEq τ] [DecidableEq ρ] in
theorem covers_init (store : (r : ρ) → ν r) {r : ρ} (hr : ∀ t, r ∈ (prog t).reads) :
    Covers r (init prog store) := fun t => Or.inl (hr t)

theorem step_covers {r : ρ} {s s' : State τ ν} {a : Action τ} (hc : Covers r s) (h : step prog s a = some s') :
    Covers r s' := by
  intro t
  cases a with
  | select t' =>
    obtain ⟨r', rest, htodo, rfl⟩ := step_select h
    by_cases ht : t = t'
    · subst ht
      simp only [Function.update_self, Session.select_todo, Session.select_loaded]
      by_cases hr : r = r'
      · subst hr; right; simp
      · rw [load_of_ne _ _ hr]
        rcases hc t with hm | hl
        · rw [htodo, List.mem_cons] at hm
          exact Or.inl (hm.resolve_left hr)
        · exact Or.inr hl
    · simpa [ht] using hc t
  | commit t' =>
    obtain ⟨-, -, rfl⟩ := step_commit h
    by_cases ht : t = t'
    · subst ht; simpa using hc t
    · simpa [ht] using hc t

/-- A committing session has loaded every row that it covers. -/
theorem commit_loaded {r : ρ} {s s' : State τ ν} {t : τ} (hc : Covers r s) (h : step prog s (.commit t) = some s') :
    ∃ v, (s.session t).loaded r = some v ∧ s'.store r = (prog t).upd r v := by
  obtain ⟨htodo, -, rfl⟩ := step_commit h
  rcases hc t with hm | hl
  · rw [htodo] at hm; cases hm
  · obtain ⟨v, hv⟩ := Option.ne_none_iff_exists'.mp hl
    exact ⟨v, hv, by simp [writeBack, hv]⟩

/-- **Fresh runs are serial**: the row ends with the updates of the committed transactions applied in turn. -/
theorem run_fresh {r : ρ} {as : List (Action τ)} {s s' : State τ ν} (hc : Covers r s)
    (h : run (step prog) s as = some s') (hf : Along (step prog) (Fresh r) s as) :
    s'.store r = (commits as).foldl (fun v t => (prog t).upd r v) (s.store r) := by
  induction as generalizing s with
  | nil =>
    cases h
    rfl
  | cons a as ih =>
    obtain ⟨u, hu, h⟩ := run_cons_iff.mp h
    rw [ih (step_covers hc hu) h (hf.2 u hu)]
    cases a with
    | select t' => obtain ⟨_, _, -, rfl⟩ := step_select hu; rfl
    | commit t' =>
      obtain ⟨v, hv, hstore⟩ := commit_loaded hc hu
      rw [hstore, hf.1 t' rfl v hv]
      rfl

variable (prog) in
omit [DecidableEq τ] [DecidableEq ρ] in
/-- Serial updates that each add to a measure of the row add up. -/
theorem foldl_add {M : Type*} [AddCommMonoid M] {r : ρ} (m : ν r → M) (d : τ → M)
    (hd : ∀ t v, m ((prog t).upd r v) = m v + d t) (ts : List τ) (v : ν r) :
    m (ts.foldl (fun v t => (prog t).upd r v) v) = m v + (ts.map d).sum := by
  induction ts generalizing v with
  | nil => simp
  | cons t ts ih => rw [List.foldl_cons, ih, hd, List.map_cons, List.sum_cons, add_assoc]

/-! ## Only fresh runs count every transaction -/

/-- `k` bounds the measure of the row and of the loaded values, and a loaded value that reaches `k` is the row's. -/
structure Bounded {r : ρ} (m : ν r → ℤ) (s : State τ ν) (k : ℤ) : Prop where
  store : m (s.store r) ≤ k
  loaded : ∀ t v, (s.session t).loaded r = some v → (s.session t).done = false →
    m v ≤ k ∧ (m v = k → v = s.store r)

omit [DecidableEq τ] [DecidableEq ρ] in
theorem bounded_init {r : ρ} (m : ν r → ℤ) (store : (r : ρ) → ν r) :
    Bounded m (init prog store) (m (store r)) :=
  ⟨le_refl _, fun t v h => by simp [init] at h⟩

section Measure

variable {r : ρ} {m : ν r → ℤ} (hm : ∀ t v, m ((prog t).upd r v) = m v + 1)
include hm

theorem step_bounded {s s' : State τ ν} {a : Action τ} {k : ℤ} (hc : Covers r s) (hb : Bounded m s k)
    (h : step prog s a = some s') : Bounded m s' (k + (commits [a]).length) := by
  cases a with
  | select t' =>
    obtain ⟨r', rest, -, rfl⟩ := step_select h
    simp only [commits, List.length_nil, Nat.cast_zero, add_zero]
    refine ⟨hb.store, fun t v hl hd => ?_⟩
    by_cases ht : t = t'
    · subst ht
      simp only [Function.update_self, Session.select_loaded, Session.select_done] at hl hd
      rcases load_eq hl with hl | rfl
      · exact hb.loaded t v hl hd
      · exact ⟨hb.store, fun _ => rfl⟩
    · simp only [Function.update_of_ne ht] at hl hd
      exact hb.loaded t v hl hd
  | commit t' =>
    obtain ⟨v', hv', hstore⟩ := commit_loaded hc h
    obtain ⟨-, hd', rfl⟩ := step_commit h
    have hle := (hb.loaded t' v' hv' hd').1
    simp only [commits, List.length_cons, List.length_nil, Nat.cast_one, zero_add]
    refine ⟨by rw [hstore, hm]; omega, fun t v hl hd => ?_⟩
    by_cases ht : t = t'
    · subst ht; simp at hd
    · simp only [Function.update_of_ne ht] at hl hd
      have := (hb.loaded t v hl hd).1
      exact ⟨by omega, fun he => by omega⟩

/-- Below the bound, no loaded value reaches it either. -/
def Below (m : ν r → ℤ) (s : State τ ν) (k : ℤ) : Prop :=
  m (s.store r) < k ∧ ∀ t v, (s.session t).loaded r = some v → (s.session t).done = false → m v < k

omit [DecidableEq τ] [DecidableEq ρ] hm in
theorem Bounded.below {s : State τ ν} {k : ℤ} (hb : Bounded m s k) (hlt : m (s.store r) < k) : Below m s k := by
  refine ⟨hlt, fun t v hl hd => ?_⟩
  obtain ⟨hle, heq⟩ := hb.loaded t v hl hd
  have hne : m v ≠ k := fun e => by rw [heq e] at e; omega
  omega

theorem step_below {s s' : State τ ν} {a : Action τ} {k : ℤ} (hc : Covers r s) (hb : Below m s k)
    (h : step prog s a = some s') : Below m s' (k + (commits [a]).length) := by
  cases a with
  | select t' =>
    obtain ⟨r', rest, -, rfl⟩ := step_select h
    simp only [commits, List.length_nil, Nat.cast_zero, add_zero]
    refine ⟨hb.1, fun t v hl hd => ?_⟩
    by_cases ht : t = t'
    · subst ht
      simp only [Function.update_self, Session.select_loaded, Session.select_done] at hl hd
      rcases load_eq hl with hl | rfl
      · exact hb.2 t v hl hd
      · exact hb.1
    · simp only [Function.update_of_ne ht] at hl hd
      exact hb.2 t v hl hd
  | commit t' =>
    obtain ⟨v', hv', hstore⟩ := commit_loaded hc h
    obtain ⟨-, hd', rfl⟩ := step_commit h
    have hlt := hb.2 t' v' hv' hd'
    simp only [commits, List.length_cons, List.length_nil, Nat.cast_one, zero_add]
    refine ⟨by rw [hstore, hm]; omega, fun t v hl hd => ?_⟩
    by_cases ht : t = t'
    · subst ht; simp at hd
    · simp only [Function.update_of_ne ht] at hl hd
      have := hb.2 t v hl hd
      omega

omit [DecidableEq τ] hm in
theorem commits_cons (a : Action τ) (as : List (Action τ)) :
    (commits (a :: as)).length = (commits [a]).length + (commits as).length := by
  cases a <;> simp [commits]; omega

/-- A row below the bound stays below it: an update that was lost is never made up for. -/
theorem run_below {as : List (Action τ)} {s s' : State τ ν} {k : ℤ} (hc : Covers r s) (hb : Below m s k)
    (h : run (step prog) s as = some s') : m (s'.store r) < k + (commits as).length := by
  induction as generalizing s k with
  | nil =>
    cases h
    simpa [commits] using hb.1
  | cons a as ih =>
    obtain ⟨u, hu, h⟩ := run_cons_iff.mp h
    have := ih (step_covers hc hu) (step_below hm hc hb hu) h
    rw [commits_cons]
    push_cast
    omega

/-- A row that keeps up with the bound to the end has been fresh at every commit. -/
theorem along_fresh {as : List (Action τ)} {s s' : State τ ν} {k : ℤ} (hc : Covers r s) (hb : Bounded m s k)
    (h : run (step prog) s as = some s') (he : m (s'.store r) = k + (commits as).length) :
    Along (step prog) (Fresh r) s as := by
  induction as generalizing s k with
  | nil => trivial
  | cons a as ih =>
    obtain ⟨u, hu, h⟩ := run_cons_iff.mp h
    have hcu := step_covers hc hu
    have hbu := step_bounded hm hc hb hu
    rw [commits_cons] at he
    push_cast at he
    -- otherwise the row would be below the bound after this step, and stay there
    have hkeep : m (u.store r) = k + (commits [a]).length := by
      by_contra hne
      have := run_below hm hcu (hbu.below (lt_of_le_of_ne hbu.store hne)) h
      omega
    refine ⟨fun t hat v hv => ?_, fun s'' hs => ?_⟩
    · subst hat
      obtain ⟨v', hv', hstore⟩ := commit_loaded hc hu
      obtain ⟨-, hd, -⟩ := step_commit hu
      cases hv.symm.trans hv'
      rw [hstore, hm] at hkeep
      simp only [commits, List.length_cons, List.length_nil, Nat.cast_one, zero_add] at hkeep
      exact (hb.loaded t v hv hd).2 (by omega)
    · cases hu.symm.trans hs
      exact ih hcu hbu h (by omega)

/-- **The count is right exactly if the run is fresh.** -/
theorem fresh_iff {as : List (Action τ)} {store : (r : ρ) → ν r} {s' : State τ ν} (hr : ∀ t, r ∈ (prog t).reads)
    (h : run (step prog) (init prog store) as = some s') :
    m (s'.store r) = m (store r) + (commits as).length ↔ Along (step prog) (Fresh r) (init prog store) as := by
  have hc := covers_init prog store hr
  constructor
  · exact along_fresh hm hc (bounded_init m store) h
  · intro hf
    rw [run_fresh hc h hf, foldl_add prog m (fun _ => 1) hm]
    simp [init]

end Measure

/-! ## Bounds that hold in every run -/

/-- The amounts of the transactions that have committed. -/
def spent [Fintype τ] (d : τ → ℤ) (s : State τ ν) : ℤ := tally (fun t x => if x.done then d t else 0) s.session

/-- The value lies between the first one and that with the amounts of the committed transactions. -/
def InRange [Fintype τ] (lo : ℤ) (d : τ → ℤ) (s : State τ ν) (v : ℤ) : Prop := lo ≤ v ∧ v ≤ lo + spent d s

/-- The row and all its loaded values lie in the range. -/
structure Between [Fintype τ] {r : ρ} (m : ν r → ℤ) (lo : ℤ) (d : τ → ℤ) (s : State τ ν) : Prop where
  store : InRange lo d s (m (s.store r))
  loaded : ∀ t v, (s.session t).loaded r = some v → InRange lo d s (m v)

section Between

variable [Fintype τ] {r : ρ} {m : ν r → ℤ} {d : τ → ℤ}

variable (prog) in
omit [DecidableEq τ] [DecidableEq ρ] in
theorem between_init (m : ν r → ℤ) (d : τ → ℤ) (store : (r : ρ) → ν r) :
    Between m (m (store r)) d (init prog store) := by
  have hspent : spent d (init prog store) = 0 := Finset.sum_eq_zero fun t _ => rfl
  refine ⟨⟨le_rfl, ?_⟩, fun t v h => nomatch h⟩
  rw [hspent, add_zero]
  rfl

theorem spent_select {s : State τ ν} (t : τ) (r' : ρ) (rest : List ρ) :
    spent d { s with session := Function.update s.session t ((s.session t).select s.store r' rest) } = spent d s := by
  unfold spent
  rw [tally_update]
  exact sub_add_cancel _ _

omit [DecidableEq ρ] in
theorem spent_commit {s : State τ ν} {t : τ} (hd : (s.session t).done = false) (store : (r : ρ) → ν r) :
    spent d { store, session := Function.update s.session t (s.session t).commit } = spent d s + d t := by
  unfold spent
  rw [tally_update]
  simp [hd]

theorem step_between {lo : ℤ} (hd : ∀ t, 0 ≤ d t) (hm : ∀ t v, m ((prog t).upd r v) = m v + d t) {s s' : State τ ν}
    {a : Action τ} (hb : Between m lo d s) (h : step prog s a = some s') : Between m lo d s' := by
  cases a with
  | select t' =>
    obtain ⟨r', rest, -, rfl⟩ := step_select h
    have hsame : ∀ v, InRange lo d s v → InRange lo d
        { s with session := Function.update s.session t' ((s.session t').select s.store r' rest) } v := by
      intro v hv
      rw [InRange, spent_select]
      exact hv
    refine ⟨hsame _ hb.store, fun t v hl => hsame _ ?_⟩
    by_cases ht : t = t'
    · subst ht
      simp only [Function.update_self, Session.select_loaded] at hl
      rcases load_eq hl with hl | rfl
      · exact hb.loaded t v hl
      · exact hb.store
    · simp only [Function.update_of_ne ht] at hl
      exact hb.loaded t v hl
  | commit t' =>
    obtain ⟨-, hdone, rfl⟩ := step_commit h
    have hspent := spent_commit (d := d) hdone (writeBack (prog t') s.store (s.session t').loaded)
    have hmore : ∀ v, InRange lo d s v → InRange lo d
        { store := writeBack (prog t') s.store (s.session t').loaded
          session := Function.update s.session t' (s.session t').commit } v := by
      intro v hv
      have := hd t'
      rw [InRange, hspent]
      exact ⟨hv.1, by have := hv.2; omega⟩
    refine ⟨?_, fun t v hl => hmore _ ?_⟩
    · cases hl : (s.session t').loaded r with
      | none => simpa [writeBack, hl] using hmore _ hb.store
      | some v =>
        obtain ⟨hlo, hhi⟩ := hb.loaded t' v hl
        have := hd t'
        simp only [writeBack, hl, Option.map_some, Option.getD_some, hm]
        rw [InRange, hspent]
        omega
    · by_cases ht : t = t'
      · subst ht
        exact hb.loaded t v (by simpa using hl)
      · simp only [Function.update_of_ne ht] at hl
        exact hb.loaded t v hl

end Between

/-! ## A transaction alone -/

/-- The selects and the commit of one transaction, with no other in between. -/
def solo (t : τ) (rs : List ρ) : List (Action τ) := rs.map (fun _ => Action.select t) ++ [Action.commit t]

variable (prog) in
theorem run_selects (t : τ) (rs : List ρ) (s : State τ ν) (h : (s.session t).todo = rs) :
    ∃ s', run (step prog) s (rs.map fun _ => Action.select t) = some s' ∧ s'.store = s.store ∧
      (s'.session t).todo = [] ∧ (s'.session t).done = (s.session t).done ∧
      (s'.session t).loaded = rs.foldl (load s.store) (s.session t).loaded ∧
      ∀ t', t' ≠ t → s'.session t' = s.session t' := by
  induction rs generalizing s with
  | nil => exact ⟨s, rfl, rfl, h, rfl, rfl, fun _ _ => rfl⟩
  | cons r rs ih =>
    let u : State τ ν := { s with session := Function.update s.session t ((s.session t).select s.store r rs) }
    have hs : step prog s (.select t) = some u := by simp [step, h, u]
    obtain ⟨s', hrun, hstore, htodo, hdone, hl, hother⟩ := ih u (by simp [u])
    refine ⟨s', run_cons_iff.mpr ⟨_, hs, hrun⟩, hstore, htodo, ?_, ?_, fun t' ht => ?_⟩
    · simpa [u] using hdone
    · simpa [u] using hl
    · rw [hother t' ht]
      exact Function.update_of_ne ht _ _

/-- Loading rows of one committed store gives each its committed value. -/
theorem foldl_load (store : (r : ρ) → ν r) (r : ρ) (rs : List ρ) (l : (r : ρ) → Option (ν r))
    (hl : ∀ v, l r = some v → v = store r) :
    rs.foldl (load store) l r = if r ∈ rs then some (store r) else l r := by
  induction rs generalizing l with
  | nil => simp
  | cons r' rs ih =>
    have hnext : ∀ v, load store l r' r = some v → v = store r := by
      intro v hv
      rcases load_eq hv with h | h
      · exact hl v h
      · exact h
    rw [List.foldl_cons, ih _ hnext]
    by_cases hm : r ∈ rs
    · simp [hm]
    · by_cases hr : r = r'
      · subst hr
        have : (l r).getD (store r) = store r := by
          cases hv : l r with
          | none => rfl
          | some v => simpa using hl v hv
        simp [hm, this]
      · simp [hm, hr, load_of_ne]

/-- A transaction that has not begun. -/
def Session.start (p : Program ρ ν) : Session ν := { todo := p.reads, loaded := fun _ => none, done := false }

variable (prog) in
/-- A transaction that has not begun, run without a break, applies its update to every row it selects and leaves the
other rows and the other sessions as they are. -/
theorem run_turn (s : State τ ν) (t : τ) (hs : s.session t = .start (prog t)) :
    ∃ s', run (step prog) s (solo t (prog t).reads) = some s' ∧
      (∀ r, s'.store r = if r ∈ (prog t).reads then (prog t).upd r (s.store r) else s.store r) ∧
      ∀ t', t' ≠ t → s'.session t' = s.session t' := by
  obtain ⟨u, hu, hstore, htodo, hdone, hl, hother⟩ := run_selects prog t (prog t).reads s (by rw [hs]; rfl)
  have hc : step prog u (.commit t) = some
      { store := writeBack (prog t) u.store (u.session t).loaded
        session := Function.update u.session t (u.session t).commit } := by
    simp [step, htodo, hdone, hs, Session.start]
  refine ⟨_, run_snoc_iff.mpr ⟨u, hu, hc⟩, fun r => ?_, fun t' ht => ?_⟩
  · have hlr : (u.session t).loaded r = if r ∈ (prog t).reads then some (s.store r) else none := by
      rw [hl, hs]
      exact foldl_load s.store r _ _ (fun v hv => nomatch hv)
    by_cases hm : r ∈ (prog t).reads <;> simp [writeBack, hlr, hm, hstore]
  · rw [← hother t' ht]
    exact Function.update_of_ne ht _ _

variable (prog) in
/-- A transaction alone applies its update to every row it selects and leaves the others as they are. -/
theorem run_solo (store : (r : ρ) → ν r) (t : τ) :
    ∃ s', run (step prog) (init prog store) (solo t (prog t).reads) = some s' ∧
      ∀ r, s'.store r = if r ∈ (prog t).reads then (prog t).upd r (store r) else store r := by
  obtain ⟨s', hrun, hstore, -⟩ := run_turn prog (init prog store) t rfl
  exact ⟨s', hrun, hstore⟩

variable (prog) in
/-- Transactions one after another apply their updates in turn. -/
theorem run_turns {r : ρ} (hr : ∀ t, r ∈ (prog t).reads) (ts : List τ) (s : State τ ν) (hnd : ts.Nodup)
    (hs : ∀ t ∈ ts, s.session t = .start (prog t)) :
    ∃ s', run (step prog) s (ts.flatMap fun t => solo t (prog t).reads) = some s' ∧
      s'.store r = ts.foldl (fun v t => (prog t).upd r v) (s.store r) := by
  induction ts generalizing s with
  | nil => exact ⟨s, rfl, rfl⟩
  | cons t ts ih =>
    obtain ⟨hnot, hnd⟩ := List.nodup_cons.mp hnd
    obtain ⟨u, hu, hstore, hother⟩ := run_turn prog s t (hs t List.mem_cons_self)
    have hrest : ∀ t' ∈ ts, u.session t' = .start (prog t') := by
      intro t' ht'
      rw [hother t' fun h => hnot (h ▸ ht')]
      exact hs t' (List.mem_cons_of_mem _ ht')
    obtain ⟨s', hs', hfold⟩ := ih u hnd hrest
    refine ⟨s', by rw [List.flatMap_cons]; exact run_append_iff.mpr ⟨u, hu, hs'⟩, ?_⟩
    rw [hfold, hstore r, if_pos (hr t), List.foldl_cons]

end Step

end LlmStore.Lib.ReadModifyWrite
