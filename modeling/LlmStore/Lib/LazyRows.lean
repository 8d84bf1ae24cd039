import Mathlib.Logic.Function.Basic
import LlmStore.Lib.Run

/-!
# Rows that are made when they are first needed

Transactions share a table with a unique key. Each needs the rows of some keys, one after another: it looks for the
row, and inserts it if it sees none. It sees the committed rows and its own (READ COMMITTED isolation). An insert waits
while another transaction has inserted the key, and violates the constraint if the key is committed.

* nobody violates it in a run in which no transaction commits a row that another one has looked for in vain and is
  about to insert (`kept_of_clear`);
* if nobody is about to insert a row at the end, only such runs do without a violation (`clear_of_kept`);
* alone, a transaction makes the rows that it needs and no others (`run_solo`).
-/

namespace LlmStore.Lib.LazyRows

universe u v

variable {τ : Type u} {κ : Type v}

/-- What the index knows of a key. -/
inductive Entry (τ : Type u) where
  | absent
  /-- The transaction has inserted it, and is not over. -/
  | pending (t : τ)
  | committed
  deriving DecidableEq

inductive Outcome where
  | running
  | committed
  | aborted
  /-- An insert has violated the constraint. -/
  | violated
  deriving DecidableEq

structure Session (κ : Type v) where
  /-- The keys whose rows the transaction still has to look for. -/
  todo : List κ
  /-- The key that it has looked for in vain and is about to insert. -/
  missed : Option κ
  outcome : Outcome

structure State (τ : Type u) (κ : Type v) where
  table : κ → Entry τ
  session : τ → Session κ

inductive Action (τ : Type u) (κ : Type v) where
  /-- The transaction comes to where it needs the rows. -/
  | need (t : τ) (keys : List κ)
  | look (t : τ)
  | insert (t : τ)
  | commit (t : τ)
  | abort (t : τ)

section Session

variable [DecidableEq τ]

def State.put (s : State τ κ) (t : τ) (x : Session κ) : State τ κ :=
  { s with session := Function.update s.session t x }

/-- The transaction is over, and its rows are committed or gone. -/
def State.settle (s : State τ κ) (t : τ) (e : Entry τ) : State τ κ :=
  { s with table := fun k => if s.table k = .pending t then e else s.table k }

/-- The transaction sees a row with the key. -/
def State.sees (s : State τ κ) (t : τ) (k : κ) : Bool := s.table k = .committed ∨ s.table k = .pending t

@[simp] theorem put_table (s : State τ κ) (t : τ) (x : Session κ) : (s.put t x).table = s.table := rfl

@[simp] theorem put_session (s : State τ κ) (t : τ) (x : Session κ) (t' : τ) :
    (s.put t x).session t' = if t' = t then x else s.session t' := by
  simp only [State.put, Function.update_apply]

@[simp] theorem settle_session (s : State τ κ) (t : τ) (e : Entry τ) : (s.settle t e).session = s.session := rfl

theorem settle_table (s : State τ κ) (t : τ) (e : Entry τ) (k : κ) :
    (s.settle t e).table k = if s.table k = .pending t then e else s.table k := rfl

end Session

/-- No transaction before its first look. -/
def init (table : κ → Entry τ) : State τ κ := { table, session := fun _ => ⟨[], none, .running⟩ }

/-- The transaction that commits has made no row that another one is about to insert. -/
def Clear (s : State τ κ) : Action τ κ → Prop
  | .commit t => ∀ t', t' ≠ t → ∀ k ∈ (s.session t').missed, s.table k ≠ .pending t
  | _ => True

/-- Nobody has violated the constraint. -/
def Kept (s : State τ κ) : Prop := ∀ t, (s.session t).outcome ≠ .violated

section Step

variable [DecidableEq τ] [DecidableEq κ]

def step (s : State τ κ) : Action τ κ → Option (State τ κ)
  | .need t keys =>
    match s.session t with
    | ⟨[], none, .running⟩ => some (s.put t ⟨keys, none, .running⟩)
    | _ => none
  | .look t =>
    match s.session t with
    | ⟨k :: todo, none, .running⟩ => some (s.put t ⟨todo, if s.sees t k then none else some k, .running⟩)
    | _ => none
  | .insert t =>
    match s.session t with
    | ⟨todo, some k, .running⟩ =>
      match s.table k with
      | .absent => some ({ s with table := Function.update s.table k (.pending t) }.put t ⟨todo, none, .running⟩)
      | .pending _ => none
      | .committed => some ((s.settle t .absent).put t ⟨[], none, .violated⟩)
    | _ => none
  | .commit t =>
    match s.session t with
    | ⟨[], none, .running⟩ => some ((s.settle t .committed).put t ⟨[], none, .committed⟩)
    | _ => none
  | .abort t =>
    match s.session t with
    | ⟨[], none, .running⟩ => some ((s.settle t .absent).put t ⟨[], none, .aborted⟩)
    | _ => none

variable {s s' : State τ κ} {t t' : τ} {k : κ}

/-- What a step does to the table and to the session of its transaction. -/
theorem step_cases {a : Action τ κ} (h : step s a = some s') :
    (∃ t keys, a = .need t keys ∧ s.session t = ⟨[], none, .running⟩ ∧ s' = s.put t ⟨keys, none, .running⟩) ∨
    (∃ t k todo, a = .look t ∧ s.session t = ⟨k :: todo, none, .running⟩ ∧
      s' = s.put t ⟨todo, if s.sees t k then none else some k, .running⟩) ∨
    (∃ t k todo, a = .insert t ∧ s.session t = ⟨todo, some k, .running⟩ ∧ s.table k = .absent ∧
      s' = { s with table := Function.update s.table k (.pending t) }.put t ⟨todo, none, .running⟩) ∨
    (∃ t k todo, a = .insert t ∧ s.session t = ⟨todo, some k, .running⟩ ∧ s.table k = .committed ∧
      s' = (s.settle t .absent).put t ⟨[], none, .violated⟩) ∨
    (∃ t, a = .commit t ∧ s.session t = ⟨[], none, .running⟩ ∧
      s' = (s.settle t .committed).put t ⟨[], none, .committed⟩) ∨
    (∃ t, a = .abort t ∧ s.session t = ⟨[], none, .running⟩ ∧
      s' = (s.settle t .absent).put t ⟨[], none, .aborted⟩) := by
  cases a with
  | need t keys =>
    simp only [step] at h
    split at h
    case h_1 ht => cases h; exact .inl ⟨t, keys, rfl, ht, rfl⟩
    case h_2 => cases h
  | look t =>
    simp only [step] at h
    split at h
    case h_1 k todo ht => cases h; exact .inr (.inl ⟨t, k, todo, rfl, ht, rfl⟩)
    case h_2 => cases h
  | insert t =>
    simp only [step] at h
    split at h
    case h_2 => cases h
    case h_1 todo k ht =>
      cases hk : s.table k with
      | absent =>
        rw [hk] at h
        cases h
        exact .inr (.inr (.inl ⟨t, k, todo, rfl, ht, hk, rfl⟩))
      | pending t' =>
        rw [hk] at h
        cases h
      | committed =>
        rw [hk] at h
        cases h
        exact .inr (.inr (.inr (.inl ⟨t, k, todo, rfl, ht, hk, rfl⟩)))
  | commit t =>
    simp only [step] at h
    split at h
    case h_1 ht => cases h; exact .inr (.inr (.inr (.inr (.inl ⟨t, rfl, ht, rfl⟩))))
    case h_2 => cases h
  | abort t =>
    simp only [step] at h
    split at h
    case h_1 ht => cases h; exact .inr (.inr (.inr (.inr (.inr ⟨t, rfl, ht, rfl⟩))))
    case h_2 => cases h

/-! ## Runs without a violation -/

/-- Nobody has violated the constraint, or is about to. -/
structure Safe (s : State τ κ) : Prop where
  kept : Kept s
  missed : ∀ t, ∀ k ∈ (s.session t).missed, s.table k ≠ .committed

omit [DecidableEq κ] in
/-- A step of a transaction that makes no key committed for which another one is waiting. -/
theorem Safe.put (hs : Safe s) {table : κ → Entry τ} {x : Session κ} (hx : x.outcome ≠ .violated)
    (hmissed : ∀ k ∈ x.missed, table k ≠ .committed)
    (hothers : ∀ t', t' ≠ t → ∀ k ∈ (s.session t').missed, table k ≠ .committed) :
    Safe ({ s with table }.put t x) := by
  constructor
  · intro t'
    rw [put_session]
    split_ifs
    · exact hx
    · exact hs.kept t'
  · intro t' k hk
    rw [put_session] at hk
    split_ifs at hk with ht
    · exact hmissed k hk
    · exact hothers t' ht k hk

theorem safe_step {a : Action τ κ} (hs : Safe s) (hclear : Clear s a) (h : step s a = some s') : Safe s' := by
  rcases step_cases h with ⟨t, keys, -, ht, rfl⟩ | ⟨t, k, todo, -, ht, rfl⟩ | ⟨t, k, todo, -, ht, hk, rfl⟩ |
    ⟨t, k, todo, -, ht, hk, rfl⟩ | ⟨t, rfl, ht, rfl⟩ | ⟨t, -, ht, rfl⟩
  · exact hs.put nofun nofun fun t' _ => hs.missed t'
  · -- a key that is not seen is not committed
    refine hs.put nofun (fun k' hk' => ?_) fun t' _ => hs.missed t'
    by_cases hsees : s.sees t k = true
    · simp [hsees] at hk'
    · simp only [if_neg hsees, Option.mem_some_iff] at hk'
      subst hk'
      intro hcommitted
      simp [State.sees, hcommitted] at hsees
  · refine hs.put nofun nofun fun t' _ k' hk' => ?_
    rw [Function.update_apply]
    split_ifs
    · exact nofun
    · exact hs.missed t' k' hk'
  · exact absurd hk (hs.missed t k (by rw [ht]; rfl))
  · refine hs.put nofun nofun fun t' ht' k' hk' => ?_
    rw [if_neg (hclear t' ht' k' hk')]
    exact hs.missed t' k' hk'
  · refine hs.put nofun nofun fun t' _ k' hk' => ?_
    split_ifs
    · exact nofun
    · exact hs.missed t' k' hk'

omit [DecidableEq τ] [DecidableEq κ] in
theorem safe_init (table : κ → Entry τ) : Safe (init table) := ⟨fun _ => nofun, fun _ _ => nofun⟩

/-- **Nobody violates the constraint** in a run whose commits are clear. -/
theorem kept_of_clear {table : κ → Entry τ} {actions : List (Action τ κ)} (h : run step (init table) actions = some s)
    (hclear : Along step Clear (init table) actions) : Kept s :=
  (run_inv_along (fun _ _ _ hs hp hstep => safe_step hs hp hstep) (safe_init table) hclear h).kept

/-! ## Runs with one -/

/-- The transaction has violated the constraint, or is bound to. -/
def Doomed (t : τ) (s : State τ κ) : Prop :=
  (s.session t).outcome = .violated ∨
    (s.session t).outcome = .running ∧ ∃ k ∈ (s.session t).missed, s.table k = .committed

/-- A committed row stays. -/
theorem committed_step {a : Action τ κ} (hk : s.table k = .committed) (h : step s a = some s') :
    s'.table k = .committed := by
  have hne : ∀ t e, (s.settle t e).table k = .committed := by
    intro t e
    rw [settle_table, if_neg, hk]
    rw [hk]
    exact nofun
  rcases step_cases h with ⟨t, keys, -, -, rfl⟩ | ⟨t, k', todo, -, -, rfl⟩ | ⟨t, k', todo, -, -, hk', rfl⟩ |
    ⟨t, k', todo, -, -, -, rfl⟩ | ⟨t, -, -, rfl⟩ | ⟨t, -, -, rfl⟩
  · exact hk
  · exact hk
  · have hkk' : k ≠ k' := by
      rintro rfl
      rw [hk] at hk'
      cases hk'
    exact (Function.update_of_ne hkk' _ _).trans hk
  · exact hne t _
  · exact hne t _
  · exact hne t _

theorem doomed_step {a : Action τ κ} (hd : Doomed t s) (h : step s a = some s') : Doomed t s' := by
  -- a step of another transaction
  have hother : ∀ {u}, t ≠ u → (∀ x, (s'.session t) = if t = u then x else s.session t) → Doomed t s' := by
    intro u hu hx
    have hsession : s'.session t = s.session t := (hx (s.session t)).trans (if_neg hu)
    rw [Doomed, hsession]
    exact hd.imp_right fun ⟨hrunning, k, hk, hcommitted⟩ => ⟨hrunning, k, hk, committed_step hcommitted h⟩
  -- a step of a transaction with no row to insert
  have hready : ∀ {u todo}, s.session u = ⟨todo, none, .running⟩ → t ≠ u := by
    rintro u todo hu rfl
    rcases hd with hviolated | ⟨-, k, hk, -⟩
    · rw [hu] at hviolated
      cases hviolated
    · rw [hu] at hk
      cases hk
  rcases step_cases h with ⟨u, keys, -, hu, rfl⟩ | ⟨u, k, todo, -, hu, rfl⟩ | ⟨u, k, todo, -, hu, hk, rfl⟩ |
    ⟨u, k, todo, -, hu, hk, rfl⟩ | ⟨u, -, hu, rfl⟩ | ⟨u, -, hu, rfl⟩
  · exact hother (hready hu) fun x => by rw [put_session, if_neg (hready hu), if_neg (hready hu)]
  · exact hother (hready hu) fun x => by rw [put_session, if_neg (hready hu), if_neg (hready hu)]
  · have htu : t ≠ u := by
      rintro rfl
      rcases hd with hviolated | ⟨-, k', hk', hcommitted⟩
      · rw [hu] at hviolated
        cases hviolated
      · rw [hu] at hk'
        cases hk'
        rw [hk] at hcommitted
        cases hcommitted
    exact hother htu fun x => by rw [put_session, if_neg htu, if_neg htu]
  · by_cases htu : t = u
    · subst htu
      refine .inl ?_
      rw [put_session, if_pos rfl]
    · exact hother htu fun x => by rw [put_session, if_neg htu, if_neg htu, settle_session]
  · exact hother (hready hu) fun x => by rw [put_session, if_neg (hready hu), if_neg (hready hu), settle_session]
  · exact hother (hready hu) fun x => by rw [put_session, if_neg (hready hu), if_neg (hready hu), settle_session]

/-- Only a running transaction has a row to insert. -/
def Waiting (s : State τ κ) : Prop := ∀ t, (s.session t).missed ≠ none → (s.session t).outcome = .running

theorem waiting_step {a : Action τ κ} (hs : Waiting s) (h : step s a = some s') : Waiting s' := by
  have hput : ∀ (table : κ → Entry τ) u (x : Session κ), (x.missed ≠ none → x.outcome = .running) →
      Waiting ({ s with table }.put u x) := by
    intro table u x hx t ht
    rw [put_session] at ht ⊢
    split_ifs at ht ⊢
    · exact hx ht
    · exact hs t ht
  rcases step_cases h with ⟨u, keys, -, -, rfl⟩ | ⟨u, k, todo, -, -, rfl⟩ | ⟨u, k, todo, -, -, -, rfl⟩ |
    ⟨u, k, todo, -, -, -, rfl⟩ | ⟨u, -, -, rfl⟩ | ⟨u, -, -, rfl⟩
  · exact hput _ u _ fun _ => rfl
  · exact hput _ u _ fun _ => rfl
  · exact hput _ u _ fun _ => rfl
  · exact hput _ u _ fun hmissed => absurd rfl hmissed
  · exact hput _ u _ fun hmissed => absurd rfl hmissed
  · exact hput _ u _ fun hmissed => absurd rfl hmissed

omit [DecidableEq τ] [DecidableEq κ] in
theorem waiting_init (table : κ → Entry τ) : Waiting (init table) := fun _ h => absurd rfl h

/-- The commit of a row dooms a transaction that is about to insert it. -/
theorem doomed_commit (hs : Waiting s) (htt' : t' ≠ t) (hk : k ∈ (s.session t').missed)
    (hpending : s.table k = .pending t) (h : step s (.commit t) = some s') : Doomed t' s' := by
  have hrunning : (s.session t').outcome = .running := hs t' (by rw [Option.mem_def.mp hk]; exact nofun)
  obtain ⟨-, rfl⟩ : s.session t = ⟨[], none, .running⟩ ∧ s' = (s.settle t .committed).put t ⟨[], none, .committed⟩ := by
    simpa using step_cases h
  have hsession : (((s.settle t .committed).put t ⟨[], none, .committed⟩).session t') = s.session t' := by
    rw [put_session, if_neg htt', settle_session]
  refine .inr ⟨by rw [hsession, hrunning], k, by rw [hsession]; exact hk, ?_⟩
  rw [put_table, settle_table, if_pos hpending]

/-- If nobody is about to insert a row, only a run whose commits are clear keeps the constraint. -/
theorem clear_of_kept {table : κ → Entry τ} {actions : List (Action τ κ)} (h : run step (init table) actions = some s)
    (hidle : ∀ t, (s.session t).missed = none) (hkept : Kept s) : Along step Clear (init table) actions := by
  refine along_of_at h fun before a after u hactions hu => ?_
  by_contra hclear
  subst hactions
  obtain ⟨u', hbefore, hafter⟩ := run_append_iff.mp h
  obtain rfl : u = u' := Option.some.inj (hu.symm.trans hbefore)
  obtain ⟨v, hv, hrest⟩ := run_cons_iff.mp hafter
  have hwaiting : Waiting u := run_inv (fun _ _ _ => waiting_step) (waiting_init table) hu
  cases a with
  | commit t =>
    simp only [Clear, not_forall, not_not] at hclear
    obtain ⟨t', htt', k, hk, hpending⟩ := hclear
    -- it is doomed from here on
    have hdoomed : Doomed t' s := run_inv (fun _ _ _ => doomed_step) (doomed_commit hwaiting htt' hk hpending hv) hrest
    rcases hdoomed with hviolated | ⟨-, k', hk', -⟩
    · exact hkept t' hviolated
    · rw [hidle t'] at hk'
      cases hk'
  | need | look | insert | abort => exact hclear trivial

/-! ## One transaction alone -/

/-- The table with the rows of the keys. -/
def makeRows (table : κ → Entry τ) (t : τ) (keys : List κ) : κ → Entry τ :=
  fun k => if k ∈ keys ∧ table k = .absent then .pending t else table k

/-- No other transaction has a row pending. -/
def Alone (table : κ → Entry τ) (t : τ) : Prop := ∀ k t', table k = .pending t' → t' = t

theorem Alone.makeRows {table : κ → Entry τ} (halone : Alone table t) (keys : List κ) :
    Alone (makeRows table t keys) t := by
  intro k t' hk
  unfold LazyRows.makeRows at hk
  split_ifs at hk
  · cases hk
    rfl
  · exact halone k t' hk

/-- **Alone, a transaction makes the rows that it needs** and were not there, and no others. -/
theorem run_solo (keys : List κ) (hs : s.session t = ⟨keys, none, .running⟩) (halone : Alone s.table t) :
    ∃ actions, (∀ a ∈ actions, a = .look t ∨ a = .insert t) ∧
      run step s actions = some ({ s with table := makeRows s.table t keys }.put t ⟨[], none, .running⟩) := by
  induction keys generalizing s with
  | nil =>
    refine ⟨[], fun _ ha => absurd ha List.not_mem_nil, ?_⟩
    have htable : makeRows s.table t [] = s.table := funext fun k => if_neg fun hk => List.not_mem_nil hk.1
    rw [run_nil, htable, State.put, ← hs, Function.update_eq_self]
  | cons k keys ih =>
    have hlook : step s (.look t) = some (s.put t ⟨keys, if s.sees t k then none else some k, .running⟩) := by
      simp only [step, hs]
    by_cases hsees : s.sees t k = true
    · -- the row is there
      rw [if_pos hsees] at hlook
      have hs₁ : (s.put t ⟨keys, none, .running⟩).session t = ⟨keys, none, .running⟩ := by rw [put_session, if_pos rfl]
      obtain ⟨actions, hactions, hrun⟩ := ih hs₁ halone
      have hpresent : s.table k ≠ .absent := by
        intro habsent
        simp [State.sees, habsent] at hsees
      have htable : makeRows s.table t (k :: keys) = makeRows s.table t keys := by
        funext k'
        by_cases hk' : k' = k
        · subst hk'
          simp [makeRows, hpresent]
        · simp [makeRows, hk']
      refine ⟨.look t :: actions, List.forall_mem_cons.mpr ⟨.inl rfl, hactions⟩, run_cons_iff.mpr ⟨_, hlook, ?_⟩⟩
      rw [hrun, htable]
      simp [State.put]
    · rw [if_neg hsees] at hlook
      have habsent : s.table k = .absent := by
        cases hk : s.table k with
        | absent => rfl
        | pending t' =>
          rw [halone k t' hk] at hk
          simp [State.sees, hk] at hsees
        | committed => simp [State.sees, hk] at hsees
      let s₁ := s.put t ⟨keys, some k, .running⟩
      let s₂ := { s₁ with table := Function.update s.table k (.pending t) }.put t ⟨keys, none, .running⟩
      have hinsert : step s₁ (.insert t) = some s₂ := by
        simp [step, s₁, s₂, habsent]
      have halone₂ : Alone s₂.table t := by
        intro k' t' hk'
        simp only [s₂, put_table, Function.update_apply] at hk'
        split_ifs at hk'
        · cases hk'
          rfl
        · exact halone k' t' hk'
      obtain ⟨actions, hactions, hrun⟩ := ih (s := s₂) (by simp only [s₂, put_session, if_pos]) halone₂
      have htable : makeRows s₂.table t keys = makeRows s.table t (k :: keys) := by
        funext k'
        by_cases hk' : k' = k
        · subst hk'
          simp [makeRows, s₂, habsent]
        · simp [makeRows, s₂, hk']
      refine ⟨.look t :: .insert t :: actions,
        List.forall_mem_cons.mpr ⟨.inl rfl, List.forall_mem_cons.mpr ⟨.inr rfl, hactions⟩⟩,
        run_cons_iff.mpr ⟨s₁, hlook, run_cons_iff.mpr ⟨s₂, hinsert, ?_⟩⟩⟩
      rw [hrun, htable]
      simp [State.put, s₁, s₂]

end Step

end LlmStore.Lib.LazyRows
