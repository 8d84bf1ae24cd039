import LlmStore.Proxy.StreamSlots

/-!
# Slot accounting

`QueueManager.slot` counts the contexts that are past its entry check in `pending`, and the slot manager counts the slots
that they hold in `current_running`. Both counts are kept in every order of the contexts' steps and whichever way each of
them ends (`slots_conserved`): an increment and its decrement are on the same paths, and no decrement is cut off at zero.
-/

namespace LlmStore.Slots

open LlmStore.Lib

/-- The context is past the entry check of the queue and has not left. -/
def Phase.queued : Phase → Bool
  | .waiting | .inSlot | .posting | .leaving _ | .returning _ => true
  | _ => false

section Accounting

variable {κ : Type*} [Fintype κ] [DecidableEq κ]

/-- The contexts that are counted in `pending`. -/
def queued (s : State κ) : ℤ := tally (fun _ p => if Phase.queued p = true then 1 else 0) s.phase

variable (calls : κ → Call) (maxQueueSize : ℕ) (db : BackendId → Option InferenceBackend)

/-- `pending` and every `current_running` are what the contexts account for, beyond what `db` starts with. -/
structure Conserved (s : State κ) : Prop where
  pending : (s.pending : ℤ) = queued s
  pending_le : s.pending ≤ maxQueueSize
  running : ∀ b row, db b = some row → ∃ row', s.backends b = some row' ∧
    row'.maxParallelRequests = row.maxParallelRequests ∧
    row'.currentRunning = row.currentRunning + held calls b s ∧
    row'.currentRunning ≤ max (max row.maxParallelRequests 1) row.currentRunning
  missing : ∀ b, db b = none → s.backends b = none

variable {calls maxQueueSize db} {s s' : State κ}

/-- The count of a phase in `pending`. -/
def place (p : Phase) : ℤ := if Phase.queued p = true then 1 else 0

theorem queued_update {c : κ} {p : Phase} (h : s'.phase = Function.update s.phase c p) :
    queued s' = queued s - place (s.phase c) + place p := by
  unfold queued
  rw [h, tally_update]
  rfl

theorem held_update {b : BackendId} {c : κ} {p : Phase} (h : s'.phase = Function.update s.phase c p) :
    held calls b s' = held calls b s - onBackend calls b Phase.holds c (s.phase c) +
      onBackend calls b Phase.holds c p := by
  unfold held
  rw [h, tally_update]

theorem limit_eq_max (row : InferenceBackend) : row.limit = max row.maxParallelRequests 1 := by
  unfold InferenceBackend.limit
  split_ifs <;> omega

/-- A change of one row that a context's new phase accounts for, and that passes no limit. -/
structure RowChange (calls : κ → Call) (b : BackendId) (c : κ) (p p' : Phase) (row row' : InferenceBackend) : Prop where
  limit : row'.maxParallelRequests = row.maxParallelRequests
  running : row'.currentRunning =
    row.currentRunning - onBackend calls b Phase.holds c p + onBackend calls b Phase.holds c p'
  le : row'.currentRunning ≤ row.currentRunning ∨ row'.currentRunning ≤ row.limit

/-- One context changes its phase, and the counts with it. -/
theorem Conserved.change (h : Conserved calls maxQueueSize db s) {c : κ} {p : Phase}
    (hphase : s'.phase = Function.update s.phase c p)
    (hpending : (s'.pending : ℤ) = s.pending - place (s.phase c) + place p) (hle : s'.pending ≤ maxQueueSize)
    (hrows : ∀ b row, s.backends b = some row → ∃ row', s'.backends b = some row' ∧
      RowChange calls b c (s.phase c) p row row')
    (hnone : ∀ b, s.backends b = none → s'.backends b = none) : Conserved calls maxQueueSize db s' := by
  refine ⟨?_, hle, fun b row hrow => ?_, fun b hb => hnone b (h.missing b hb)⟩
  · rw [hpending, h.pending, queued_update hphase]
  · obtain ⟨old, hold, hmax, hrunning, hlimit⟩ := h.running b row hrow
    obtain ⟨new, hnew, hchange⟩ := hrows b old hold
    refine ⟨new, hnew, hchange.limit.trans hmax, ?_, ?_⟩
    · rw [hchange.running, hrunning, held_update hphase]
      omega
    · have hle := hchange.le
      rw [limit_eq_max, hmax] at hle
      omega

omit [Fintype κ] [DecidableEq κ] in
/-- No row changes when a context goes on without taking or giving back a slot. -/
theorem RowChange.refl {b : BackendId} {c : κ} {p p' : Phase} (row : InferenceBackend)
    (h : onBackend calls b Phase.holds c p' = onBackend calls b Phase.holds c p) :
    RowChange calls b c p p' row row :=
  ⟨rfl, by omega, .inl le_rfl⟩

/-- A context goes on without taking or giving back a slot. -/
theorem Conserved.setPending (h : Conserved calls maxQueueSize db s) {c : κ} {p : Phase} {n : ℕ}
    (hpending : (n : ℤ) = s.pending - place (s.phase c) + place p) (hle : n ≤ maxQueueSize)
    (hholds : ∀ b, onBackend calls b Phase.holds c p = onBackend calls b Phase.holds c (s.phase c)) :
    Conserved calls maxQueueSize db ({ s with pending := n }.setPhase c p) :=
  h.change rfl hpending hle (fun b row hrow => ⟨row, hrow, .refl row (hholds b)⟩) fun _ hb => hb

/-- A context goes on without a change of the counts. -/
theorem Conserved.setPhase (h : Conserved calls maxQueueSize db s) {c : κ} {p : Phase}
    (hplace : place p = place (s.phase c)) (hholds : p.holds = (s.phase c).holds) :
    Conserved calls maxQueueSize db (s.setPhase c p) := by
  refine h.setPending ?_ h.pending_le fun b => ?_
  · omega
  · simp only [onBackend, hholds]

/-- Only the row of the context's backend changes. -/
theorem Conserved.setBackend (h : Conserved calls maxQueueSize db s) {c : κ} {p : Phase} {b : BackendId}
    (hb : (calls c).backendId = some b) {v : Option InferenceBackend} (hplace : place p = place (s.phase c))
    (hsome : ∀ row, s.backends b = some row → ∃ row', v = some row' ∧ RowChange calls b c (s.phase c) p row row')
    (hnone : s.backends b = none → v = none) :
    Conserved calls maxQueueSize db ((s.setBackend b v).setPhase c p) := by
  refine h.change rfl ?_ h.pending_le (fun b' row hrow => ?_) fun b' hb' => ?_
  · show (s.pending : ℤ) = _
    omega
  · by_cases he : b' = b
    · subst he
      obtain ⟨row', rfl, hchange⟩ := hsome row hrow
      exact ⟨row', Function.update_self _ _ _, hchange⟩
    · refine ⟨row, (Function.update_of_ne he _ _).trans hrow, .refl row ?_⟩
      have hne : (calls c).backendId ≠ some b' := fun hb' => he (Option.some.inj (hb'.symm.trans hb))
      rw [onBackend_other hne, onBackend_other hne]
  · by_cases he : b' = b
    · subst he
      exact (Function.update_self _ _ _).trans (hnone hb')
    · exact (Function.update_of_ne he _ _).trans hb'

/-! ## The steps -/

/-- A context that finds room is counted, and holds no slot of a backend yet. -/
theorem Conserved.enter (h : Conserved calls maxQueueSize db s) {c : κ} (hphase : s.phase c = .entering)
    (hroom : s.pending < maxQueueSize) : Conserved calls maxQueueSize db ({ s with pending := s.pending + 1 }.setPhase c
      (if (calls c).backendId.isSome then .waiting else .inSlot)) := by
  refine h.setPending ?_ hroom fun b => ?_
  · rw [hphase]
    split_ifs <;> simp [place, Phase.queued]
  · rw [hphase]
    cases hb : (calls c).backendId with
    | none => simp [onBackend, hb]
    | some b' => simp [onBackend, hb, Phase.holds]

/-- Trying to acquire a slot. -/
theorem Conserved.tryAcquire (h : Conserved calls maxQueueSize db s) {c : κ} {b : BackendId}
    (hb : (calls c).backendId = some b) (hphase : s.phase c = .waiting) :
    Conserved calls maxQueueSize db ((s.setBackend b (Slots.tryAcquire (s.backends b)).2).setPhase c
      (if (Slots.tryAcquire (s.backends b)).1 then .inSlot else .waiting)) := by
  refine h.setBackend hb ?_ (fun row hrow => ?_) fun hnone => ?_
  · rw [hphase]
    split_ifs <;> rfl
  · rw [hrow, hphase]
    cases hactive : row.isActive with
    | false =>
      refine ⟨row, by simp [Slots.tryAcquire, hactive], ?_⟩
      simp only [Slots.tryAcquire, hactive, Bool.not_false, if_true]
      exact .refl row rfl
    | true =>
      by_cases hfull : row.currentRunning ≥ row.limit
      · refine ⟨row, by simp [Slots.tryAcquire, hactive, hfull], ?_⟩
        simp only [Slots.tryAcquire, hactive, hfull, Bool.not_true, Bool.false_eq_true, if_true, if_false]
        exact .refl row rfl
      · refine ⟨{ row with currentRunning := row.currentRunning + 1 }, by simp [Slots.tryAcquire, hactive, hfull], ?_⟩
        simp only [Slots.tryAcquire, hactive, hfull, Bool.not_true, Bool.false_eq_true, if_true, if_false]
        refine ⟨rfl, ?_, .inr ?_⟩
        · rw [onBackend_on hb, onBackend_on hb]
          simp [Phase.holds]
        · show row.currentRunning + 1 ≤ row.limit
          omega
  · rw [hnone]
    rfl

/-- A context that holds a slot is counted, so that its release is not cut off at zero. -/
theorem Conserved.release (h : Conserved calls maxQueueSize db s)
    (hdb : ∀ b row, db b = some row → 0 ≤ row.currentRunning) {c : κ} {b : BackendId} {opened : Bool}
    (hb : (calls c).backendId = some b) (hphase : s.phase c = .leaving opened) :
    Conserved calls maxQueueSize db ((s.setBackend b (Slots.release (s.backends b))).setPhase c (.returning opened)) := by
  refine h.setBackend hb (by rw [hphase]; rfl) (fun row hrow => ?_) fun hnone => by rw [hnone]; rfl
  have hone : 1 ≤ held calls b s := by
    refine le_trans ?_ (le_tally (fun c => onBackend_nonneg b Phase.holds c _) c)
    simp [onBackend, hb, hphase, Phase.holds]
  have hpos : 1 ≤ row.currentRunning := by
    cases hstart : db b with
    | none =>
      rw [h.missing b hstart] at hrow
      cases hrow
    | some start =>
      obtain ⟨row', hrow', -, hrunning, -⟩ := h.running b start hstart
      obtain rfl := Option.some.inj (hrow.symm.trans hrow')
      have := hdb b start hstart
      omega
  refine ⟨{ row with currentRunning := row.currentRunning - 1 }, ?_, rfl, ?_, .inl ?_⟩
  · rw [hrow, Slots.release, max_eq_left (by omega)]
  · rw [hphase, onBackend_on hb, onBackend_on hb]
    simp [Phase.holds]
  · show row.currentRunning - 1 ≤ row.currentRunning
    omega

/-- A context that leaves is counted, so that the counter is not cut off at zero. -/
theorem Conserved.leave (h : Conserved calls maxQueueSize db s) {c : κ} {opened : Bool}
    (hphase : s.phase c = .returning opened) : Conserved calls maxQueueSize db
      ({ s with pending := s.pending - 1 }.setPhase c (if opened then .streaming else .ended)) := by
  have hone : (1 : ℤ) ≤ queued s := by
    refine le_trans ?_ (le_tally (fun c => ?_) c)
    · rw [hphase]
      rfl
    · split_ifs <;> omega
  have hpending := h.pending
  refine h.setPending ?_ ((Nat.sub_le _ _).trans h.pending_le) fun b => ?_
  · rw [hphase]
    cases opened <;> simp [place, Phase.queued] <;> omega
  · rw [hphase]
    cases opened <;> simp [onBackend, Phase.holds]

omit [DecidableEq κ] in
/-- A backend that is switched on or off keeps its counter. -/
theorem Conserved.setActive (h : Conserved calls maxQueueSize db s) (b : BackendId) (on : Bool) :
    Conserved calls maxQueueSize db
      (s.setBackend b ((s.backends b).map fun row => { row with isActive := on })) := by
  refine ⟨h.pending, h.pending_le, fun b' row hrow => ?_, fun b' hb' => ?_⟩
  · obtain ⟨row', hrow', hmax, hrunning, hle⟩ := h.running b' row hrow
    by_cases he : b' = b
    · subst he
      exact ⟨{ row' with isActive := on }, by simp [State.setBackend, hrow'], hmax, hrunning, hle⟩
    · exact ⟨row', by simpa [State.setBackend, Function.update_of_ne he] using hrow', hmax, hrunning, hle⟩
  · by_cases he : b' = b
    · subst he
      simp [State.setBackend, h.missing b' hb']
    · simpa [State.setBackend, Function.update_of_ne he] using h.missing b' hb'

/-- **One step keeps the counts.** -/
theorem Conserved.step (h : Conserved calls maxQueueSize db s)
    (hdb : ∀ b row, db b = some row → 0 ≤ row.currentRunning) {a : Action κ}
    (hstep : Slots.step calls maxQueueSize s a = some s') : Conserved calls maxQueueSize db s' := by
  cases a with
  | beforeCall c ok =>
    simp only [Slots.step, Option.ite_none_right_eq_some, Option.some.injEq] at hstep
    obtain ⟨hphase, rfl⟩ := hstep
    cases ok <;> exact h.setPhase (by rw [hphase]; rfl) (by rw [hphase]; rfl)
  | enter c =>
    simp only [Slots.step, Option.ite_none_right_eq_some] at hstep
    obtain ⟨hphase, hstep⟩ := hstep
    by_cases hfull : s.pending ≥ maxQueueSize
    · rw [if_pos hfull] at hstep
      cases hstep
      exact h.setPhase (by rw [hphase]; rfl) (by rw [hphase]; rfl)
    · rw [if_neg hfull] at hstep
      cases hstep
      exact h.enter hphase (Nat.lt_of_not_ge hfull)
  | tryAcquire c =>
    simp only [Slots.step] at hstep
    cases hb : (calls c).backendId with
    | none => simp [hb] at hstep
    | some b =>
      simp only [hb, Option.ite_none_right_eq_some, Option.some.injEq] at hstep
      obtain ⟨hphase, rfl⟩ := hstep
      exact h.tryAcquire hb hphase
  | giveUp c =>
    simp only [Slots.step, Option.ite_none_right_eq_some, Option.some.injEq] at hstep
    obtain ⟨hphase, rfl⟩ := hstep
    exact h.setPhase (by rw [hphase]; rfl) (by rw [hphase]; rfl)
  | send c ok =>
    simp only [Slots.step, Option.ite_none_right_eq_some, Option.some.injEq] at hstep
    obtain ⟨hphase, rfl⟩ := hstep
    refine h.setPhase ?_ ?_ <;> rw [hphase] <;> split_ifs <;> rfl
  | answer c retry =>
    simp only [Slots.step, Option.ite_none_right_eq_some, Option.some.injEq] at hstep
    obtain ⟨hphase, rfl⟩ := hstep
    cases retry <;> exact h.setPhase (by rw [hphase]; rfl) (by rw [hphase]; rfl)
  | release c =>
    simp only [Slots.step] at hstep
    split at hstep
    · rename_i opened hphase
      cases hb : (calls c).backendId with
      | none =>
        simp only [hb, Option.some.injEq] at hstep
        subst hstep
        refine h.setPending ?_ h.pending_le fun b => ?_
        · rw [hphase]
          simp [place, Phase.queued]
        · simp [onBackend, hb]
      | some b =>
        simp only [hb, Option.some.injEq] at hstep
        subst hstep
        exact h.release hdb hb hphase
    · cases hstep
  | leave c =>
    simp only [Slots.step] at hstep
    split at hstep
    · rename_i opened hphase
      cases hstep
      exact h.leave hphase
    · cases hstep
  | finish c =>
    simp only [Slots.step, Option.ite_none_right_eq_some, Option.some.injEq] at hstep
    obtain ⟨hphase, rfl⟩ := hstep
    exact h.setPhase (by rw [hphase]; rfl) (by rw [hphase]; rfl)
  | setActive b on =>
    simp only [Slots.step, Option.some.injEq] at hstep
    subst hstep
    exact h.setActive b on

omit [DecidableEq κ] in
theorem conserved_init (calls : κ → Call) (maxQueueSize : ℕ) (db : BackendId → Option InferenceBackend) :
    Conserved calls maxQueueSize db (init db) := by
  have hheld : ∀ b, held calls b (init db : State κ) = 0 := fun b =>
    Finset.sum_eq_zero fun c _ => by simp [onBackend, init, Phase.holds]
  have hqueued : queued (init db : State κ) = 0 := Finset.sum_eq_zero fun c _ => by simp [init, Phase.queued]
  refine ⟨hqueued.symm, Nat.zero_le _, fun b row hrow => ⟨row, hrow, rfl, ?_, le_max_right _ _⟩, fun b hb => hb⟩
  rw [hheld, add_zero]

omit [DecidableEq κ] in
/-- When no context is left, both counts are what they were at the start. -/
theorem Conserved.ended (h : Conserved calls maxQueueSize db s) (hended : ∀ c, (s.phase c).queued = false) :
    s.pending = 0 ∧ ∀ b row, db b = some row →
      ∃ row', s.backends b = some row' ∧ row'.currentRunning = row.currentRunning := by
  constructor
  · have hqueued : queued s = 0 := Finset.sum_eq_zero fun c _ => by simp [hended c]
    have := h.pending
    omega
  · intro b row hrow
    obtain ⟨row', hrow', -, hrunning, -⟩ := h.running b row hrow
    have hheld : held calls b s = 0 := by
      refine Finset.sum_eq_zero fun c _ => if_neg fun hholds => ?_
      have hqueued := hended c
      unfold Phase.queued at hqueued
      have hphase := hholds.2
      unfold Phase.holds at hphase
      split at hphase <;> simp_all
    exact ⟨row', hrow', by rw [hrunning, hheld, add_zero]⟩

/-- **Slot accounting is conserved**: in every state of every run `pending` and each `current_running` are the numbers of
the contexts that they stand for, beyond what the rows start with, and when all contexts have ended both are back. -/
theorem slots_conserved (calls : κ → Call) (maxQueueSize : ℕ) (db : BackendId → Option InferenceBackend)
    (hdb : ∀ b row, db b = some row → 0 ≤ row.currentRunning) (acts : List (Action κ)) (s : State κ)
    (h : run (step calls maxQueueSize) (init db) acts = some s) :
    Conserved calls maxQueueSize db s ∧
      ((∀ c, (s.phase c).queued = false) → s.pending = 0 ∧ ∀ b row, db b = some row →
        ∃ row', s.backends b = some row' ∧ row'.currentRunning = row.currentRunning) := by
  have hconserved : Conserved calls maxQueueSize db s :=
    run_inv (fun s a s' hs hstep => hs.step hdb hstep) (conserved_init calls maxQueueSize db) h
  exact ⟨hconserved, hconserved.ended⟩

end Accounting

/-- Of two streams on a backend with one slot the first has it and the second waits. -/
theorem slots_conserved_waiting :
    Conserved twoStreams 10 oneSlot (((run (step twoStreams 10) (init oneSlot)
      [.beforeCall 0 true, .enter 0, .tryAcquire 0, .beforeCall 1 true, .enter 1, .tryAcquire 1]).getD (init oneSlot))) :=
  (slots_conserved twoStreams 10 oneSlot
    (fun b row hrow => by
      unfold oneSlot at hrow
      split_ifs at hrow
      cases hrow
      exact le_rfl)
    [.beforeCall 0 true, .enter 0, .tryAcquire 0, .beforeCall 1 true, .enter 1, .tryAcquire 1] _ rfl).1

end LlmStore.Slots
