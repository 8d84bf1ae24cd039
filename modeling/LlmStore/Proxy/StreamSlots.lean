import LlmStore.Lib.Tally
import LlmStore.Proxy.Slots

/-!
# The concurrency limit and open streams

`_forward` returns from inside `async with self.queue_manager.slot(...)` as soon as its stream is opened, so the slot is
released while `event_stream` still reads from the backend. Such a stream is `orphaned`: it is in progress and counted
nowhere. The limit holds in every run in which no slot is granted while the counted generations and the orphaned
streams together have used it up (`inProgress_le`); without this condition it is passed (`limit_passed`).
-/

namespace LlmStore.Slots

open LlmStore.Lib

section Limit

variable {κ : Type*} [Fintype κ] [DecidableEq κ] (calls : κ → Call)

/-- Counts the calls on backend `b` whose phase is as asked. -/
def onBackend (b : BackendId) (asked : Phase → Bool) : κ → Phase → ℤ := fun c p =>
  if (calls c).backendId = some b ∧ asked p = true then 1 else 0

/-- The calls that hold a slot of the backend. -/
def held (b : BackendId) (s : State κ) : ℤ := tally (onBackend calls b Phase.holds) s.phase

/-- The open streams of the backend whose slot has been released. -/
def orphans (b : BackendId) (s : State κ) : ℤ := tally (onBackend calls b Phase.orphaned) s.phase

/-- The generations in progress on the backend. -/
def inProgress (b : BackendId) (s : State κ) : ℤ := tally (onBackend calls b Phase.inProgress) s.phase

/-- A slot of `b` is only granted while the counted generations and the orphaned streams are fewer than the limit. -/
def GrantedInLimit (b : BackendId) (s : State κ) : Action κ → Prop
  | .tryAcquire c => (calls c).backendId = some b → ∀ row ∈ s.backends b,
      row.currentRunning < row.limit → row.currentRunning + orphans calls b s < row.limit
  | _ => True

instance (b : BackendId) (s : State κ) : ∀ a, Decidable (GrantedInLimit calls b s a)
  | .tryAcquire c => inferInstanceAs (Decidable ((calls c).backendId = some b → ∀ row ∈ s.backends b,
      row.currentRunning < row.limit → row.currentRunning + orphans calls b s < row.limit))
  | .beforeCall .. | .enter _ | .giveUp _ | .send .. | .answer .. | .release _ | .leave _ | .finish _
  | .setActive .. => .isTrue trivial

variable {calls}

omit [Fintype κ] [DecidableEq κ] in
theorem onBackend_nonneg (b : BackendId) (asked : Phase → Bool) (c : κ) (p : Phase) :
    0 ≤ onBackend calls b asked c p := by
  unfold onBackend
  split_ifs <;> omega

variable (calls) in
omit [DecidableEq κ] in
/-- A generation in progress is counted by its slot or orphaned. -/
theorem inProgress_le_held_add_orphans (b : BackendId) (s : State κ) :
    inProgress calls b s ≤ held calls b s + orphans calls b s := by
  rw [held, orphans, ← tally_add]
  refine tally_mono fun c => ?_
  generalize s.phase c = p
  by_cases hb : (calls c).backendId = some b
  · rcases p with _ | _ | _ | _ | _ | (_ | _) | (_ | _) | _ | _ <;>
      simp [onBackend, hb, Phase.inProgress, Phase.holds, Phase.orphaned]
  · simp [onBackend, hb]

theorem held_setPhase (b : BackendId) (s : State κ) (c : κ) (p : Phase) :
    held calls b (s.setPhase c p) = held calls b s - onBackend calls b Phase.holds c (s.phase c) +
      onBackend calls b Phase.holds c p := tally_update _ _ _ _

theorem orphans_setPhase (b : BackendId) (s : State κ) (c : κ) (p : Phase) :
    orphans calls b (s.setPhase c p) = orphans calls b s - onBackend calls b Phase.orphaned c (s.phase c) +
      onBackend calls b Phase.orphaned c p := tally_update _ _ _ _

/-! ## The invariant -/

/-- The column counts every held slot, and together with the orphaned streams it stays within the limit. -/
structure Inv (calls : κ → Call) (b : BackendId) (m : ℤ) (s : State κ) : Prop where
  row : ∃ row, s.backends b = some row ∧ row.maxParallelRequests = m ∧ held calls b s ≤ row.currentRunning ∧
    row.currentRunning + orphans calls b s ≤ m

variable {b : BackendId} {m : ℤ} {s : State κ}

theorem limit_eq {row : InferenceBackend} (hm : 1 ≤ m) (h : row.maxParallelRequests = m) : row.limit = m := by
  unfold InferenceBackend.limit
  rw [h, if_neg (by omega)]
  omega

/-- A call that changes its phase without taking or giving back a slot, and does not become orphaned. -/
theorem Inv.setPhase (hi : Inv calls b m s) {c : κ} {p : Phase}
    (hh : onBackend calls b Phase.holds c p = onBackend calls b Phase.holds c (s.phase c))
    (ho : onBackend calls b Phase.orphaned c p ≤ onBackend calls b Phase.orphaned c (s.phase c)) :
    Inv calls b m (s.setPhase c p) := by
  obtain ⟨row, hrow, hmax, hheld, hlim⟩ := hi.row
  refine ⟨row, hrow, hmax, ?_, ?_⟩
  · rw [held_setPhase, hh]; omega
  · rw [orphans_setPhase]; omega

omit [Fintype κ] [DecidableEq κ] in
/-- A call on another backend, or on none, does not matter for `b`. -/
theorem onBackend_other {c : κ} (h : (calls c).backendId ≠ some b) (asked : Phase → Bool) (p : Phase) :
    onBackend calls b asked c p = 0 := by simp [onBackend, h]

omit [Fintype κ] [DecidableEq κ] in
theorem onBackend_on {c : κ} (h : (calls c).backendId = some b) (asked : Phase → Bool) (p : Phase) :
    onBackend calls b asked c p = if asked p = true then 1 else 0 := by simp [onBackend, h]

omit [DecidableEq κ] in
theorem inv_init (calls : κ → Call) {db : BackendId → Option InferenceBackend} {row : InferenceBackend}
    (hrow : db b = some row) (hmax : row.maxParallelRequests = m) (h0 : 0 ≤ row.currentRunning)
    (hle : row.currentRunning ≤ m) : Inv calls b m (init db) := by
  have hheld : held calls b (init db : State κ) = 0 :=
    Finset.sum_eq_zero fun c _ => by simp [onBackend, init, Phase.holds]
  have horphans : orphans calls b (init db : State κ) = 0 :=
    Finset.sum_eq_zero fun c _ => by simp [onBackend, init, Phase.orphaned]
  exact ⟨row, hrow, hmax, by omega, by omega⟩

/-- Granting a slot, or polling in vain. -/
theorem inv_tryAcquire (hm : 1 ≤ m) (hi : Inv calls b m s) {c : κ} {b' : BackendId}
    (hb' : (calls c).backendId = some b') (hp : s.phase c = .waiting)
    (hg : GrantedInLimit calls b s (.tryAcquire c)) :
    Inv calls b m ((s.setBackend b' (Slots.tryAcquire (s.backends b')).2).setPhase c
      (if (Slots.tryAcquire (s.backends b')).1 then .inSlot else .waiting)) := by
  obtain ⟨row, hrow, hmax, hheld, hlim⟩ := hi.row
  by_cases hbb : b' = b
  · subst hbb
    have hl := limit_eq hm hmax
    by_cases hgrant : row.isActive = true ∧ row.currentRunning < row.limit
    · have hacq : Slots.tryAcquire (s.backends b') =
          (true, some { row with currentRunning := row.currentRunning + 1 }) := by
        simp [Slots.tryAcquire, hrow, hgrant.1, hgrant.2]
      have hroom := hg hb' row (Option.mem_def.mpr hrow) hgrant.2
      refine ⟨{ row with currentRunning := row.currentRunning + 1 }, ?_, hmax, ?_, ?_⟩
      · simp [State.setPhase, State.setBackend, hacq]
      · rw [hacq, held_setPhase, onBackend_on hb', onBackend_on hb']
        simp only [State.setBackend, hp, Phase.holds]
        change held calls b' s - _ + _ ≤ _
        simp only [Bool.false_eq_true, ↓reduceIte]
        omega
      · rw [hacq, orphans_setPhase, onBackend_on hb', onBackend_on hb']
        simp only [State.setBackend, hp, Phase.orphaned]
        change _ + (orphans calls b' s - _ + _) ≤ _
        simp only [Bool.false_eq_true, ↓reduceIte]
        omega
    · have hacq : Slots.tryAcquire (s.backends b') = (false, s.backends b') := by
        rw [hrow]
        cases ha : row.isActive with
        | false => simp [Slots.tryAcquire, ha]
        | true =>
          have hfull : row.limit ≤ row.currentRunning := by
            by_contra hlt
            exact hgrant ⟨ha, by omega⟩
          simp [Slots.tryAcquire, ha, hfull]
      have hsame : s.setBackend b' (s.backends b') = s := by
        simp [State.setBackend]
      rw [hacq]
      simp only [Bool.false_eq_true, ↓reduceIte, hsame]
      exact hi.setPhase (by rw [hp]) (by rw [hp])
  · have hne : (calls c).backendId ≠ some b := by rw [hb']; simpa using hbb
    have hs : Inv calls b m (s.setBackend b' (Slots.tryAcquire (s.backends b')).2) :=
      ⟨row, by simpa [State.setBackend, Function.update_of_ne (Ne.symm hbb)] using hrow, hmax, hheld, hlim⟩
    exact hs.setPhase (by rw [onBackend_other hne, onBackend_other hne]) (by rw [onBackend_other hne, onBackend_other hne])

/-- Giving a slot back. An open stream becomes orphaned. -/
theorem inv_release (hi : Inv calls b m s) {c : κ} {b' : BackendId} {opened : Bool}
    (hb' : (calls c).backendId = some b') (hp : s.phase c = .leaving opened) :
    Inv calls b m ((s.setBackend b' (Slots.release (s.backends b'))).setPhase c (.returning opened)) := by
  obtain ⟨row, hrow, hmax, hheld, hlim⟩ := hi.row
  by_cases hbb : b' = b
  · subst hbb
    -- the call itself is counted, so the column is positive
    have hone : 1 ≤ held calls b' s := by
      refine le_trans ?_ (le_tally (fun c => onBackend_nonneg b' Phase.holds c _) c)
      simp [onBackend, hb', hp, Phase.holds]
    have hrel : Slots.release (s.backends b') = some { row with currentRunning := row.currentRunning - 1 } := by
      simp only [Slots.release, hrow, Option.some.injEq]
      rw [max_eq_left (by omega)]
    refine ⟨{ row with currentRunning := row.currentRunning - 1 }, ?_, hmax, ?_, ?_⟩
    · simp [State.setPhase, State.setBackend, hrel]
    · rw [held_setPhase, onBackend_on hb', onBackend_on hb']
      simp only [State.setBackend, hp, Phase.holds]
      change held calls b' s - _ + _ ≤ _
      simp only [Bool.false_eq_true, ↓reduceIte]
      omega
    · rw [orphans_setPhase, onBackend_on hb', onBackend_on hb']
      simp only [State.setBackend, hp]
      change _ + (orphans calls b' s - _ + _) ≤ _
      cases opened <;> simp [Phase.orphaned] <;> omega
  · have hne : (calls c).backendId ≠ some b := by rw [hb']; simpa using hbb
    have hs : Inv calls b m (s.setBackend b' (Slots.release (s.backends b'))) :=
      ⟨row, by simpa [State.setBackend, Function.update_of_ne (Ne.symm hbb)] using hrow, hmax, hheld, hlim⟩
    exact hs.setPhase (by rw [onBackend_other hne, onBackend_other hne]) (by rw [onBackend_other hne, onBackend_other hne])

omit [DecidableEq κ] in
theorem inv_setActive (hi : Inv calls b m s) (b' : BackendId) (on : Bool) :
    Inv calls b m (s.setBackend b' ((s.backends b').map fun row => { row with isActive := on })) := by
  obtain ⟨row, hrow, hmax, hheld, hlim⟩ := hi.row
  by_cases hbb : b' = b
  · subst hbb
    exact ⟨{ row with isActive := on }, by simp [State.setBackend, hrow], hmax, hheld, hlim⟩
  · exact ⟨row, by simpa [State.setBackend, Function.update_of_ne (Ne.symm hbb)] using hrow, hmax, hheld, hlim⟩

variable {maxQueueSize : ℕ}

/-- **One step keeps the invariant** if it grants no slot beyond the limit. -/
theorem step_inv (hm : 1 ≤ m) {a : Action κ} {s' : State κ} (hi : Inv calls b m s) (hg : GrantedInLimit calls b s a)
    (h : step calls maxQueueSize s a = some s') : Inv calls b m s' := by
  cases a with
  | beforeCall c ok =>
    simp only [step, Option.ite_none_right_eq_some, Option.some.injEq] at h
    obtain ⟨hp, rfl⟩ := h
    cases ok <;> exact hi.setPhase (by simp [onBackend, hp, Phase.holds]) (by simp [onBackend, hp, Phase.orphaned])
  | enter c =>
    simp only [step, Option.ite_none_right_eq_some] at h
    obtain ⟨hp, h⟩ := h
    split_ifs at h with hfull hsome <;> cases h
    · exact hi.setPhase (by simp [onBackend, hp, Phase.holds]) (by simp [onBackend, hp, Phase.orphaned])
    · exact Inv.setPhase (s := { s with pending := s.pending + 1 }) ⟨hi.row⟩
        (by simp [onBackend, hp, Phase.holds]) (by simp [onBackend, hp, Phase.orphaned])
    · have hne : (calls c).backendId ≠ some b := fun e => by simp [e] at hsome
      exact Inv.setPhase (s := { s with pending := s.pending + 1 }) ⟨hi.row⟩
        (by rw [onBackend_other hne, onBackend_other hne]) (by rw [onBackend_other hne, onBackend_other hne])
  | tryAcquire c =>
    simp only [step] at h
    cases hb' : (calls c).backendId with
    | none => simp [hb'] at h
    | some b' =>
      simp only [hb', Option.ite_none_right_eq_some, Option.some.injEq] at h
      obtain ⟨hp, rfl⟩ := h
      exact inv_tryAcquire hm hi hb' hp hg
  | giveUp c =>
    simp only [step, Option.ite_none_right_eq_some, Option.some.injEq] at h
    obtain ⟨hp, rfl⟩ := h
    exact hi.setPhase (by simp [onBackend, hp, Phase.holds]) (by simp [onBackend, hp, Phase.orphaned])
  | send c ok =>
    simp only [step, Option.ite_none_right_eq_some, Option.some.injEq] at h
    obtain ⟨hp, rfl⟩ := h
    refine hi.setPhase ?_ ?_
    · split_ifs <;> simp [onBackend, hp, Phase.holds]
    · split_ifs <;> simp [onBackend, hp, Phase.orphaned]
  | answer c retry =>
    simp only [step, Option.ite_none_right_eq_some, Option.some.injEq] at h
    obtain ⟨hp, rfl⟩ := h
    cases retry <;> exact hi.setPhase (by simp [onBackend, hp, Phase.holds]) (by simp [onBackend, hp, Phase.orphaned])
  | release c =>
    simp only [step] at h
    split at h
    · rename_i opened hp
      cases hb' : (calls c).backendId with
      | none =>
        simp only [hb', Option.some.injEq] at h
        subst h
        have hne : (calls c).backendId ≠ some b := by simp [hb']
        exact hi.setPhase (by rw [onBackend_other hne, onBackend_other hne])
          (by rw [onBackend_other hne, onBackend_other hne])
      | some b' =>
        simp only [hb', Option.some.injEq] at h
        subst h
        exact inv_release hi hb' hp
    · cases h
  | leave c =>
    simp only [step] at h
    split at h
    · rename_i opened hp
      cases h
      cases opened <;> exact Inv.setPhase (s := { s with pending := s.pending - 1 }) ⟨hi.row⟩
        (by simp [onBackend, hp, Phase.holds]) (by simp [onBackend, hp, Phase.orphaned])
    · cases h
  | finish c =>
    simp only [step, Option.ite_none_right_eq_some, Option.some.injEq] at h
    obtain ⟨hp, rfl⟩ := h
    refine hi.setPhase (by simp [onBackend, hp, Phase.holds]) ?_
    rw [hp]
    exact (if_neg (by simp [Phase.orphaned])).trans_le (onBackend_nonneg b _ c _)
  | setActive b' on =>
    simp only [step, Option.some.injEq] at h
    subst h
    exact inv_setActive hi b' on

/-- **The limit holds in every state of a run that grants no slot beyond it.** -/
theorem inProgress_le (calls : κ → Call) (maxQueueSize : ℕ) (b : BackendId) (m : ℤ) (hm : 1 ≤ m)
    (db : BackendId → Option InferenceBackend) (row : InferenceBackend) (hrow : db b = some row)
    (hmax : row.maxParallelRequests = m) (h0 : 0 ≤ row.currentRunning) (hle : row.currentRunning ≤ m)
    (acts : List (Action κ)) (s : State κ) (h : run (step calls maxQueueSize) (init db) acts = some s)
    (hg : Along (step calls maxQueueSize) (GrantedInLimit calls b) (init db) acts) :
    inProgress calls b s ≤ m := by
  have hi : Inv calls b m s :=
    run_inv_along (fun t a t' hi hg hs => step_inv hm hi hg hs) (inv_init calls hrow hmax h0 hle) hg h
  obtain ⟨row', -, -, hheld, hlim⟩ := hi.row
  have := inProgress_le_held_add_orphans calls b s
  omega

end Limit

/-! ## A backend with a limit of one -/

/-- Two streams on backend `0`. -/
def twoStreams : Fin 2 → Call := fun _ => { backendId := some 0, stream := true }

def oneSlot : BackendId → Option InferenceBackend := fun b =>
  if b = 0 then some { isActive := true, maxParallelRequests := 1, currentRunning := 0 } else none

/-- The second stream waits until the first one is read to its end. -/
theorem inProgress_le_in_turn :
    inProgress twoStreams 0 (((run (step twoStreams 10) (init oneSlot)
      [.beforeCall 0 true, .enter 0, .tryAcquire 0, .send 0 true, .release 0, .leave 0, .finish 0,
        .beforeCall 1 true, .enter 1, .tryAcquire 1, .send 1 true]).getD (init oneSlot))) ≤ 1 := by
  refine inProgress_le twoStreams 10 0 1 le_rfl oneSlot
    { isActive := true, maxParallelRequests := 1, currentRunning := 0 } rfl rfl le_rfl (by decide)
    [.beforeCall 0 true, .enter 0, .tryAcquire 0, .send 0 true, .release 0, .leave 0, .finish 0,
      .beforeCall 1 true, .enter 1, .tryAcquire 1, .send 1 true] _ rfl (by decide)

/-- **The limit is passed**: the slot of the first stream is free again as soon as the stream is opened. -/
theorem limit_passed :
    ¬ ∀ s, run (step twoStreams 10) (init oneSlot)
      [.beforeCall 0 true, .enter 0, .tryAcquire 0, .send 0 true, .release 0, .leave 0,
        .beforeCall 1 true, .enter 1, .tryAcquire 1, .send 1 true] = some s → inProgress twoStreams 0 s ≤ 1 := by
  intro h
  exact absurd (h _ rfl) (by decide)

end LlmStore.Slots
