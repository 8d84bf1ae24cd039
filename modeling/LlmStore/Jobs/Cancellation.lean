import LlmStore.Jobs.Worker
import LlmStore.Lib.Run

/-!
# Cancelling a job while workers look at it

`cancel_job` and `process_generation_job` read the status of a job, decide, and write a new one later, without locking
the row they have read. `step` is one step of any number of cancellations and workers on the row of one job: a read sees
the committed status, a write locks the row until its transaction ends, a commit makes the written status the committed
one, whatever that has become since the read.

A cancellation is final in every run in which cancellations commit only over `queued` (or another cancellation), and no
worker that has read `queued` commits its first write over `cancelled` (`cancellation_final`); without this condition it
is not (`cancellation_undone`).
-/

namespace LlmStore.Jobs.Cancellation

open LlmStore.Lib LlmStore.Inference

/-! ## The system -/

inductive CancelPhase where
  | idle
  /-- The job has been read as queued. -/
  | ready
  | written
  | ended
  deriving DecidableEq

/-- What a worker's transaction makes of the row. -/
inductive Write where
  /-- `failed`, for a client that may not run jobs or a model that is gone. -/
  | refuse
  /-- `completed` and the usage, from the cache. -/
  | answerFromCache
  /-- `running`. -/
  | claim
  /-- `completed` and the usage, from a backend. -/
  | complete
  /-- `failed`, after an `HTTPException` of the proxy. -/
  | fail
  deriving DecidableEq

namespace Write

def status : Write → JobStatus
  | .refuse | .fail => .failed
  | .answerFromCache | .complete => .completed
  | .claim => .running

/-- How often the write books usage for the job. -/
def charges : Write → ℕ
  | .answerFromCache | .complete => 1
  | .refuse | .claim | .fail => 0

/-- The write belongs to the transaction that has read the row. -/
def first : Write → Bool
  | .refuse | .answerFromCache | .claim => true
  | .complete | .fail => false

end Write

inductive WorkerPhase where
  | idle
  /-- The job has been read as queued. -/
  | ready
  /-- `running` is committed. -/
  | claimed
  /-- `proxy.chat` has been called. -/
  | called
  | written (x : Write)
  | ended
  deriving DecidableEq

/-- The worker has claimed the job and is not done with it. -/
def WorkerPhase.active : WorkerPhase → Bool
  | .claimed | .called => true
  | .written x => !x.first
  | _ => false

/-- Cancellations are named by `κ`, workers by `ν`. -/
structure State (κ ν : Type*) where
  /-- The committed status. -/
  status : JobStatus
  /-- The holder of the row's lock. -/
  lock : Option (κ ⊕ ν)
  cancel : κ → CancelPhase
  worker : ν → WorkerPhase
  /-- How often `proxy.chat` has been called for the job. -/
  chats : ℕ
  /-- How often usage has been committed for the job. -/
  charges : ℕ

inductive Action (κ ν : Type*) where
  | readCancel (k : κ)
  | writeCancel (k : κ)
  | commitCancel (k : κ)
  /-- The request ends without a commit. -/
  | leaveCancel (k : κ)
  | read (j : ν)
  | write (j : ν) (x : Write)
  | commit (j : ν)
  | chat (j : ν)
  /-- The worker requeues the job, or an exception ends its work. -/
  | leave (j : ν)

section Step

variable {κ ν : Type*} [DecidableEq κ] [DecidableEq ν]

def State.setCancel (s : State κ ν) (k : κ) (p : CancelPhase) : State κ ν :=
  { s with cancel := Function.update s.cancel k p }

def State.setWorker (s : State κ ν) (j : ν) (p : WorkerPhase) : State κ ν :=
  { s with worker := Function.update s.worker j p }

/-- The lock is given up by `holder`. -/
def State.unlock (s : State κ ν) (holder : κ ⊕ ν) : State κ ν :=
  { s with lock := if s.lock = some holder then none else s.lock }

/-- Whether a worker in this phase may make the write. -/
def WorkerPhase.allows (x : Write) : WorkerPhase → Bool
  | .ready => x.first
  | .called => !x.first
  | _ => false

/-- The phase after the commit of a write. -/
def Write.next : Write → WorkerPhase
  | .claim => .claimed
  | _ => .ended

def step (s : State κ ν) : Action κ ν → Option (State κ ν)
  | .readCancel k =>
    if s.cancel k = .idle then some (s.setCancel k (if s.status = .queued then .ready else .ended)) else none
  | .writeCancel k =>
    if s.cancel k = .ready ∧ s.lock = none then some ({ s with lock := some (.inl k) }.setCancel k .written) else none
  | .commitCancel k =>
    if s.cancel k = .written then some (({ s with status := .cancelled }.unlock (.inl k)).setCancel k .ended) else none
  | .leaveCancel k => some ((s.unlock (.inl k)).setCancel k .ended)
  | .read j =>
    if s.worker j = .idle then some (s.setWorker j (if s.status = .queued then .ready else .ended)) else none
  | .write j x =>
    if (s.worker j).allows x ∧ s.lock = none then some ({ s with lock := some (.inr j) }.setWorker j (.written x))
    else none
  | .commit j =>
    match s.worker j with
    | .written x =>
      some (({ s with status := x.status, charges := s.charges + x.charges }.unlock (.inr j)).setWorker j x.next)
    | _ => none
  | .chat j =>
    if s.worker j = .claimed then some ({ s with chats := s.chats + 1 }.setWorker j .called) else none
  | .leave j => some ((s.unlock (.inr j)).setWorker j .ended)

end Step

/-- A job before anybody looks at it. -/
def init {κ ν : Type*} (status : JobStatus) : State κ ν :=
  { status, lock := none, cancel := fun _ => .idle, worker := fun _ => .idle, chats := 0, charges := 0 }

/-! ## Transactions that run alone -/

section Solo

variable {κ ν : Type*} [DecidableEq κ] [DecidableEq ν] {jobId : JobId}

/-- The steps of worker `j` on a job that takes the course. -/
def soloWorker (outcome : Models.InferenceBackend → Except Exc ForwardResult) (j : ν) : Course → List (Action κ ν)
  | .missing => []
  | .skipped _ => [.read j]
  | .refused => [.read j, .write j .refuse, .commit j]
  | .cached => [.read j, .write j .answerFromCache, .commit j]
  | .unloaded | .requeued => [.read j, .leave j]
  | .given backend =>
    [.read j, .write j .claim, .commit j, .chat j] ++
      match outcome backend with
      | .ok _ => [.write j .complete, .commit j]
      | .error e => if e.httpError.isSome then [.write j .fail, .commit j] else [.leave j]

omit [DecidableEq κ] in
@[simp] theorem setWorker_worker_self (s : State κ ν) (j : ν) (p : WorkerPhase) : (s.setWorker j p).worker j = p := by
  simp [State.setWorker]

/-- A write and its commit, by a worker that may make it. -/
theorem solo_write {s : State κ ν} {j : ν} {x : Write} (hallows : (s.worker j).allows x = true) (hlock : s.lock = none) :
    ∃ t, run step s [.write j x, .commit j] = some t ∧ t.status = x.status ∧ t.worker j = x.next ∧ t.lock = none := by
  let t := { s with lock := some (.inr j) }.setWorker j (.written x)
  have hwrite : step s (.write j x) = some t := by simp [step, hallows, hlock, t]
  have hcommit : step t (.commit j) = some
      (({ t with status := x.status, charges := t.charges + x.charges }.unlock (.inr j)).setWorker j x.next) := by
    simp only [step, t, setWorker_worker_self]
  refine ⟨_, run_cons_iff.mpr ⟨t, hwrite, run_cons_iff.mpr ⟨_, hcommit, rfl⟩⟩, rfl, setWorker_worker_self _ j _, ?_⟩
  simp [State.unlock, State.setWorker, t]

theorem solo_read (j : ν) :
    step (init .queued : State κ ν) (.read j) = some ((init .queued : State κ ν).setWorker j .ready) := by
  simp [step, init]

/-- The first transaction of a worker that finds the job queued. -/
theorem solo_first (j : ν) {x : Write} (hx : x.first = true) :
    ∃ t : State κ ν, run step (init .queued) [.read j, .write j x, .commit j] = some t ∧ t.status = x.status ∧
      t.worker j = x.next ∧ t.lock = none := by
  have hallows : (((init .queued : State κ ν).setWorker j .ready).worker j).allows x = true := by
    rw [setWorker_worker_self]
    exact hx
  obtain ⟨t, ht, hrest⟩ := solo_write hallows rfl
  exact ⟨t, run_cons_iff.mpr ⟨_, solo_read j, ht⟩, hrest⟩

/-- A worker that is alone leaves the status that `_run_once` leaves. -/
theorem runOnce_solo (settings : Settings) (outcome : Models.InferenceBackend → Except Exc ForwardResult)
    (rel : JobId → Relations) {w : World} {rest : List (Option JobId)} {s : JobStatus} (hw : Jobs.Quiet w)
    (hpop : w.queue = some jobId :: rest) (hs : statusOf jobId w.committed = some s) (j : ν) :
    ∃ t : State κ ν, run step (init s) (soloWorker outcome j (course settings w jobId (rel jobId))) = some t ∧
      statusOf jobId ((runOnce settings (fun b => ofOutcome (outcome b)) rel).exec w).2.committed = some t.status := by
  obtain ⟨-, cur, -, -, hstatus, -⟩ := runOnce_course settings outcome rel hw hpop
  have hskipped := course_skipped_iff jobId settings w (rel jobId)
  have hmissing := course_missing_iff jobId settings w (rel jobId)
  dsimp only at hstatus
  rw [hstatus]
  generalize course settings w jobId (rel jobId) = c at hskipped hmissing ⊢
  have hqueued : (∀ s', c ≠ .skipped s') → s = .queued := by
    intro hc
    by_contra hne
    exact hc s ((hskipped s).mpr ⟨hs, hne⟩)
  cases c with
  | missing => rw [hmissing.mp rfl] at hs; cases hs
  | skipped s' =>
    obtain ⟨hs', hne⟩ := (hskipped s').mp rfl
    obtain rfl := Option.some.inj (hs.symm.trans hs')
    exact ⟨_, rfl, rfl⟩
  | refused =>
    obtain rfl := hqueued nofun
    obtain ⟨t, ht, hstatus, -⟩ := solo_first (κ := κ) j (x := .refuse) rfl
    exact ⟨t, ht, by rw [hstatus]; rfl⟩
  | cached =>
    obtain rfl := hqueued nofun
    obtain ⟨t, ht, hstatus, -⟩ := solo_first (κ := κ) j (x := .answerFromCache) rfl
    exact ⟨t, ht, by rw [hstatus]; rfl⟩
  | unloaded | requeued =>
    obtain rfl := hqueued nofun
    exact ⟨_, run_cons_iff.mpr ⟨_, solo_read j, rfl⟩, rfl⟩
  | given backend =>
    obtain rfl := hqueued nofun
    obtain ⟨t, ht, hstatus, hphase, hlock⟩ := solo_first (κ := κ) j (x := .claim) rfl
    have hchat : step t (.chat j) = some ({ t with chats := t.chats + 1 }.setWorker j .called) := by
      simp [step, hphase, Write.next]
    have hcalled : ∀ {x : Write}, x.first = false →
        ((({ t with chats := t.chats + 1 } : State κ ν).setWorker j .called).worker j).allows x = true := by
      intro x hx
      rw [setWorker_worker_self]
      simp [WorkerPhase.allows, hx]
    have hprefix : run step (init .queued : State κ ν) [.read j, .write j .claim, .commit j, .chat j] =
        some ({ t with chats := t.chats + 1 }.setWorker j .called) :=
      run_append_iff.mpr ⟨t, ht, run_cons_iff.mpr ⟨_, hchat, rfl⟩⟩
    simp only [soloWorker, Course.status]
    cases outcome backend with
    | ok result =>
      obtain ⟨t', ht', hstatus', -⟩ := solo_write (hcalled (x := .complete) rfl) hlock
      refine ⟨t', ?_, by rw [hstatus']; rfl⟩
      exact run_append_iff.mpr ⟨_, hprefix, ht'⟩
    | error e =>
      by_cases he : e.httpError.isSome = true
      · obtain ⟨t', ht', hstatus', -⟩ := solo_write (hcalled (x := .fail) rfl) hlock
        refine ⟨t', ?_, by rw [hstatus']; simp [generated, he, Write.status]⟩
        simp only [if_pos he]
        exact run_append_iff.mpr ⟨_, hprefix, ht'⟩
      · let t' := { t with chats := t.chats + 1 }.setWorker j .called
        have hleave : run step t' [.leave j] = some ((t'.unlock (.inr j)).setWorker j .ended) := rfl
        refine ⟨(t'.unlock (.inr j)).setWorker j .ended, ?_, ?_⟩
        · simp only [if_neg he]
          exact run_append_iff.mpr ⟨t', hprefix, hleave⟩
        · simp only [generated, if_neg he]
          exact congrArg some hstatus.symm

omit [DecidableEq ν] in
@[simp] theorem setCancel_cancel_self (s : State κ ν) (k : κ) (p : CancelPhase) : (s.setCancel k p).cancel k = p := by
  simp [State.setCancel]

/-- The steps of a cancellation of a job with status `s`. -/
def soloCancel (k : κ) (s : JobStatus) : List (Action κ ν) :=
  if s = .queued then [.readCancel k, .writeCancel k, .commitCancel k] else [.readCancel k]

/-- A cancellation that is alone leaves the status that `cancel_generation_job` leaves. -/
theorem cancelGenerationJob_solo {w : World} {job : GenerationJob} (hw : Jobs.Quiet w)
    (hjob : w.committed.jobs.lookup jobId = some job) (k : κ) :
    ∃ t : State κ ν, run step (init job.status) (soloCancel k job.status) = some t ∧
      statusOf jobId ((cancelGenerationJob job.clientId jobId).exec w).2.committed = some t.status := by
  let w₁ := { w with current := w.committed }
  have hbegin : beginSession.exec w = (.ok (), w₁) := rfl
  have hw₁ : Jobs.Quiet w₁ := hw
  have hstatus : statusOf jobId w₁.current = some job.status := by
    show (w.committed.jobs.lookup jobId).map _ = _
    rw [hjob, Option.map_some]
  have hload : (getJobForClient job.clientId jobId).exec w₁ = (.ok (some job), w₁) := by
    refine (Program.exec_bind_ok (loadJob_exec hw₁)).trans ?_
    show (Except.ok ((w.committed.jobs.lookup jobId).filter _), _) = _
    rw [hjob, Option.filter_some]
    simp
  by_cases hs : job.status = .queued
  · have hshows : Shows jobId ⟨some job.status, some job.status, w.queue⟩ w₁ := ⟨hw₁, hstatus, hstatus, rfl⟩
    have hupdate := triple_updateJob jobId (f := fun job => { job with status := .cancelled })
      (fun _ => rfl) job.status (some job.status) w.queue
    obtain ⟨_, w₂, hw₂, hshows₂⟩ := hupdate.returns hshows
    have hcancel : (cancelJob job.clientId jobId).exec w₁ = (.ok { job with status := .cancelled }, w₂) := by
      rw [cancelJob, Program.exec_bind_ok hload]
      dsimp only
      rw [if_neg (not_not.mpr hs), Program.exec_bind_ok hw₂, Program.exec_bind_ok (await_exec hshows₂.1)]
      rfl
    have hcommitted : statusOf jobId ((cancelGenerationJob job.clientId jobId).exec w).2.committed =
        some .cancelled := by
      rw [cancelGenerationJob, Program.exec_bind_ok hbegin, Program.exec_bind_ok hcancel,
        Program.exec_bind_ok (commit_exec hshows₂.1)]
      exact hshows₂.2.1
    rw [hcommitted, soloCancel, if_pos hs, hs]
    let t₁ := (init .queued : State κ ν).setCancel k .ready
    let t₂ := { t₁ with lock := some (.inl k) }.setCancel k .written
    have hread : step (init .queued : State κ ν) (.readCancel k) = some t₁ := by simp [step, init, t₁]
    have hwrite : step t₁ (.writeCancel k) = some t₂ := by
      rw [step, setCancel_cancel_self, if_pos ⟨rfl, rfl⟩]
    have hcommit : step t₂ (.commitCancel k) =
        some (({ t₂ with status := .cancelled }.unlock (.inl k)).setCancel k .ended) := by
      rw [step, setCancel_cancel_self, if_pos rfl]
    exact ⟨_, run_cons_iff.mpr ⟨_, hread, run_cons_iff.mpr ⟨_, hwrite, run_cons_iff.mpr ⟨_, hcommit, rfl⟩⟩⟩, rfl⟩
  · have hcancel : (cancelJob job.clientId jobId).exec w₁ =
        (.error (.http 409 (.text "job can only be cancelled while queued")), w₁) := by
      rw [cancelJob, Program.exec_bind_ok hload]
      dsimp only
      rw [if_pos hs]
      rfl
    refine ⟨(init job.status).setCancel k .ended, ?_, ?_⟩
    · simp [soloCancel, run, step, hs, init]
    · rw [cancelGenerationJob, Program.exec_bind_ok hbegin, Program.exec_bind_error hcancel]
      exact hstatus

end Solo

section Final

variable {κ ν : Type*} [DecidableEq κ] [DecidableEq ν] {s s' : State κ ν} {a : Action κ ν}

/-! ## What one step does -/

omit [DecidableEq κ] in
/-- A worker that is active after a change of one phase was active before, if the changed one was. -/
theorem active_of_setWorker {s : State κ ν} {j : ν} {p : WorkerPhase}
    (hp : p.active = true → (s.worker j).active = true) (i : ν) (hi : ((s.setWorker j p).worker i).active = true) :
    (s.worker i).active = true := by
  by_cases hij : i = j
  · subst hij
    exact hp (by simpa [State.setWorker] using hi)
  · simpa [State.setWorker, hij] using hi

/-- Nothing is committed: status and charges stay, and only an active worker calls the proxy or stays active. -/
structure Uncommitted (s s' : State κ ν) : Prop where
  status : s'.status = s.status
  charges : s'.charges = s.charges
  chats : s'.chats = s.chats ∨ ∃ j, (s.worker j).active = true
  active : ∀ j, (s'.worker j).active = true → (s.worker j).active = true

/-- A step commits nothing, or a cancellation, or the write of a worker. -/
theorem step_cases (h : step s a = some s') : Uncommitted s s' ∨
    (∃ k, a = .commitCancel k ∧ s'.status = .cancelled ∧ s'.charges = s.charges ∧ s'.chats = s.chats ∧
      s'.worker = s.worker) ∨
    ∃ j x, a = .commit j ∧ s.worker j = .written x ∧ s'.status = x.status := by
  cases a with
  | readCancel k =>
    simp only [step, Option.ite_none_right_eq_some, Option.some.injEq] at h
    obtain ⟨-, rfl⟩ := h
    exact .inl ⟨rfl, rfl, .inl rfl, fun _ hj => hj⟩
  | writeCancel k =>
    simp only [step, Option.ite_none_right_eq_some, Option.some.injEq] at h
    obtain ⟨-, rfl⟩ := h
    exact .inl ⟨rfl, rfl, .inl rfl, fun _ hj => hj⟩
  | commitCancel k =>
    simp only [step, Option.ite_none_right_eq_some, Option.some.injEq] at h
    obtain ⟨-, rfl⟩ := h
    exact .inr (.inl ⟨k, rfl, rfl, rfl, rfl, rfl⟩)
  | leaveCancel k =>
    simp only [step, Option.some.injEq] at h
    subst h
    exact .inl ⟨rfl, rfl, .inl rfl, fun _ hj => hj⟩
  | read j =>
    simp only [step, Option.ite_none_right_eq_some, Option.some.injEq] at h
    obtain ⟨-, rfl⟩ := h
    refine .inl ⟨rfl, rfl, .inl rfl, active_of_setWorker fun hp => ?_⟩
    split_ifs at hp <;> cases hp
  | write j x =>
    simp only [step, Option.ite_none_right_eq_some, Option.some.injEq] at h
    obtain ⟨⟨hallows, -⟩, rfl⟩ := h
    refine .inl ⟨rfl, rfl, .inl rfl, active_of_setWorker fun hp => ?_⟩
    show (s.worker j).active = true
    cases hphase : s.worker j <;> rw [hphase] at hallows <;> simp_all [WorkerPhase.allows, WorkerPhase.active]
  | commit j =>
    cases hphase : s.worker j with
    | written x =>
      simp only [step, hphase, Option.some.injEq] at h
      subst h
      exact .inr (.inr ⟨j, x, rfl, hphase, rfl⟩)
    | _ => simp [step, hphase] at h
  | chat j =>
    simp only [step, Option.ite_none_right_eq_some, Option.some.injEq] at h
    obtain ⟨hphase, rfl⟩ := h
    have hj : (s.worker j).active = true := by rw [hphase]; rfl
    exact .inl ⟨rfl, rfl, .inr ⟨j, hj⟩, active_of_setWorker fun _ => hj⟩
  | leave j =>
    simp only [step, Option.some.injEq] at h
    subst h
    exact .inl ⟨rfl, rfl, .inl rfl, active_of_setWorker fun hp => by cases hp⟩

/-! ## Commits over an unchanged status -/

/-- A cancellation commits over `queued` or `cancelled`, and the first write of a worker not over `cancelled`. -/
def UpToDate (s : State κ ν) : Action κ ν → Prop
  | .commitCancel _ => s.status = .queued ∨ s.status = .cancelled
  | .commit j => ∀ x, s.worker j = .written x → x.first = true → s.status ≠ .cancelled
  | _ => True

instance (s : State κ ν) : ∀ a, Decidable (UpToDate s a)
  | .commitCancel _ => inferInstanceAs (Decidable (_ ∨ _))
  | .commit j =>
    match h : s.worker j with
    | .written x => decidable_of_iff (x.first = true → s.status ≠ .cancelled) (by simp [UpToDate, h])
    | .idle | .ready | .claimed | .called | .ended => .isTrue (by simp [UpToDate, h])
  | .readCancel _ | .writeCancel _ | .leaveCancel _ | .read _ | .write .. | .chat _ | .leave _ => .isTrue trivial

/-- While the job is queued or cancelled, nobody works on it and nothing has been charged. -/
def Unclaimed (s : State κ ν) : Prop :=
  s.status = .queued ∨ s.status = .cancelled → (∀ j, (s.worker j).active = false) ∧ s.charges = 0

omit [DecidableEq κ] [DecidableEq ν] in
theorem unclaimed_init (status : JobStatus) : Unclaimed (init status : State κ ν) := fun _ => ⟨fun _ => rfl, rfl⟩

theorem Write.status_ne (x : Write) : x.status ≠ .queued ∧ x.status ≠ .cancelled := by
  cases x <;> exact ⟨by decide, by decide⟩

theorem step_unclaimed (hi : Unclaimed s) (hu : UpToDate s a) (h : step s a = some s') : Unclaimed s' := by
  rcases step_cases h with hq | ⟨k, rfl, -, hcharges, -, hworker⟩ | ⟨j, x, rfl, -, hstatus⟩
  · intro hopen
    obtain ⟨hidle, hcharges⟩ := hi (by rwa [hq.status] at hopen)
    refine ⟨fun j => ?_, hq.charges.trans hcharges⟩
    by_contra hactive
    exact absurd (hq.active j (by simpa using hactive)) (by simp [hidle j])
  · obtain ⟨hidle, hzero⟩ := hi hu
    exact fun _ => ⟨fun j => by rw [hworker]; exact hidle j, hcharges.trans hzero⟩
  · rintro (hopen | hopen)
    · exact absurd (hstatus.symm.trans hopen) x.status_ne.1
    · exact absurd (hstatus.symm.trans hopen) x.status_ne.2

/-- A cancelled job stays cancelled, and the proxy is not called for it. -/
theorem step_cancelled (hi : Unclaimed s) (hc : s.status = .cancelled) (hu : UpToDate s a) (h : step s a = some s') :
    s'.status = .cancelled ∧ s'.chats = s.chats := by
  obtain ⟨hidle, -⟩ := hi (.inr hc)
  rcases step_cases h with hq | ⟨k, rfl, hstatus, -, hchats, -⟩ | ⟨j, x, rfl, hphase, -⟩
  · refine ⟨hq.status.trans hc, hq.chats.resolve_right ?_⟩
    rintro ⟨j, hj⟩
    rw [hidle j] at hj
    cases hj
  · exact ⟨hstatus, hchats⟩
  · cases hf : x.first with
    | true => exact absurd hc (hu x hphase hf)
    | false =>
      have hj := hidle j
      simp [hphase, WorkerPhase.active, hf] at hj

theorem run_cancelled {as : List (Action κ ν)} {s s' : State κ ν} (hi : Unclaimed s) (hc : s.status = .cancelled)
    (hu : Along step UpToDate s as) (h : run step s as = some s') :
    s'.status = .cancelled ∧ s'.chats = s.chats := by
  induction as generalizing s with
  | nil =>
    cases h
    exact ⟨hc, rfl⟩
  | cons a as ih =>
    obtain ⟨t, ht, h⟩ := run_cons_iff.mp h
    obtain ⟨hct, hchats⟩ := step_cancelled hi hc hu.1 ht
    obtain ⟨hcs, hchats'⟩ := ih (step_unclaimed hi hu.1 ht) hct (hu.2 t ht) h
    exact ⟨hcs, hchats'.trans hchats⟩

/-! ## A confirmed cancellation -/

/-- After every commit of a cancellation in the run, the job stays cancelled, the proxy is not called for it any more,
and it is not charged. -/
def CancellationFinal (s : State κ ν) (as : List (Action κ ν)) : Prop :=
  ∀ bs k cs s₁ s₂ s₃, as = bs ++ .commitCancel k :: cs → run step s bs = some s₁ →
    step s₁ (.commitCancel k) = some s₂ → run step s₂ cs = some s₃ →
    s₃.status = .cancelled ∧ s₃.chats = s₂.chats ∧ s₃.charges = 0

/-- **A confirmed cancellation is final** in every run in which no commit overrides a status that its transaction has
not seen. -/
theorem cancellation_final (status : JobStatus) (as : List (Action κ ν))
    (h : Along step UpToDate (init status) as) : CancellationFinal (init status) as := by
  rintro bs k cs s₁ s₂ s₃ rfl hbs hk hcs
  obtain ⟨hu₁, hu, hrest⟩ := (along_append hbs).mp h
  have hi₁ : Unclaimed s₁ := run_inv_along (fun _ _ _ hi hu h => step_unclaimed hi hu h) (unclaimed_init status) hu₁ hbs
  have hi₂ : Unclaimed s₂ := step_unclaimed hi₁ hu hk
  have hc : s₂.status = .cancelled := by
    simp only [step, Option.ite_none_right_eq_some, Option.some.injEq] at hk
    obtain ⟨-, rfl⟩ := hk
    rfl
  have hi₃ : Unclaimed s₃ :=
    run_inv_along (fun _ _ _ hi hu h => step_unclaimed hi hu h) hi₂ (hrest s₂ hk) hcs
  obtain ⟨hc₃, hchats⟩ := run_cancelled hi₂ hc (hrest s₂ hk) hcs
  exact ⟨hc₃, hchats, (hi₃ (.inr hc₃)).2⟩

end Final

/-! ### A worker that has read the job before it is cancelled -/

/-- The job is cancelled before a worker comes to it. -/
theorem cancellation_final_before_worker :
    CancellationFinal (init .queued : State Unit Unit)
      [.readCancel (), .writeCancel (), .commitCancel (), .read ()] :=
  cancellation_final .queued _ (by decide)

/-- The worker claims the cancelled job, calls the proxy and books usage. -/
theorem cancellation_undone :
    ¬ CancellationFinal (init .queued : State Unit Unit)
      [.read (), .readCancel (), .writeCancel (), .commitCancel (), .write () .claim, .commit (), .chat (),
        .write () .complete, .commit ()] := by
  intro h
  obtain ⟨hstatus, -, -⟩ := h [.read (), .readCancel (), .writeCancel ()] ()
    [.write () .claim, .commit (), .chat (), .write () .complete, .commit ()] _ _ _ rfl rfl rfl rfl
  cases hstatus

end LlmStore.Jobs.Cancellation
