import Mathlib.Data.Fintype.Card
import LlmStore.Jobs.Steps

/-!
# Each job is worked on once

`chat_completions_async` commits a job and puts its id into the Redis list; `_run_once` takes an id from the list, has
`process_generation_job` work on it, and puts it back when there is no slot for it. `step` is one step of any number of
requests and workers; a worker goes through `process_generation_job` call by call. Nothing locks the row of a job.

An id is in one place at a time (`Located`): with the request that made it, in the list, or in the hands of a worker.
It goes back into the list only from a run that has called neither `proxy.chat` nor `record_usage` (`next_spends`), so
both are called once for a job at most (`at_most_once`).
-/

namespace LlmStore.Jobs

open LlmStore.Lib LlmStore.Inference

/-! ## What a run has called -/

namespace Phase

/-- The status that the next commit of the run writes. -/
def writes : Phase → Option JobStatus
  | .refusing | .failing _ => some .failed
  | .answered | .booked _ => some .completed
  | .claiming _ => some .running
  | _ => none

/-- How often the run has called `proxy.chat`, at most. -/
def chats : Phase → ℕ
  | .called _ | .booked _ | .failing _ => 1
  | .releasing _ r | .ended r => if r = some .requeue then 0 else 1
  | _ => 0

/-- How often the run has called `record_usage`, at most. -/
def usages : Phase → ℕ
  | .answered | .booked _ | .failing _ => 1
  | .releasing _ r | .ended r => if r = some .requeue then 0 else 1
  | _ => 0

end Phase

namespace Call

def chats : Call → ℕ
  | .chat => 1
  | _ => 0

def usages : Call → ℕ
  | .recordUsage => 1
  | _ => 0

end Call

theorem unwind_spends (p : Phase) (hp : p.live = true) (http : Bool) :
    p.chats ≤ (p.unwind http).chats ∧ p.usages ≤ (p.unwind http).usages := by
  cases p with
  | releasing => cases hp
  | ended => cases hp
  | _ => cases http <;> simp [Phase.chats, Phase.usages, Phase.unwind]

/-- A call is counted in the phase after it. -/
theorem next_spends {p q : Phase} {c : Call} (h : p.next c = some q) :
    p.chats + c.chats ≤ q.chats ∧ p.usages + c.usages ≤ q.usages := by
  unfold Phase.next at h
  split at h
  case h_9 => split_ifs at h <;> cases h <;> exact ⟨Nat.le_refl _, Nat.le_refl _⟩
  case h_17 => split_ifs at h; cases h; exact ⟨Nat.le_refl _, Nat.le_refl _⟩
  case h_18 =>
    split_ifs at h
    cases h
    simp only [Phase.chats, Phase.usages, Call.chats, Call.usages]
    split_ifs <;> simp_all
  case h_19 => split_ifs at h; cases h; exact ⟨Nat.le_refl _, Nat.le_refl _⟩
  case h_20 | h_21 => split_ifs at h with hlive; cases h; exact unwind_spends _ hlive _
  case h_22 => cases h
  case h_10 => split_ifs at h; cases h; exact ⟨Nat.zero_le _, Nat.zero_le _⟩
  all_goals cases h; simp [Phase.chats, Phase.usages, Call.chats, Call.usages]

theorem spends_le (p : Phase) : p.chats ≤ 1 ∧ p.usages ≤ 1 := by
  cases p with
  | releasing b r | ended r => simp only [Phase.chats, Phase.usages]; split_ifs <;> simp
  | _ => simp [Phase.chats, Phase.usages]

namespace Exclusive

/-! ## The system -/

/-- A call of `chat_completions_async`. -/
inductive RequestPhase where
  | idle
  /-- The job is committed, and its id not yet in the list. -/
  | created (id : JobId)
  | ended
  deriving DecidableEq

inductive WorkerPhase where
  /-- In `BLPOP`. -/
  | idle
  /-- In `process_generation_job`, or after it with what it has returned or raised. -/
  | working (id : JobId) (phase : Phase)

/-- The id in the hands of a worker. -/
def WorkerPhase.hand : WorkerPhase → Option JobId
  | .idle => none
  | .working id _ => some id

/-- Requests are named by `κ`, workers by `ν`. -/
structure State (κ ν : Type*) where
  /-- The committed status of each job. -/
  status : JobId → Option JobStatus
  /-- The Redis list. -/
  queue : List JobId
  request : κ → RequestPhase
  worker : ν → WorkerPhase
  /-- How often `proxy.chat` has been called for the job. -/
  chats : JobId → ℕ
  /-- How often `record_usage` has been called for the job. -/
  usages : JobId → ℕ

inductive Action (κ ν : Type*) where
  /-- `create_chat_generation_job` and its commit. -/
  | create (k : κ) (id : JobId)
  /-- `enqueue_generation_job`; if it raises, the id is in the list or not. -/
  | enqueue (k : κ) (pushed : Bool)
  | blpop (j : ν)
  | call (j : ν) (c : Call)
  /-- `_run_once` puts the id back; if this raises, the id is in the list or not. -/
  | rpush (j : ν) (pushed : Bool)
  /-- `_run_once` is done with the id. -/
  | leave (j : ν)
  /-- `cancel_job`. -/
  | cancel (id : JobId)

section Step

variable {κ ν : Type*} [DecidableEq κ] [DecidableEq ν]

def State.setRequest (s : State κ ν) (k : κ) (p : RequestPhase) : State κ ν :=
  { s with request := Function.update s.request k p }

def State.setWorker (s : State κ ν) (j : ν) (p : WorkerPhase) : State κ ν :=
  { s with worker := Function.update s.worker j p }

/-- `RPUSH`, if it happens. -/
def State.push (s : State κ ν) (id : JobId) (pushed : Bool) : State κ ν :=
  { s with queue := if pushed then s.queue ++ [id] else s.queue }

/-- The call of a run on the job that has come to `p`, as the tables see it. -/
def State.effect (s : State κ ν) (id : JobId) (p : Phase) : Call → State κ ν
  | .commit | .commitFault true =>
    match p.writes with
    | some status => { s with status := Function.update s.status id (some status) }
    | none => s
  | .chat => { s with chats := Function.update s.chats id (s.chats id + 1) }
  | .recordUsage => { s with usages := Function.update s.usages id (s.usages id + 1) }
  | _ => s

/-- A run reads the committed status of its job. -/
def reads (status : Option JobStatus) : Call → Bool
  | .load status' _ => status' = status
  | _ => true

def step (s : State κ ν) : Action κ ν → Option (State κ ν)
  | .create k id =>
    if s.request k = .idle ∧ s.status id = none then
      some ({ s with status := Function.update s.status id (some .queued) }.setRequest k (.created id))
    else none
  | .enqueue k pushed =>
    match s.request k with
    | .created id => some ((s.push id pushed).setRequest k .ended)
    | _ => none
  | .blpop j =>
    match s.worker j, s.queue with
    | .idle, id :: queue => some ({ s with queue }.setWorker j (.working id .loading))
    | _, _ => none
  | .call j c =>
    match s.worker j with
    | .working id p =>
      match p.next c with
      | some q => if reads (s.status id) c then some ((s.effect id p c).setWorker j (.working id q)) else none
      | none => none
    | .idle => none
  | .rpush j pushed =>
    match s.worker j with
    | .working id (.ended (some .requeue)) => some ((s.push id pushed).setWorker j .idle)
    | _ => none
  | .leave j =>
    match s.worker j with
    | .working _ (.ended r) => if r = some .requeue then none else some (s.setWorker j .idle)
    | _ => none
  | .cancel id =>
    if s.status id = some .queued then some { s with status := Function.update s.status id (some .cancelled) } else none

end Step

/-- No jobs, and nobody at work. -/
def init {κ ν : Type*} : State κ ν :=
  { status := fun _ => none, queue := [], request := fun _ => .idle, worker := fun _ => .idle, chats := fun _ => 0,
    usages := fun _ => 0 }

/-! ## Where a job is -/

/-- The place of an id. -/
inductive Place (κ ν : Type*) where
  | nowhere
  | requested (k : κ)
  | listed
  | held (j : ν)
  /-- A worker is done with it, or it was lost. -/
  | gone

/-- How often `proxy.chat` may have been called for a job in this place. -/
def Place.chats {κ ν : Type*} (worker : ν → WorkerPhase) : Place κ ν → ℕ
  | .nowhere | .requested _ | .listed => 0
  | .held j => match worker j with
    | .working _ p => p.chats
    | .idle => 0
  | .gone => 1

def Place.usages {κ ν : Type*} (worker : ν → WorkerPhase) : Place κ ν → ℕ
  | .nowhere | .requested _ | .listed => 0
  | .held j => match worker j with
    | .working _ p => p.usages
    | .idle => 0
  | .gone => 1

/-- Every id is where `place` says, and nowhere else. -/
structure Located {κ ν : Type*} (s : State κ ν) (place : JobId → Place κ ν) : Prop where
  nodup : s.queue.Nodup
  listed : ∀ id, id ∈ s.queue ↔ place id = .listed
  held : ∀ j id, (s.worker j).hand = some id ↔ place id = .held j
  requested : ∀ k id, s.request k = .created id ↔ place id = .requested k
  nowhere : ∀ id, s.status id = none → place id = .nowhere
  chats : ∀ id, s.chats id ≤ (place id).chats s.worker
  usages : ∀ id, s.usages id ≤ (place id).usages s.worker

section Located

variable {κ ν : Type*} {s s' : State κ ν} {place : JobId → Place κ ν} {id : JobId}

/-- What the calls of a run have spent does not depend on other workers. -/
theorem Place.spent_congr {worker worker' : ν → WorkerPhase} {p : Place κ ν}
    (h : ∀ j, p = .held j → worker' j = worker j) :
    p.chats worker' = p.chats worker ∧ p.usages worker' = p.usages worker := by
  cases p with
  | held j => simp [Place.chats, Place.usages, h j rfl]
  | _ => exact ⟨rfl, rfl⟩

/-- The id goes to another place, and all other ids stay. -/
structure Moves (s s' : State κ ν) (id : JobId) (p : Place κ ν) : Prop where
  nodup : s'.queue.Nodup
  listed : id ∈ s'.queue ↔ p = .listed
  held : ∀ j, (s'.worker j).hand = some id ↔ p = .held j
  requested : ∀ k, s'.request k = .created id ↔ p = .requested k
  nowhere : s'.status id = none → p = .nowhere
  chats : s'.chats id ≤ p.chats s'.worker
  usages : s'.usages id ≤ p.usages s'.worker
  listed_ne : ∀ id' ≠ id, id' ∈ s'.queue ↔ id' ∈ s.queue
  worker_ne : ∀ j, (∀ id' ≠ id, (s'.worker j).hand = some id' ↔ (s.worker j).hand = some id') ∧
    (s'.worker j = s.worker j ∨ ∀ id' ≠ id, (s.worker j).hand ≠ some id')
  requested_ne : ∀ k, ∀ id' ≠ id, s'.request k = .created id' ↔ s.request k = .created id'
  status_ne : ∀ id' ≠ id, s'.status id' = s.status id'
  chats_ne : ∀ id' ≠ id, s'.chats id' = s.chats id'
  usages_ne : ∀ id' ≠ id, s'.usages id' = s.usages id'

theorem Located.moves {p : Place κ ν} (h : Located s place) (hm : Moves s s' id p) :
    Located s' (Function.update place id p) := by
  have hspent : ∀ id' ≠ id, (place id').chats s'.worker = (place id').chats s.worker ∧
      (place id').usages s'.worker = (place id').usages s.worker := by
    intro id' hne
    refine Place.spent_congr fun j hj => ?_
    rcases (hm.worker_ne j).2 with hsame | hother
    · exact hsame
    · exact absurd ((h.held j id').mpr hj) (hother id' hne)
  refine ⟨hm.nodup, fun id' => ?_, fun j id' => ?_, fun k id' => ?_, fun id' => ?_, fun id' => ?_, fun id' => ?_⟩ <;>
    by_cases hid : id' = id
  · subst hid; rw [Function.update_self]; exact hm.listed
  · rw [Function.update_of_ne hid, hm.listed_ne id' hid]; exact h.listed id'
  · subst hid; rw [Function.update_self]; exact hm.held j
  · rw [Function.update_of_ne hid, (hm.worker_ne j).1 id' hid]; exact h.held j id'
  · subst hid; rw [Function.update_self]; exact hm.requested k
  · rw [Function.update_of_ne hid, hm.requested_ne k id' hid]; exact h.requested k id'
  · subst hid; rw [Function.update_self]; exact hm.nowhere
  · rw [Function.update_of_ne hid, hm.status_ne id' hid]; exact h.nowhere id'
  · subst hid; rw [Function.update_self]; exact hm.chats
  · rw [Function.update_of_ne hid, hm.chats_ne id' hid, (hspent id' hid).1]; exact h.chats id'
  · subst hid; rw [Function.update_self]; exact hm.usages
  · rw [Function.update_of_ne hid, hm.usages_ne id' hid, (hspent id' hid).2]; exact h.usages id'

end Located

/-! ## One step -/

section Step

variable {κ ν : Type*} [DecidableEq κ] [DecidableEq ν] {s s' : State κ ν} {place : JobId → Place κ ν} {id : JobId}

omit [DecidableEq κ] in
/-- A worker takes the id, or puts it down, or goes on with it. -/
theorem worker_update {j : ν} {p : WorkerPhase} (hold : ∀ id' ≠ id, (s.worker j).hand ≠ some id')
    (hnew : ∀ id' ≠ id, p.hand ≠ some id') (j' : ν) :
    (∀ id' ≠ id, (Function.update s.worker j p j').hand = some id' ↔ (s.worker j').hand = some id') ∧
      (Function.update s.worker j p j' = s.worker j' ∨ ∀ id' ≠ id, (s.worker j').hand ≠ some id') := by
  by_cases hj : j' = j
  · subst hj
    rw [Function.update_self]
    exact ⟨fun id' hne => iff_of_false (hnew id' hne) (hold id' hne), .inr hold⟩
  · rw [Function.update_of_ne hj]
    exact ⟨fun _ _ => Iff.rfl, .inl rfl⟩

omit [DecidableEq ν] in
theorem request_update {k : κ} {p : RequestPhase} (hold : ∀ id' ≠ id, s.request k ≠ .created id')
    (hnew : ∀ id' ≠ id, p ≠ .created id') (k' : κ) (id' : JobId) (hne : id' ≠ id) :
    Function.update s.request k p k' = .created id' ↔ s.request k' = .created id' := by
  by_cases hk : k' = k
  · subst hk
    rw [Function.update_self]
    exact iff_of_false (hnew id' hne) (hold id' hne)
  · rw [Function.update_of_ne hk]

omit [DecidableEq κ] [DecidableEq ν] in
theorem Located.spent (h : Located s place) {p : Place κ ν} (hp : place id = p) :
    s.chats id ≤ p.chats s.worker ∧ s.usages id ≤ p.usages s.worker := hp ▸ ⟨h.chats id, h.usages id⟩

omit [DecidableEq κ] [DecidableEq ν] in
theorem Located.notListed (h : Located s place) {p : Place κ ν} (hp : place id = p) (hne : p ≠ .listed) :
    id ∉ s.queue := fun hq => hne (hp.symm.trans ((h.listed id).mp hq))

omit [DecidableEq κ] [DecidableEq ν] in
theorem Located.notHeld (h : Located s place) {p : Place κ ν} (hp : place id = p) {j : ν} (hne : p ≠ .held j) :
    (s.worker j).hand ≠ some id := fun hj => hne (hp.symm.trans ((h.held j id).mp hj))

omit [DecidableEq κ] [DecidableEq ν] in
theorem Located.notRequested (h : Located s place) {p : Place κ ν} (hp : place id = p) {k : κ}
    (hne : p ≠ .requested k) : s.request k ≠ .created id := fun hk => hne (hp.symm.trans ((h.requested k id).mp hk))

omit [DecidableEq ν] in
theorem moves_create (h : Located s place) {k : κ} (hk : s.request k = .idle) (hid : s.status id = none) :
    Moves s ({ s with status := Function.update s.status id (some .queued) }.setRequest k (.created id)) id
      (.requested k) := by
  have hplace := h.nowhere id hid
  obtain ⟨hchats, husages⟩ := h.spent hplace
  constructor
  case nodup => exact h.nodup
  case listed => exact iff_of_false (h.notListed hplace nofun) nofun
  case held => exact fun j => iff_of_false (h.notHeld hplace nofun) nofun
  case requested =>
    intro k'
    by_cases hk' : k' = k
    · subst hk'
      simp [State.setRequest]
    · have hother := h.notRequested hplace (k := k') nofun
      simp [State.setRequest, hk', hother, Ne.symm hk']
  case nowhere => simp [State.setRequest]
  case chats => exact hchats
  case usages => exact husages
  case listed_ne => exact fun _ _ => Iff.rfl
  case worker_ne => exact fun j => ⟨fun _ _ => Iff.rfl, .inl rfl⟩
  case requested_ne =>
    refine fun k' => request_update (fun _ _ => by rw [hk]; nofun) ?_ k'
    rintro id' hne ⟨⟩
    exact hne rfl
  case status_ne => exact fun id' hne => Function.update_of_ne hne _ _
  case chats_ne => exact fun _ _ => rfl
  case usages_ne => exact fun _ _ => rfl

/-- Where an id is after a push, if it happens. -/
def pushedTo (pushed : Bool) : Place κ ν := if pushed then .listed else .gone

omit [DecidableEq κ] [DecidableEq ν] in
/-- A push of an id that is in no list and for which nothing has been spent. -/
theorem push_spec (h : Located s place) (hid : id ∉ s.queue) (hchats : s.chats id = 0) (husages : s.usages id = 0)
    (pushed : Bool) (worker : ν → WorkerPhase) :
    (s.push id pushed).queue.Nodup ∧ (id ∈ (s.push id pushed).queue ↔ (pushedTo pushed : Place κ ν) = .listed) ∧
      (∀ id' ≠ id, id' ∈ (s.push id pushed).queue ↔ id' ∈ s.queue) ∧
      s.chats id ≤ (pushedTo pushed : Place κ ν).chats worker ∧
      s.usages id ≤ (pushedTo pushed : Place κ ν).usages worker := by
  rw [hchats, husages]
  cases pushed with
  | false => exact ⟨h.nodup, iff_of_false hid nofun, fun _ _ => Iff.rfl, Nat.zero_le _, Nat.zero_le _⟩
  | true =>
    refine ⟨?_, iff_of_true (List.mem_append_right _ List.mem_cons_self) rfl, fun id' hne => ?_, Nat.zero_le _,
      Nat.zero_le _⟩
    · exact List.nodup_append.mpr ⟨h.nodup, List.nodup_singleton _, by rintro a ha _ hb rfl; simp_all⟩
    · show id' ∈ s.queue ++ [id] ↔ _
      simp [hne]

omit [DecidableEq ν] in
theorem moves_enqueue (h : Located s place) {k : κ} (hk : s.request k = .created id) (pushed : Bool) :
    Moves s ((s.push id pushed).setRequest k .ended) id (pushedTo pushed) := by
  have hplace := (h.requested k id).mp hk
  obtain ⟨hchats, husages⟩ := h.spent hplace
  obtain ⟨hnodup, hlisted, hne, hchats', husages'⟩ := push_spec h (h.notListed hplace nofun)
    (Nat.le_zero.mp hchats) (Nat.le_zero.mp husages) pushed s.worker
  have hpush : ∀ p : Place κ ν, p ≠ .listed → p ≠ .gone → (pushedTo pushed : Place κ ν) ≠ p := by
    cases pushed <;> exact fun _ h₁ h₂ => Ne.symm ‹_›
  constructor
  case nodup => exact hnodup
  case listed => exact hlisted
  case held => exact fun j => iff_of_false (h.notHeld hplace nofun) (hpush _ nofun nofun)
  case requested =>
    intro k'
    refine iff_of_false ?_ (hpush _ nofun nofun)
    by_cases hk' : k' = k
    · subst hk'
      simp [State.setRequest]
    · have hother := h.notRequested hplace (k := k') fun he => hk' (Place.requested.inj he).symm
      simpa [State.setRequest, State.push, hk'] using hother
  case nowhere =>
    intro hnone
    have hnowhere := h.nowhere id hnone
    rw [hplace] at hnowhere
    cases hnowhere
  case chats => exact hchats'
  case usages => exact husages'
  case listed_ne => exact hne
  case worker_ne => exact fun j => ⟨fun _ _ => Iff.rfl, .inl rfl⟩
  case requested_ne =>
    refine fun k' => request_update (fun id' hne he => ?_) (by rintro _ _ ⟨⟩) k'
    exact hne (RequestPhase.created.inj (he.symm.trans hk))
  case status_ne => exact fun _ _ => rfl
  case chats_ne => exact fun _ _ => rfl
  case usages_ne => exact fun _ _ => rfl

omit [DecidableEq κ] in
theorem moves_blpop (h : Located s place) {j : ν} (hj : s.worker j = .idle) {rest : List JobId}
    (hq : s.queue = id :: rest) :
    Moves s ({ s with queue := rest }.setWorker j (.working id .loading)) id (.held j) := by
  have hplace := (h.listed id).mp (by rw [hq]; exact List.mem_cons_self)
  obtain ⟨hchats, husages⟩ := h.spent hplace
  have hnodup := h.nodup
  rw [hq, List.nodup_cons] at hnodup
  constructor
  case nodup => exact hnodup.2
  case listed => exact iff_of_false hnodup.1 nofun
  case held =>
    intro j'
    by_cases hj' : j' = j
    · subst hj'
      simp [State.setWorker, WorkerPhase.hand]
    · have hother := h.notHeld hplace (j := j') nofun
      simp [State.setWorker, hj', hother, Ne.symm hj']
  case requested => exact fun k => iff_of_false (h.notRequested hplace nofun) nofun
  case nowhere =>
    intro hnone
    have hnowhere := h.nowhere id hnone
    rw [hplace] at hnowhere
    cases hnowhere
  case chats => exact hchats.trans (Nat.zero_le _)
  case usages => exact husages.trans (Nat.zero_le _)
  case listed_ne =>
    intro id' hne
    show id' ∈ rest ↔ id' ∈ s.queue
    rw [hq, List.mem_cons, or_iff_right hne]
  case worker_ne =>
    refine worker_update (fun _ _ => by rw [hj]; nofun) ?_
    rintro id' hne ⟨⟩
    exact hne rfl
  case requested_ne => exact fun _ _ _ => Iff.rfl
  case status_ne => exact fun _ _ => rfl
  case chats_ne => exact fun _ _ => rfl
  case usages_ne => exact fun _ _ => rfl

/-- Only the rows of the job change, and the calls on it are counted. -/
structure Confined (s s' : State κ ν) (id : JobId) (c : Call) : Prop where
  queue : s'.queue = s.queue
  request : s'.request = s.request
  worker : s'.worker = s.worker
  others : ∀ id' ≠ id, s'.status id' = s.status id' ∧ s'.chats id' = s.chats id' ∧ s'.usages id' = s.usages id'
  status : s'.status id = none → s.status id = none
  chats : s'.chats id = s.chats id + c.chats
  usages : s'.usages id = s.usages id + c.usages

omit [DecidableEq κ] [DecidableEq ν] in
theorem confined_self (s : State κ ν) (id : JobId) {c : Call} (hchats : c.chats = 0) (husages : c.usages = 0) :
    Confined s s id c :=
  ⟨rfl, rfl, rfl, fun _ _ => ⟨rfl, rfl, rfl⟩, fun h => h, by rw [hchats]; rfl, by rw [husages]; rfl⟩

omit [DecidableEq κ] [DecidableEq ν] in
theorem confined_write (s : State κ ν) (id : JobId) (p : Phase) {c : Call} (hchats : c.chats = 0)
    (husages : c.usages = 0) :
    Confined s (match p.writes with
      | some status => { s with status := Function.update s.status id (some status) }
      | none => s) id c := by
  cases p.writes with
  | none => exact confined_self s id hchats husages
  | some status =>
    refine ⟨rfl, rfl, rfl, fun id' hne => ⟨Function.update_of_ne hne _ _, rfl, rfl⟩, fun hnone => ?_, ?_, ?_⟩
    · simp at hnone
    · rw [hchats]; rfl
    · rw [husages]; rfl

omit [DecidableEq κ] [DecidableEq ν] in
theorem confined_effect (s : State κ ν) (id : JobId) (p : Phase) (c : Call) : Confined s (s.effect id p c) id c := by
  cases c with
  | commit => exact confined_write s id p rfl rfl
  | commitFault committed =>
    cases committed with
    | false => exact confined_self s id rfl rfl
    | true => exact confined_write s id p rfl rfl
  | chat =>
    exact ⟨rfl, rfl, rfl, fun _ hne => ⟨rfl, Function.update_of_ne hne _ _, rfl⟩, fun h => h,
      Function.update_self _ _ _, rfl⟩
  | recordUsage =>
    exact ⟨rfl, rfl, rfl, fun _ hne => ⟨rfl, rfl, Function.update_of_ne hne _ _⟩, fun h => h, rfl,
      Function.update_self _ _ _⟩
  | _ => exact confined_self s id rfl rfl

omit [DecidableEq κ] in
theorem moves_call (h : Located s place) {j : ν} {p q : Phase} (hj : s.worker j = .working id p) {c : Call}
    (hc : p.next c = some q) : Moves s ((s.effect id p c).setWorker j (.working id q)) id (.held j) := by
  have hplace := (h.held j id).mp (by rw [hj]; rfl)
  obtain ⟨hchats, husages⟩ := h.spent hplace
  obtain ⟨hqueue, hrequest, hworker, hothers, hstatus, hchats', husages'⟩ := confined_effect s id p c
  obtain ⟨hspent, hspent'⟩ := next_spends hc
  simp only [Place.chats, Place.usages, hj] at hchats husages
  constructor
  case nodup => exact hqueue ▸ h.nodup
  case listed => exact iff_of_false (hqueue ▸ h.notListed hplace nofun) nofun
  case held =>
    intro j'
    by_cases hj' : j' = j
    · subst hj'
      simp [State.setWorker, WorkerPhase.hand]
    · have hother := h.notHeld hplace (j := j') fun he => hj' (Place.held.inj he).symm
      simp [State.setWorker, hj', hworker, hother, Ne.symm hj']
  case requested => exact fun k => iff_of_false (hrequest ▸ h.notRequested hplace nofun) nofun
  case nowhere =>
    intro hnone
    have hnowhere := h.nowhere id (hstatus hnone)
    rw [hplace] at hnowhere
    cases hnowhere
  case chats =>
    simp only [Place.chats, State.setWorker, Function.update_self, hchats']
    omega
  case usages =>
    simp only [Place.usages, State.setWorker, Function.update_self, husages']
    omega
  case listed_ne => exact fun _ _ => by rw [← hqueue]; rfl
  case worker_ne =>
    intro j'
    show (∀ id' ≠ id, (Function.update (s.effect id p c).worker j (.working id q) j').hand = some id' ↔
      (s.worker j').hand = some id') ∧ (Function.update (s.effect id p c).worker j (.working id q) j' = s.worker j' ∨ _)
    rw [hworker]
    refine worker_update ?_ ?_ j'
    · rintro id' hne he
      rw [hj] at he
      exact hne (Option.some.inj he).symm
    · rintro id' hne ⟨⟩
      exact hne rfl
  case requested_ne => exact fun _ _ _ => by rw [← hrequest]; rfl
  case status_ne => exact fun id' hne => (hothers id' hne).1
  case chats_ne => exact fun id' hne => (hothers id' hne).2.1
  case usages_ne => exact fun id' hne => (hothers id' hne).2.2

omit [DecidableEq κ] in
/-- A worker is done with its id, which is in the list again or gone. -/
theorem moves_putDown (h : Located s place) {j : ν} {p : Phase} (hj : s.worker j = .working id p)
    {queue : List JobId} {next : Place κ ν} (hnext : next = .listed ∨ next = .gone) (hnodup : queue.Nodup)
    (hlisted : id ∈ queue ↔ next = .listed) (hne : ∀ id' ≠ id, id' ∈ queue ↔ id' ∈ s.queue)
    (hspent : ∀ worker, s.chats id ≤ next.chats worker ∧ s.usages id ≤ next.usages worker) :
    Moves s ({ s with queue }.setWorker j .idle) id next := by
  have hplace := (h.held j id).mp (by rw [hj]; rfl)
  have hstay : ∀ p : Place κ ν, p ≠ .listed → p ≠ .gone → next ≠ p := by
    rcases hnext with rfl | rfl
    · exact fun _ hl _ => hl.symm
    · exact fun _ _ hg => hg.symm
  constructor
  case nodup => exact hnodup
  case listed => exact hlisted
  case held =>
    intro j'
    refine iff_of_false ?_ (hstay _ nofun nofun)
    by_cases hj' : j' = j
    · subst hj'
      simp [State.setWorker, WorkerPhase.hand]
    · have hother := h.notHeld hplace (j := j') fun he => hj' (Place.held.inj he).symm
      simpa [State.setWorker, hj'] using hother
  case requested => exact fun k => iff_of_false (h.notRequested hplace nofun) (hstay _ nofun nofun)
  case nowhere =>
    intro hnone
    have hnowhere := h.nowhere id hnone
    rw [hplace] at hnowhere
    cases hnowhere
  case chats => exact (hspent _).1
  case usages => exact (hspent _).2
  case listed_ne => exact hne
  case worker_ne =>
    refine worker_update ?_ (by rintro _ _ ⟨⟩)
    rintro id' hne he
    rw [hj] at he
    exact hne (Option.some.inj he).symm
  case requested_ne => exact fun _ _ _ => Iff.rfl
  case status_ne => exact fun _ _ => rfl
  case chats_ne => exact fun _ _ => rfl
  case usages_ne => exact fun _ _ => rfl

/-- Every step leaves each id in one place. -/
theorem step_located {a : Action κ ν} (h : Located s place) (hs : step s a = some s') :
    ∃ place' : JobId → Place κ ν, Located s' place' := by
  cases a with
  | create k id =>
    simp only [step] at hs
    split_ifs at hs with hguard
    cases hs
    exact ⟨_, h.moves (moves_create h hguard.1 hguard.2)⟩
  | enqueue k pushed =>
    simp only [step] at hs
    cases hk : s.request k with
    | created id =>
      simp only [hk] at hs
      cases hs
      exact ⟨_, h.moves (moves_enqueue h hk pushed)⟩
    | _ => simp [hk] at hs
  | blpop j =>
    simp only [step] at hs
    cases hj : s.worker j with
    | working => simp [hj] at hs
    | idle =>
      cases hq : s.queue with
      | nil => simp [hj, hq] at hs
      | cons id rest =>
        simp only [hj, hq] at hs
        cases hs
        exact ⟨_, h.moves (moves_blpop h hj hq)⟩
  | call j c =>
    simp only [step] at hs
    cases hj : s.worker j with
    | idle => simp [hj] at hs
    | working id p =>
      cases hc : p.next c with
      | none => simp [hj, hc] at hs
      | some q =>
        simp only [hj, hc] at hs
        split_ifs at hs
        cases hs
        exact ⟨_, h.moves (moves_call h hj hc)⟩
  | rpush j pushed =>
    simp only [step] at hs
    split at hs
    case h_2 => cases hs
    case h_1 id hj =>
      cases hs
      have hplace := (h.held j id).mp (by rw [hj]; rfl)
      obtain ⟨hchats, husages⟩ := h.spent hplace
      simp only [Place.chats, Place.usages, hj] at hchats husages
      have hspec := push_spec h (h.notListed hplace nofun) (Nat.le_zero.mp hchats) (Nat.le_zero.mp husages) pushed
      obtain ⟨hnodup, hlisted, hne, -⟩ := hspec s.worker
      have hnext : (pushedTo pushed : Place κ ν) = .listed ∨ (pushedTo pushed : Place κ ν) = .gone := by
        cases pushed
        · exact .inr rfl
        · exact .inl rfl
      exact ⟨_, h.moves (moves_putDown h hj hnext hnodup hlisted hne fun worker => (hspec worker).2.2.2)⟩
  | leave j =>
    simp only [step] at hs
    split at hs
    case h_2 => cases hs
    case h_1 id r hj =>
      split_ifs at hs
      cases hs
      have hplace := (h.held j id).mp (by rw [hj]; rfl)
      obtain ⟨hchats, husages⟩ := h.spent hplace
      simp only [Place.chats, Place.usages, hj] at hchats husages
      have hlisted : id ∈ s.queue ↔ (.gone : Place κ ν) = .listed := iff_of_false (h.notListed hplace nofun) nofun
      exact ⟨_, h.moves (moves_putDown h hj (.inr rfl) h.nodup hlisted (fun _ _ => Iff.rfl) fun worker =>
        ⟨hchats.trans (spends_le _).1, husages.trans (spends_le _).2⟩)⟩
  | cancel id =>
    simp only [step] at hs
    split_ifs at hs with hqueued
    cases hs
    refine ⟨place, h.nodup, h.listed, h.held, h.requested, fun id' hnone => h.nowhere id' ?_, h.chats, h.usages⟩
    by_cases hid : id' = id
    · subst hid
      simp at hnone
    · simpa [hid] using hnone

omit [DecidableEq κ] [DecidableEq ν] in
theorem located_init : Located (init : State κ ν) fun _ => .nowhere where
  nodup := List.nodup_nil
  listed := fun _ => iff_of_false List.not_mem_nil nofun
  held := fun _ _ => iff_of_false nofun nofun
  requested := fun _ _ => iff_of_false nofun nofun
  nowhere := fun _ _ => rfl
  chats := fun _ => Nat.le_refl 0
  usages := fun _ => Nat.le_refl 0

/-! ## Every run -/

omit [DecidableEq κ] [DecidableEq ν] in
theorem Place.spent_le (worker : ν → WorkerPhase) (p : Place κ ν) : p.chats worker ≤ 1 ∧ p.usages worker ≤ 1 := by
  cases p with
  | held j =>
    simp only [Place.chats, Place.usages]
    split
    · exact spends_le _
    · exact ⟨Nat.zero_le _, Nat.zero_le _⟩
  | _ => simp [Place.chats, Place.usages]

/-- **Each job is worked on once**: whatever requests and workers do, in whatever order, an id is at most once in the
list and in the hands of the workers, and `proxy.chat` and `record_usage` are called at most once for its job. -/
theorem at_most_once [Fintype ν] {actions : List (Action κ ν)} {s : State κ ν} (h : run step init actions = some s)
    (id : JobId) :
    s.queue.count id + (Finset.univ.filter fun j => (s.worker j).hand = some id).card ≤ 1 ∧
      s.chats id ≤ 1 ∧ s.usages id ≤ 1 := by
  obtain ⟨place, hs⟩ : ∃ place : JobId → Place κ ν, Located s place :=
    run_inv (I := fun s => ∃ place : JobId → Place κ ν, Located s place)
      (fun _ _ _ ⟨_, hi⟩ hstep => step_located hi hstep) ⟨_, located_init⟩ h
  have hspent : s.chats id ≤ (place id).chats s.worker ∧ s.usages id ≤ (place id).usages s.worker := hs.spent rfl
  have hle := (place id).spent_le s.worker
  refine ⟨?_, hspent.1.trans hle.1, hspent.2.trans hle.2⟩
  by_cases hq : id ∈ s.queue
  · have hplace := (hs.listed id).mp hq
    have hnone : Finset.univ.filter (fun j => (s.worker j).hand = some id) = ∅ :=
      Finset.filter_eq_empty_iff.mpr fun j _ => hs.notHeld hplace nofun
    rw [hnone, Finset.card_empty, Nat.add_zero]
    exact List.nodup_iff_count_le_one.mp hs.nodup id
  · rw [List.count_eq_zero_of_not_mem hq, Nat.zero_add, Finset.card_le_one]
    intro j hj j' hj'
    rw [Finset.mem_filter] at hj hj'
    have hheld := ((hs.held j id).mp hj.2).symm.trans ((hs.held j' id).mp hj'.2)
    exact Place.held.inj hheld

end Step

/-- A job that finds no slot and is put back, and is then taken by the other worker. -/
def requeued : List (Action Unit Bool) :=
  [.create () 7, .enqueue () true, .blpop false, .call false (.load (some .queued) oneRoute),
    .call false (.lookup false), .call false (.tryAcquire 0 false), .call false .llen, .rpush false true, .blpop true]

theorem run_requeued : ∃ s : State Unit Bool, run step init requeued = some s ∧ (s.worker true).hand = some 7 := by
  let s : State Unit Bool := (run step init (requeued.take 3)).get rfl
  have hload : step s (.call false (.load (some .queued) oneRoute)) =
      some (s.setWorker false (.working 7 (.looking (some (.ok [0]))))) := by
    rw [← loaded_oneRoute]
    rfl
  have htaken : run step init (requeued.take 3) = some s := rfl
  exact ⟨_, run_append_iff.mpr ⟨s, htaken, run_cons_iff.mpr ⟨_, hload, rfl⟩⟩, rfl⟩

theorem at_most_once_requeued :
    ∃ s : State Unit Bool, run step init requeued = some s ∧ (s.worker true).hand = some 7 ∧
      s.queue.count 7 + (Finset.univ.filter fun j => (s.worker j).hand = some 7).card ≤ 1 ∧ s.chats 7 ≤ 1 ∧
      s.usages 7 ≤ 1 := by
  obtain ⟨s, hs, hhand⟩ := run_requeued
  exact ⟨s, hs, hhand, at_most_once hs 7⟩

end Exclusive

end LlmStore.Jobs
