import LlmStore.Inference.Sessions
import LlmStore.Jobs.Process

/-!
# Sessions of a worker

`process_generation_job` sets the status of its job between the writes that a request makes. In a session whose jobs may
be worked on so (`Workable`), it leaves a fine database.
-/

namespace LlmStore.Jobs

open LlmStore.Lib LlmStore.Inference Program

theorem steady_chooseRoute {ι : Type} {I : ι → World → Prop} {F : Exc → Prop} (h : Steady I F)
    (routes : List Models.ModelBackendRoute) : KeepsAll I (fun _ => True) F (chooseRoute routes) := by
  induction routes with
  | nil => exact keepsAll_pure trivial
  | cons route routes ih =>
    unfold chooseRoute
    cases route.inferenceBackend with
    | none => exact ih
    | some backend =>
      exact (h.tryAcquire backend.id).bind fun _ _ => .ite (keepsAll_pure trivial) ih

section Workers

variable {S : Session}

/-- The jobs of a session may be worked on: their status is set, and the waiting ones can be booked. -/
structure Workable (S : Session) : Prop where
  update : ∀ {w} jobId (f : GenerationJob → GenerationJob), (∀ job, (f job).status ≠ .queued) → S.whole w →
    S.whole (w.setCurrent fun db => match db.jobs.lookup jobId with
      | none => db
      | some job => { db with jobs := db.jobs.insert jobId (f job) })
  book : ∀ {w} jobId job, S.whole w → w.current.jobs.lookup jobId = some job → job.status = .queued →
    S.CanBook (jobTag job)

variable (hS : Workable S)

include hS

theorem Workable.updateJob (jobId : JobId) {f : GenerationJob → GenerationJob} (hf : ∀ job, (f job).status ≠ .queued) :
    S.Books (updateJob jobId f) := triple_modify fun _ hw => hS.update jobId f hf hw

/-- The status is set and all is committed. -/
theorem Workable.books_end (jobId : JobId) {f : GenerationJob → GenerationJob} (hf : ∀ job, (f job).status ≠ .queued)
    (result : JobResult) : S.Books (do Jobs.updateJob jobId f; commit; pure result) :=
  (hS.updateJob jobId hf).bind fun _ => Session.books_commit.bind fun _ => Session.books_pure result

theorem Workable.books_generate (settings : Settings) (jobId : JobId) {job : GenerationJob}
    (hbook : S.CanBook (jobTag job)) (backend : Models.InferenceBackend) :
    S.Books (generate settings (jobChat settings) jobId job backend) := by
  refine Session.Books.given (S.backends.chat settings backend false false) fun result hs => ?_
  refine (Session.books_storeExactCache settings _ _ _ _ _).bind fun _ => ?_
  exact (hbook result hs.1 _ _ _).bind fun _ => hS.books_end jobId (fun _ => by simp) _

theorem Workable.safe_runOn (settings : Settings) (jobId : JobId) {job : GenerationJob}
    (hbook : S.CanBook (jobTag job)) (backend : Models.InferenceBackend) :
    S.Safe (runOn settings (jobChat settings) jobId job backend) := by
  have hrelease : Triple (fun w => S.fine w.committed) (release backend.id) (fun _ w => S.fine w.committed)
      fun _ w => S.fine w.committed :=
    ((steady_of_sameBooks (P := fun w => S.fine w.committed) (F := fun _ => True)
      (fun hs h => hs.committed ▸ h) trivial).release backend.id ()).conseq (fun _ h => h) (fun _ _ h => h.1)
      fun _ _ h => h.1
  have hfail : S.Safe (orFail jobId job backend (generate settings (jobChat settings) jobId job backend)) := by
    refine (hS.books_generate settings jobId hbook backend).safe_tryExcept (fun exc h => ?_) fun exc e h hs => ?_
    · rw [h]
    · rw [h]
      refine ((Session.books_logFailure _ false _ hs).bind fun _ => ?_).safe
      refine (hS.updateJob jobId fun _ => by simp).bind fun _ => ?_
      exact (Session.books_of_gives (S.steady.maybeRecordRequestErrorBurst _ _)).bind fun _ =>
        Session.books_commit.bind fun _ => Session.books_pure _
  refine (hS.updateJob jobId fun _ => by simp).safe_bind fun _ => Session.books_commit.safe_bind fun _ => ?_
  exact triple_tryFinally hfail (fun _ => hrelease) fun _ => hrelease

/-- `process_generation_job` leaves a fine database. -/
theorem Workable.safe_processGenerationJob (settings : Settings) (jobId : JobId) (rel : Relations) :
    S.Safe (processGenerationJob settings (jobChat settings) jobId rel) := by
  have hload : Triple S.whole (loadJob jobId)
      (fun job w => S.whole w ∧ ∀ j ∈ job, j.status = .queued → S.CanBook (jobTag j))
      fun _ w => S.fine w.committed := by
    refine triple_bind (Session.books_await.conseq (fun _ h => h) (fun _ _ h => h) fun _ _ h => h.1) fun _ => ?_
    exact triple_modifyGet fun w hw => ⟨hw, fun j hj => hS.book jobId j hw hj⟩
  have hfail : ∀ message, S.Safe (failEarly jobId message) := fun message =>
    (hS.books_end jobId (fun _ => by simp) _).safe
  refine triple_bind hload fun job => ?_
  rintro w ⟨hw, hjob⟩
  cases job with
  | none => exact S.fine_of_whole hw
  | some job =>
    have hbook := hjob job rfl
    revert w
    dsimp only
    show S.Safe _
    split_ifs with hqueued hmay
    · exact (Session.books_pure _).safe
    · exact hfail _
    · refine (Session.books_lookupExactCache settings _).safe_bind fun cached => ?_
      cases cached with
      | some cached =>
        have hcached := hbook (not_not.mp hqueued) cached.result rfl cached.completionTokens false true
        exact (hcached.bind fun _ => hS.books_end jobId (fun _ => by simp) _).safe
      | none =>
        unfold processOnBackend
        rcases rel.routes with _ | _ | routes
        · exact hfail _
        · exact triple_raise fun _ hw => S.fine_of_whole hw
        · refine (Session.books_of_gives (steady_chooseRoute S.steady routes)).safe_bind fun backend => ?_
          cases backend with
          | none => exact (Session.books_await.bind fun _ => Session.books_pure _).safe
          | some backend => exact hS.safe_runOn settings jobId (hbook (not_not.mp hqueued)) backend

end Workers

end LlmStore.Jobs
