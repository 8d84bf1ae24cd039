import LlmStore.Jobs.Worker

/-!
# Jobs that are neither worked on nor charged

`process_generation_job` answers a job from the cache, or with a backend, only under the conditions of `Served`. On
every other job a worker does the same whatever the proxy does, since it never calls it, and the committed counters
stay as they are (`agree_runOnce`), whichever of its calls fail.
-/

namespace LlmStore.Jobs

open LlmStore.Calendar LlmStore.Lib LlmStore.Usage LlmStore.Inference Program

/-- The job is queued, its client may have it worked on, and the cache has an answer for it or a backend of its model
has a free slot. -/
def Served (settings : Settings) (w : World) (job : GenerationJob) (rel : Relations) : Prop :=
  job.status = .queued ∧ rel.mayRun = true ∧
    (cacheHit settings w.committed (w.env.clock 0).instant (jobKey job) = true ∨
      ∃ routes, rel.routes = some (.ok routes) ∧ (freeBackend w.slots routes).isSome = true)

/-- The committed counters are these. -/
abbrev Charged (usage : UsageTables) (w : World) : Prop := w.committed.usage = usage

/-! ## Waiting -/

/-- The world is `w`, with other calls still to fail. -/
def Waited (w w' : World) : Prop := ∃ faults, w' = w.setEnv fun env => { env with faults }

theorem waited_self (w : World) : Waited w w := ⟨w.env.faults, rfl⟩

theorem triple_await {I : World → Prop} (h : ∀ w w', Waited w w' → I w → I w') :
    Triple I await (fun _ => I) fun _ => I := by
  have hfault : Triple I nextFault (fun _ => I) fun _ => I :=
    triple_modifyGet fun w hw => h w _ ⟨fun n => w.env.faults (n + 1), rfl⟩ hw
  refine triple_bind hfault fun fault => ?_
  cases fault with
  | true => exact triple_raise fun _ hw => hw
  | false => exact triple_pure fun _ hw => hw

theorem Waited.trans {w w' w'' : World} (h : Waited w w') (h' : Waited w' w'') : Waited w w'' := by
  obtain ⟨faults, rfl⟩ := h
  obtain ⟨faults', rfl⟩ := h'
  exact ⟨faults', rfl⟩

theorem triple_await_waited (w : World) : Triple (Waited w) await (fun _ => Waited w) fun _ => Waited w :=
  triple_await fun _ _ h hw => hw.trans h

theorem triple_await_charged (usage : UsageTables) :
    Triple (Charged usage) await (fun _ => Charged usage) fun _ => Charged usage := by
  refine triple_await ?_
  rintro w _ ⟨faults, rfl⟩ hw
  exact hw

/-! ## The parts of `process_generation_job` -/

/-- The counters are these in the session and as committed, and so are the slots. -/
structure Calm (usage : UsageTables) (slots : Slots.BackendId → Option Slots.InferenceBackend) (w : World) : Prop where
  committed : Charged usage w
  current : w.current.usage = usage
  slots : w.slots = slots

section Calm

variable {usage : UsageTables} {slots : Slots.BackendId → Option Slots.InferenceBackend}

theorem triple_await_calm : Triple (Calm usage slots) await (fun _ => Calm usage slots) fun _ => Calm usage slots := by
  refine triple_await ?_
  rintro w _ ⟨faults, rfl⟩ ⟨hcom, hcur, hslots⟩
  exact ⟨hcom, hcur, hslots⟩

theorem triple_commit_calm : Triple (Calm usage slots) commit (fun _ => Charged usage) fun _ => Charged usage := by
  have hfault : Triple (Calm usage slots) nextFault (fun _ => Calm usage slots) fun _ => Charged usage :=
    triple_modifyGet fun w hw => ⟨hw.committed, hw.current, hw.slots⟩
  have hwrite : Triple (Calm usage slots) (modify fun w => { w with committed := w.current } : Prog Unit)
      (fun _ => Charged usage) fun _ => Charged usage := triple_modify fun w hw => hw.current
  refine triple_bind hfault fun fault => ?_
  cases fault with
  | false => exact hwrite
  | true =>
    refine triple_bind hfault fun committed => ?_
    cases committed with
    | false => exact triple_raise fun _ hw => hw.committed
    | true => exact triple_bind hwrite fun _ => triple_raise fun _ hw => hw

theorem triple_failEarly (jobId : JobId) (message : String) :
    Triple (Calm usage slots) (failEarly jobId message) (fun _ => Charged usage) fun _ => Charged usage := by
  refine triple_bind (Q := fun _ => Calm usage slots) (triple_modify fun w hw => ?_) fun _ =>
    triple_bind triple_commit_calm fun _ => triple_pure fun _ hw => hw
  simp only [World.setCurrent]
  split
  · exact ⟨hw.committed, hw.current, hw.slots⟩
  · exact ⟨hw.committed, hw.current, hw.slots⟩

/-- Where every slot is taken, no backend is chosen. -/
theorem triple_chooseRoute (usage : UsageTables) : ∀ {routes : List Models.ModelBackendRoute},
    freeBackend slots routes = none →
      Triple (Calm usage slots) (chooseRoute routes) (fun backend w => backend = none ∧ Calm usage slots w)
        fun _ => Calm usage slots
  | [], _ => triple_pure fun _ hw => ⟨rfl, hw⟩
  | route :: routes, hnone => by
    unfold chooseRoute
    cases hb : route.inferenceBackend with
    | none =>
      rw [freeBackend, List.filterMap_cons_none hb] at hnone
      exact triple_chooseRoute usage hnone
    | some backend =>
      rw [freeBackend, List.filterMap_cons_some hb, List.find?_eq_none, List.forall_mem_cons] at hnone
      have hrefused : (Slots.tryAcquire (slots backend.id)).1 = false := by simpa using hnone.1
      have hrest : freeBackend slots routes = none := List.find?_eq_none.mpr hnone.2
      refine triple_bind (Q := fun acquired w => acquired = false ∧ Calm usage slots w) ?_ fun acquired => ?_
      · refine triple_bind triple_await_calm fun _ => ?_
        refine triple_bind (Q := fun acquired w => acquired = false ∧ Calm usage slots w)
          (triple_modifyGet fun w hw => ?_) fun acquired => ?_
        · have hsame : Function.update w.slots backend.id (Slots.tryAcquire (w.slots backend.id)).2 = slots := by
            rw [hw.slots, tryAcquire_refused hrefused, Function.update_eq_self]
          exact ⟨by rw [hw.slots]; exact hrefused, hw.committed, hw.current, hsame⟩
        · rintro w ⟨rfl, hw⟩
          exact triple_bind triple_await_calm (fun _ => triple_pure fun _ hw => ⟨rfl, hw⟩) w hw
      · rintro w ⟨rfl, hw⟩
        exact triple_chooseRoute usage hrest w hw

end Calm

/-- Without a cached answer the lookup finds none. -/
theorem triple_lookupExactCache (settings : Settings) (key : CacheKey) {w : World} (hcur : w.current = w.committed)
    (hmiss : cacheHit settings w.committed (w.env.clock 0).instant key = false) :
    Triple (Waited w) (lookupExactCache settings key)
      (fun cached w' => cached = none ∧ Calm w.committed.usage w.slots w')
      fun _ => Calm w.committed.usage w.slots := by
  have hcalm : ∀ {w'}, Waited w w' → Calm w.committed.usage w.slots w' := by
    rintro _ ⟨faults, rfl⟩
    exact ⟨rfl, congrArg Database.usage hcur, rfl⟩
  unfold lookupExactCache
  by_cases hs : settings.responseCacheEnabled = true
  · rw [if_pos hs]
    let w₁ := w.setEnv fun env => { env with clock := fun n => env.clock (n + 1) }
    have hcalm₁ : ∀ {w'}, Waited w₁ w' → Calm w.committed.usage w.slots w' := by
      rintro _ ⟨faults, rfl⟩
      exact ⟨rfl, congrArg Database.usage hcur, rfl⟩
    refine triple_bind (Q := fun now w' => now = w.env.clock 0 ∧ Waited w₁ w') ?_ fun now => ?_
    · refine triple_modifyGet ?_
      rintro _ ⟨faults, rfl⟩
      exact ⟨rfl, faults, rfl⟩
    rintro w' ⟨rfl, hw'⟩
    refine triple_bind ((triple_await_waited w₁).conseq (fun _ h => h) (fun _ _ h => h) fun _ _ h => hcalm₁ h)
      (fun _ => triple_modifyGet ?_) w' hw'
    rintro _ ⟨faults, rfl⟩
    have hlookup : (w₁.setEnv fun env => { env with faults }).current.responseCache = w.committed.responseCache :=
      congrArg Database.responseCache hcur
    dsimp only
    rw [hlookup]
    cases hrow : w.committed.responseCache.lookup key with
    | none => exact ⟨rfl, hcalm₁ ⟨faults, rfl⟩⟩
    | some row =>
      by_cases hvalid : row.isActive = true ∧ row.expiresAt > (w.env.clock 0).instant
      · have hnull : row.responseJson = "null" := by
          simpa [cacheHit, hs, hrow, hvalid] using hmiss
        simp only [if_pos hvalid, if_pos hnull]
        exact ⟨trivial, rfl, (congrArg Database.usage hcur :), rfl⟩
      · simp only [if_neg hvalid]
        exact ⟨trivial, hcalm₁ ⟨faults, rfl⟩⟩
  · rw [if_neg hs]
    exact triple_pure fun _ hw => ⟨rfl, hcalm hw⟩

section Idle

variable {settings : Settings} {rel : Relations} {w : World}

/-- On a job that is not served the proxy is not called, and nothing is charged. -/
theorem agree_processGenerationJob (p p' : Models.InferenceBackend → Prog ForwardResult) (jobId : JobId)
    (hcur : w.current = w.committed)
    (hidle : ∀ job, w.committed.jobs.lookup jobId = some job → ¬ Served settings w job rel) :
    AgreeFrom (Charged w.committed.usage) (processGenerationJob settings p jobId rel)
      (processGenerationJob settings p' jobId rel) w := by
  have hcharged : ∀ {w'}, Waited w w' → Charged w.committed.usage w' := by
    rintro _ ⟨faults, rfl⟩
    rfl
  have hcalm : ∀ {w'}, Waited w w' → Calm w.committed.usage w.slots w' := by
    rintro _ ⟨faults, rfl⟩
    exact ⟨rfl, congrArg Database.usage hcur, rfl⟩
  have hload : Triple (Waited w) (loadJob jobId) (fun job w' => job = w.committed.jobs.lookup jobId ∧ Waited w w')
      fun _ => Charged w.committed.usage := by
    refine triple_bind ((triple_await_waited w).conseq (fun _ h => h) (fun _ _ h => h) fun _ _ h => hcharged h)
      fun _ => triple_modifyGet ?_
    rintro _ ⟨faults, rfl⟩
    refine ⟨?_, faults, rfl⟩
    show w.current.jobs.lookup jobId = _
    rw [hcur]
  refine agreeFrom_step hload (waited_self w) ?_
  rintro job w₁ ⟨hjob, hw₁⟩
  cases job with
  | none => exact ⟨rfl, hcharged hw₁⟩
  | some job =>
    have hidle := hidle job hjob.symm
    dsimp only
    by_cases hqueued : job.status ≠ .queued
    · rw [if_pos hqueued, if_pos hqueued]
      exact ⟨rfl, hcharged hw₁⟩
    rw [if_neg hqueued, if_neg hqueued]
    by_cases hmay : (!rel.mayRun) = true
    · rw [if_pos hmay, if_pos hmay]
      exact agreeFrom_of_triple (triple_failEarly jobId _) (hcalm hw₁)
    rw [if_neg hmay, if_neg hmay]
    have hnot : ¬ (cacheHit settings w.committed (w.env.clock 0).instant (jobKey job) = true ∨
        ∃ routes, rel.routes = some (.ok routes) ∧ (freeBackend w.slots routes).isSome = true) := fun h =>
      hidle ⟨not_not.mp hqueued, by simpa using hmay, h⟩
    rw [not_or, Bool.not_eq_true] at hnot
    obtain ⟨hmiss, hnone⟩ := hnot
    have hlookup := (triple_lookupExactCache settings (jobKey job) hcur hmiss).conseq (fun _ h => h)
      (fun _ _ h => h) fun _ _ h => h.committed
    refine agreeFrom_step hlookup hw₁ ?_
    rintro _ w₂ ⟨rfl, hw₂⟩
    unfold processOnBackend
    rcases hroutes : rel.routes with _ | _ | routes
    · exact agreeFrom_of_triple (triple_failEarly jobId _) hw₂
    · exact agreeFrom_of_triple (I := Calm w.committed.usage w.slots) (triple_raise fun _ hw => hw.committed) hw₂
    · have hfree : freeBackend w.slots routes = none := by
        rw [← Option.not_isSome_iff_eq_none]
        exact fun h => hnone ⟨routes, hroutes, h⟩
      have hchoose := (triple_chooseRoute w.committed.usage hfree).conseq (fun _ h => h)
        (fun _ _ h => h) fun _ _ h => h.committed
      refine agreeFrom_step hchoose hw₂ ?_
      rintro _ w₃ ⟨rfl, hw₃⟩
      refine agreeFrom_of_triple (I := Calm w.committed.usage w.slots) ?_ hw₃
      exact triple_bind (triple_await_calm.conseq (fun _ h => h) (fun _ _ h => h.committed) fun _ _ h => h.committed)
        fun _ => triple_pure fun _ hw => hw

/-- **A worker leaves alone what is not served**: the step does the same whatever the proxy does, and the committed
counters stay as they are. -/
theorem agree_runOnce (p p' : Models.InferenceBackend → Prog ForwardResult) (rel : JobId → Relations) {jobId : JobId}
    {rest : List (Option JobId)} (hpop : w.queue = some jobId :: rest)
    (hidle : ∀ job, w.committed.jobs.lookup jobId = some job → ¬ Served settings w job (rel jobId)) :
    AgreeFrom (Charged w.committed.usage) (runOnce settings p rel) (runOnce settings p' rel) w := by
  let w₁ := { w with queue := rest }
  have hcharged : ∀ {w'}, Waited w₁ w' → Charged w.committed.usage w' := by
    rintro _ ⟨faults, rfl⟩
    rfl
  have hblpop : Triple (Waited w) blpop (fun item w' => item = some (some jobId) ∧ Waited w₁ w')
      fun _ => Charged w.committed.usage := by
    refine triple_bind ((triple_await_waited w).conseq (fun _ h => h) (fun _ _ h => h) ?_) fun _ =>
      triple_modifyGet ?_
    · rintro _ _ ⟨faults, rfl⟩
      rfl
    · rintro _ ⟨faults, rfl⟩
      show w.queue.head? = _ ∧ Waited w₁ { w.setEnv _ with queue := w.queue.tail }
      rw [hpop]
      exact ⟨rfl, faults, rfl⟩
  unfold runOnce
  refine agreeFrom_step hblpop (waited_self w) ?_
  rintro _ w' ⟨rfl, hw'⟩
  dsimp only
  refine agreeFrom_step ((triple_await_waited w₁).conseq (fun _ h => h) (fun _ _ h => h) fun _ _ h => hcharged h) hw'
    ?_
  rintro _ _ ⟨faults, rfl⟩
  let w₂ := { w₁.setEnv (fun env => { env with faults }) with current := w.committed }
  have hbegin : Triple (· = w₁.setEnv fun env => { env with faults }) beginSession (fun _ w' => w' = w₂)
      fun _ => Charged w.committed.usage := by
    refine triple_modify ?_
    rintro _ rfl
    rfl
  refine agreeFrom_step hbegin rfl ?_
  rintro _ _ rfl
  refine (agree_processGenerationJob (w := w₂) p p' jobId rfl hidle).bind fun result w' hw' => ?_
  have hawait := triple_await_charged w.committed.usage
  have hrpush : Triple (Charged w.committed.usage) (rpush jobId) (fun _ => Charged w.committed.usage)
      fun _ => Charged w.committed.usage := triple_bind hawait fun _ => triple_modify fun _ hw => hw
  cases result with
  | requeue =>
    exact agreeFrom_of_triple (triple_bind hrpush fun _ => triple_bind hawait fun _ => hawait) hw'
  | _ => exact agreeFrom_of_triple (triple_pure fun _ hw => hw) hw'

end Idle

end LlmStore.Jobs
