import LlmStore.Jobs.SlotLeak

/-!
# Why a job is put back into the queue

`process_generation_job` returns `"requeue"` when its loop over the routes ends without a slot. If the model has routes
that may be used, each of their backends has been asked and was at its limit or inactive (`tried_run`). A model
without such a route ends the loop at once, and its job goes round the queue for ever; or, if the routes cannot be
planned, an exception takes the job out of the queue (`requeue_iff`).
-/

namespace LlmStore.Jobs

open LlmStore.Lib LlmStore.Inference

/-! ## Phases that lead to the return -/

theorem loaded_cases (rel : Relations) (status : Option JobStatus) :
    (Phase.loaded rel status = .looking rel.backends ∧ status = some .queued ∧ rel.mayRun = true) ∨
      Phase.loaded rel status = .refusing ∨ Phase.loaded rel status = .ended (some .missing) ∨
      Phase.loaded rel status = .ended (some .skipped) := by
  unfold Phase.loaded
  cases status with
  | none => exact .inr (.inr (.inl rfl))
  | some status =>
    dsimp only
    by_cases hq : status ≠ .queued
    · rw [if_pos hq]
      exact .inr (.inr (.inr rfl))
    · rw [if_neg hq]
      cases hmay : rel.mayRun with
      | false => exact .inr (.inl rfl)
      | true => exact .inl ⟨rfl, congrArg some (not_not.mp hq), rfl⟩

/-- An exception leads to none of these phases. -/
theorem unwind_cases (p : Phase) (http : Bool) :
    (∃ b, p.unwind http = .failing b) ∨ (∃ b, p.unwind http = .releasing b none) ∨ p.unwind http = .ended none := by
  cases p with
  | claimed b | called b | booked b =>
    cases http with
    | true => exact .inl ⟨b, rfl⟩
    | false => exact .inr (.inl ⟨b, rfl⟩)
  | failing b => exact .inr (.inl ⟨b, rfl⟩)
  | _ => exact .inr (.inr rfl)

/-- What a call can do to the phases that lead to the return of `"requeue"`. -/
inductive Leads (p : Phase) : Call → Phase → Prop
  | stay : Leads p .other p
  | load (status : Option JobStatus) (rel : Relations) (hp : p = .loading) :
      Leads p (.load status rel) (Phase.loaded rel status)
  | lookup (bs : List Slots.BackendId) (hp : p = .looking (some (.ok bs))) : Leads p (.lookup false) (.choosing bs)
  | refuse (b : Slots.BackendId) (bs : List Slots.BackendId) (hp : p = .choosing (b :: bs)) :
      Leads p (.tryAcquire b false) (.choosing bs)
  | llen (hp : p = .choosing []) : Leads p .llen (.ended (some .requeue))
  | elsewhere {c : Call} {q : Phase} (hlooking : ∀ bs, q ≠ .looking bs) (hchoosing : ∀ bs, q ≠ .choosing bs)
      (hreleasing : ∀ b, q ≠ .releasing b (some .requeue))
      (hended : q = .ended (some .requeue) → ∃ b, p = .releasing b (some .requeue)) : Leads p c q

theorem leads_of_unwind {p : Phase} {c : Call} (http : Bool) : Leads p c (p.unwind http) := by
  rcases unwind_cases p http with ⟨b, h⟩ | ⟨b, h⟩ | h <;> rw [h] <;> exact .elsewhere nofun nofun nofun nofun

theorem next_leads {p q : Phase} {c : Call} (h : p.next c = some q) : Leads p c q := by
  unfold Phase.next at h
  split at h
  case h_1 => cases h; exact .load _ _ rfl
  case h_6 => cases h; exact .lookup _ rfl
  case h_9 b bs b' acquired =>
    split_ifs at h with hb ha <;> cases h
    · exact .elsewhere nofun nofun nofun nofun
    · obtain rfl : acquired = false := Bool.eq_false_iff.mpr ha
      subst hb
      exact .refuse _ _ rfl
  case h_11 => cases h; exact .llen rfl
  case h_17 b r b' =>
    split_ifs at h with hb
    cases h
    exact .elsewhere nofun nofun nofun fun hr => ⟨b, by rw [Phase.ended.inj hr]⟩
  case h_10 | h_18 =>
    split_ifs at h
    cases h
    exact .elsewhere nofun nofun nofun nofun
  case h_19 => split_ifs at h; cases h; exact .stay
  case h_20 | h_21 => split_ifs at h; cases h; exact leads_of_unwind _
  case h_22 => cases h
  all_goals cases h; exact .elsewhere nofun nofun nofun nofun

/-! ## The routes that were tried -/

/-- In the run the backend has been asked for a slot and has refused it, with its row there: it was inactive or at its
limit. -/
def Refused (σ : Work) (actions : List WorkAction) (b : Slots.BackendId) : Prop :=
  ∃ before after t row, actions = before ++ .call (.tryAcquire b false) :: after ∧
    run Work.step σ before = some t ∧ t.slots b = some row ∧ (row.isActive = false ∨ row.limit ≤ row.currentRunning)

/-- Another transaction deletes the row of a backend. -/
def WorkAction.deletes : WorkAction → Prop
  | .elsewhere _ row => row = none
  | .call _ => False

/-- What is loaded with the job, and what the cache says. -/
structure Given (status : Option JobStatus) (rel : Relations) (hit : Bool) (actions : List WorkAction) : Prop where
  load : ∀ status' rel', .call (.load status' rel') ∈ actions → status' = status ∧ rel' = rel
  lookup : ∀ hit', .call (.lookup hit') ∈ actions → hit' = hit

/-- How a run leads to the return of `"requeue"`. -/
structure Tried (status : Option JobStatus) (rel : Relations) (hit : Bool) (σ : Work) (actions : List WorkAction)
    (p : Phase) : Prop where
  looking : ∀ bs, p = .looking bs → bs = rel.backends ∧ status = some .queued ∧ rel.mayRun = true
  choosing : ∀ bs, p = .choosing bs → ∃ tried, rel.backends = some (.ok (tried ++ bs)) ∧
    (∀ b ∈ tried, Refused σ actions b) ∧ status = some .queued ∧ rel.mayRun = true ∧ hit = false
  releasing : ∀ b, p ≠ .releasing b (some .requeue)
  requeue : p = .ended (some .requeue) → ∃ bs, rel.backends = some (.ok bs) ∧ (∀ b ∈ bs, Refused σ actions b) ∧
    status = some .queued ∧ rel.mayRun = true ∧ hit = false

section Runs

variable {status : Option JobStatus} {rel : Relations} {hit : Bool} {σ w w' : Work} {actions : List WorkAction}
  {a : WorkAction} {b : Slots.BackendId}

theorem Refused.snoc (h : Refused σ actions b) (a : WorkAction) : Refused σ (actions ++ [a]) b := by
  obtain ⟨before, after, t, row, rfl, h⟩ := h
  exact ⟨before, after ++ [a], t, row, by simp, h⟩

theorem tryAcquire_eq_false {row : Slots.InferenceBackend} (h : (Slots.tryAcquire (some row)).1 = false) :
    row.isActive = false ∨ row.limit ≤ row.currentRunning := by
  dsimp only [Slots.tryAcquire] at h
  split_ifs at h with hactive hlimit
  · exact .inl (by simpa using hactive)
  · exact .inr hlimit

theorem tryAcquire_isSome {row : Option Slots.InferenceBackend} (h : row.isSome = true) :
    (Slots.tryAcquire row).2.isSome = true := by
  obtain ⟨row, rfl⟩ := Option.isSome_iff_exists.mp h
  dsimp only [Slots.tryAcquire]
  split_ifs <;> rfl

theorem release_isSome {row : Option Slots.InferenceBackend} (h : row.isSome = true) :
    (Slots.release row).isSome = true := by
  obtain ⟨row, rfl⟩ := Option.isSome_iff_exists.mp h
  rfl

/-- No row is lost unless another transaction deletes it. -/
theorem step_rows (h : w.step a = some w') (ha : ¬ a.deletes) (hb : (w.slots b).isSome = true) :
    (w'.slots b).isSome = true := by
  have hupdate : ∀ {b' : Slots.BackendId} {row : Option Slots.InferenceBackend},
      (b = b' → row.isSome = true) → (Function.update w.slots b' row b).isSome = true := by
    intro b' row hrow
    by_cases he : b = b'
    · rw [he, Function.update_self]
      exact hrow he
    · rw [Function.update_of_ne he]
      exact hb
  cases a with
  | elsewhere b' row =>
    obtain rfl := Option.some.inj h
    exact hupdate fun _ => Option.isSome_iff_ne_none.mpr ha
  | call c =>
    have hslots := (Work.step_call_iff.mp h).2
    unfold Call.onSlots at hslots
    split at hslots
    case h_1 =>
      split_ifs at hslots
      rw [← Option.some.inj hslots]
      exact hupdate fun he => tryAcquire_isSome (he ▸ hb)
    case h_2 =>
      rw [← Option.some.inj hslots]
      exact hupdate fun he => tryAcquire_isSome (he ▸ hb)
    case h_3 | h_4 =>
      rw [← Option.some.inj hslots]
      exact hupdate fun he => release_isSome (he ▸ hb)
    case h_5 =>
      rw [← Option.some.inj hslots]
      exact hb

theorem run_rows (hrun : run Work.step σ actions = some w) (hdel : ∀ a ∈ actions, ¬ a.deletes)
    (hb : (σ.slots b).isSome = true) : (w.slots b).isSome = true := by
  induction actions using List.reverseRecOn generalizing w with
  | nil =>
    obtain rfl := Option.some.inj hrun
    exact hb
  | append_singleton actions a ih =>
    obtain ⟨t, ht, hstep⟩ := run_snoc_iff.mp hrun
    exact step_rows hstep (hdel a (by simp)) (ih ht fun a' ha' => hdel a' (List.mem_append_left _ ha'))

theorem Tried.snoc {p : Phase} (h : Tried status rel hit σ actions p) (a : WorkAction) :
    Tried status rel hit σ (actions ++ [a]) p := by
  refine ⟨h.looking, fun bs hbs => ?_, h.releasing, fun hend => ?_⟩
  · obtain ⟨tried, hall, hrefused, hrest⟩ := h.choosing bs hbs
    exact ⟨tried, hall, fun b hb => (hrefused b hb).snoc a, hrest⟩
  · obtain ⟨bs, hall, hrefused, hrest⟩ := h.requeue hend
    exact ⟨bs, hall, fun b hb => (hrefused b hb).snoc a, hrest⟩

/-- One call of a run. -/
theorem tried_call {c : Call} {q : Phase} (hrow : ∀ bs b, rel.backends = some (.ok bs) → b ∈ bs → (w.slots b).isSome = true)
    (hgiven : Given status rel hit (actions ++ [.call c])) (hrun : run Work.step σ actions = some w)
    (hslots : c.onSlots w.slots = some w'.slots) (h : Tried status rel hit σ actions w.phase)
    (hleads : Leads w.phase c q) :
    Tried status rel hit σ (actions ++ [.call c]) q := by
  cases hleads with
  | stay => exact h.snoc _
  | load status' rel' hp =>
    obtain ⟨rfl, rfl⟩ := hgiven.load status' rel' (by simp)
    rcases loaded_cases rel' status' with ⟨hl, hq, hmay⟩ | hl | hl | hl <;> rw [hl]
    · exact ⟨fun bs hbs => ⟨(Phase.looking.inj hbs).symm, hq, hmay⟩, nofun, nofun, nofun⟩
    · exact ⟨nofun, nofun, nofun, nofun⟩
    · exact ⟨nofun, nofun, nofun, nofun⟩
    · exact ⟨nofun, nofun, nofun, nofun⟩
  | lookup bs hp =>
    obtain ⟨hbs, hq, hmay⟩ := h.looking _ hp
    have hhit : hit = false := (hgiven.lookup false (by simp)).symm
    refine ⟨nofun, fun bs' hbs' => ⟨[], ?_, nofun, hq, hmay, hhit⟩, nofun, nofun⟩
    rw [← hbs, Phase.choosing.inj hbs', List.nil_append]
  | refuse b bs hp =>
    obtain ⟨tried, hall, hrefused, hrest⟩ := h.choosing _ hp
    obtain ⟨row, hb⟩ := Option.isSome_iff_exists.mp (hrow _ b hall (by simp))
    have hfalse : (Slots.tryAcquire (w.slots b)).1 = false := by
      dsimp only [Call.onSlots] at hslots
      split_ifs at hslots with hf
      exact hf
    have hthis : Refused σ (actions ++ [.call (.tryAcquire b false)]) b :=
      ⟨actions, [], w, row, rfl, hrun, hb, tryAcquire_eq_false (hb ▸ hfalse)⟩
    refine ⟨nofun, fun bs' hbs' => ⟨tried ++ [b], ?_, fun b' hb' => ?_, hrest⟩, nofun, nofun⟩
    · rw [hall, ← Phase.choosing.inj hbs', List.append_assoc, List.singleton_append]
    · rcases List.mem_append.mp hb' with hold | hnew
      · exact (hrefused b' hold).snoc _
      · rw [List.mem_singleton.mp hnew]
        exact hthis
  | llen hp =>
    obtain ⟨tried, hall, hrefused, hrest⟩ := h.choosing [] hp
    rw [List.append_nil] at hall
    exact ⟨nofun, nofun, nofun, fun _ => ⟨tried, hall, fun b hb => (hrefused b hb).snoc _, hrest⟩⟩
  | elsewhere hlooking hchoosing hreleasing hended =>
    refine ⟨fun bs hbs => absurd hbs (hlooking bs), fun bs hbs => absurd hbs (hchoosing bs), hreleasing, fun hend => ?_⟩
    obtain ⟨b, hb⟩ := hended hend
    exact absurd hb (h.releasing b)

/-- A whole run. -/
theorem tried_run (hσ : σ.phase = .loading) (hrows : ∀ bs, rel.backends = some (.ok bs) → ∀ b ∈ bs, (σ.slots b).isSome = true)
    (hdel : ∀ a ∈ actions, ¬ a.deletes) (hgiven : Given status rel hit actions)
    (hrun : run Work.step σ actions = some w) : Tried status rel hit σ actions w.phase := by
  induction actions using List.reverseRecOn generalizing w with
  | nil =>
    obtain rfl := Option.some.inj hrun
    rw [hσ]
    exact ⟨nofun, nofun, nofun, nofun⟩
  | append_singleton actions a ih =>
    obtain ⟨t, ht, hstep⟩ := run_snoc_iff.mp hrun
    have hdel' : ∀ a' ∈ actions, ¬ a'.deletes := fun a' ha' => hdel a' (List.mem_append_left _ ha')
    have hgiven' : Given status rel hit actions :=
      ⟨fun status' rel' hmem => hgiven.load status' rel' (List.mem_append_left _ hmem),
        fun hit' hmem => hgiven.lookup hit' (List.mem_append_left _ hmem)⟩
    have htried := ih hdel' hgiven' ht
    cases a with
    | elsewhere b row =>
      obtain rfl := Option.some.inj hstep
      exact htried.snoc _
    | call c =>
      obtain ⟨hnext, hslots⟩ := Work.step_call_iff.mp hstep
      refine tried_call (fun bs b hbs hb => ?_) hgiven ht hslots htried (next_leads hnext)
      exact run_rows ht hdel' (hrows bs hbs b hb)

end Runs

/-! ## Models -/

/-- The job waits for capacity: its model has routes that may be used, and in the run the backend of each of them has
refused a slot. -/
def Waits (rel : Relations) (σ : Work) (actions : List WorkAction) : Prop :=
  ∃ m, rel.model = some m ∧ Models.getRoutingCandidates m ≠ [] ∧ ∀ route ∈ Models.getRoutingCandidates m,
    ∃ backend, route.inferenceBackend = some backend ∧ Refused σ actions backend.id

/-- The rows of the model's backends are there. -/
def Present (rel : Relations) (slots : Slots.BackendId → Option Slots.InferenceBackend) : Prop :=
  ∀ m, rel.model = some m → ∀ route ∈ Models.getRoutingCandidates m, ∀ backend, route.inferenceBackend = some backend →
    (slots backend.id).isSome = true

/-- In every run that returns `"requeue"` the job waits for capacity. -/
def RequeuedToWait (status : Option JobStatus) (rel : Relations) (hit : Bool) : Prop :=
  ∀ slots, Present rel slots → ∀ actions w, run Work.step ⟨.loading, slots⟩ actions = some w →
    (∀ a ∈ actions, ¬ a.deletes) → Given status rel hit actions → w.phase = .ended (some .requeue) →
      Waits rel ⟨.loading, slots⟩ actions

/-- Every run for a queued job whose model has no route that may be used ends in a terminal status, if no call
raises. -/
def TerminalWithoutRoute (status : Option JobStatus) (rel : Relations) (hit : Bool) : Prop :=
  status = some .queued → ∀ m, rel.model = some m → Models.getRoutingCandidates m = [] →
    ∀ slots actions result slots', run Work.step ⟨.loading, slots⟩ actions = some ⟨.ended result, slots'⟩ →
      (∀ a ∈ actions, a.raises = false) → Given status rel hit actions →
        result = some .failed ∨ result = some .completed

section Models

variable {rel : Relations} {m : Models.ModelRegistry}

/-- The backends that are tried are those of the candidates. -/
theorem mem_backends_iff (hm : rel.model = some m) {bs : List Slots.BackendId} (hbs : rel.backends = some (.ok bs))
    {b : Slots.BackendId} :
    b ∈ bs ↔ ∃ route ∈ Models.getRoutingCandidates m, ∃ backend, route.inferenceBackend = some backend ∧
      backend.id = b := by
  have hloaded : Models.RoutingLoaded rel.primaryLoaded m := by
    by_contra hnot
    obtain ⟨e, he⟩ := Models.planLoaded_of_not_loaded hnot rel.draws
    rw [Relations.backends, ModelLoad.routes, hm, Option.map_some, he] at hbs
    cases hbs
  rw [Relations.backends, ModelLoad.routes, hm, Option.map_some, Models.planLoaded_of_loaded hloaded] at hbs
  cases hbs
  simp only [backendIds, List.mem_filterMap, Option.map_eq_some_iff]
  refine exists_congr fun route => and_congr_left fun _ => ?_
  exact (Models.planRoutingOrder_perm m rel.draws).mem_iff

theorem model_of_backends {planned : Except Models.LoadError (List Slots.BackendId)}
    (h : rel.backends = some planned) : ∃ m, rel.model = some m := by
  cases hm : rel.model with
  | none =>
    rw [Relations.backends, ModelLoad.routes, hm] at h
    cases h
  | some m => exact ⟨m, rfl⟩

/-! ### Without a route -/

/-- The calls for a job without routes: it is loaded, not found in the cache, and requeued, or the planning raises. -/
def requeueCalls (rel : Relations) : List WorkAction :=
  [.call (.load (some .queued) rel), .call (.lookup false)] ++
    match rel.backends with
    | some (.error _) => []
    | _ => [.call .llen]

/-- Such a job does not end in a terminal status. -/
theorem run_requeue (slots : Slots.BackendId → Option Slots.InferenceBackend) (hmay : rel.mayRun = true)
    (hm : rel.model = some m) (hnone : Models.getRoutingCandidates m = []) :
    ∃ result, run Work.step ⟨.loading, slots⟩ (requeueCalls rel) = some ⟨.ended result, slots⟩ ∧
      (result = some .requeue ∨ result = none) := by
  have hloaded : Phase.loaded rel (some .queued) = .looking rel.backends := by simp [Phase.loaded, hmay]
  have hload : Work.step ⟨.loading, slots⟩ (.call (.load (some .queued) rel)) = some ⟨.looking rel.backends, slots⟩ :=
    Work.step_call_iff.mpr ⟨congrArg some hloaded, rfl⟩
  unfold requeueCalls
  cases hbackends : rel.backends with
  | none =>
    rw [Relations.backends, ModelLoad.routes, hm] at hbackends
    cases hbackends
  | some planned =>
    rw [hbackends] at hload
    cases planned with
    | error e => exact ⟨none, run_cons_iff.mpr ⟨_, hload, rfl⟩, .inr rfl⟩
    | ok bs =>
      have hnil : bs = [] := by
        refine List.eq_nil_iff_forall_not_mem.mpr fun b hb => ?_
        obtain ⟨route, hroute, -⟩ := (mem_backends_iff hm hbackends).mp hb
        rw [hnone] at hroute
        cases hroute
      subst hnil
      exact ⟨some .requeue, run_cons_iff.mpr ⟨_, hload, rfl⟩, .inl rfl⟩

theorem requeueCalls_raises (rel : Relations) : ∀ a ∈ requeueCalls rel, a.raises = false := by
  intro a ha
  unfold requeueCalls at ha
  split at ha <;> simp only [List.cons_append, List.nil_append, List.mem_cons, List.not_mem_nil, or_false] at ha
  · rcases ha with rfl | rfl <;> rfl
  · rcases ha with rfl | rfl | rfl <;> rfl

theorem given_requeue (rel : Relations) : Given (some .queued) rel false (requeueCalls rel) := by
  unfold requeueCalls
  split
  · exact ⟨fun status rel' h => by simpa using h, fun hit h => by simpa using h⟩
  · exact ⟨fun status rel' h => by simpa using h, fun hit h => by simpa using h⟩

/-! ### Jobs that are not given to a route -/

/-- The phases of a job that is refused or answered from the cache. -/
def Settling (hit : Bool) : Phase → Prop
  | .loading | .refusing | .answering | .answered => True
  | .looking _ => hit = true
  | .ended result => result = some .failed ∨ result = some .completed
  | _ => False

/-- One call of such a job. -/
theorem next_settling {hit : Bool} (hset : rel.mayRun = true → hit = true) {p q : Phase} {c : Call}
    (hgiven : Given (some .queued) rel hit [.call c]) (hc : c.raises = false) (h : p.next c = some q)
    (hp : Settling hit p) : Settling hit q := by
  have hmiss : c = .lookup false → hit = false := by
    rintro rfl
    exact (hgiven.lookup false (by simp)).symm
  unfold Phase.next at h
  split at h
  case h_1 status' rel' =>
    obtain ⟨rfl, rfl⟩ := hgiven.load status' rel' (by simp)
    cases h
    cases hmay : rel'.mayRun with
    | false => simp [Phase.loaded, hmay, Settling]
    | true => simpa [Phase.loaded, hmay, Settling] using hset hmay
  case h_2 => cases h; exact .inl rfl
  case h_3 => cases h; trivial
  case h_4 | h_5 | h_6 =>
    rw [Settling, hmiss rfl] at hp
    cases hp
  case h_7 => cases h; trivial
  case h_8 => cases h; exact .inr rfl
  case h_19 => split_ifs at h; cases h; exact hp
  case h_20 | h_21 => cases hc
  case h_22 => cases h
  all_goals exact hp.elim

/-- A whole run. -/
theorem run_settling {hit : Bool} (hset : rel.mayRun = true → hit = true) {σ w : Work} {actions : List WorkAction}
    (hgiven : Given (some .queued) rel hit actions) (hraises : ∀ a ∈ actions, a.raises = false)
    (hrun : run Work.step σ actions = some w) (hσ : Settling hit σ.phase) : Settling hit w.phase := by
  induction actions using List.reverseRecOn generalizing w with
  | nil =>
    obtain rfl := Option.some.inj hrun
    exact hσ
  | append_singleton actions a ih =>
    obtain ⟨t, ht, hstep⟩ := run_snoc_iff.mp hrun
    have hbefore : Settling hit t.phase := by
      refine ih ⟨fun status' rel' h => ?_, fun hit' h => ?_⟩ (fun a h => hraises a (List.mem_append_left _ h)) ht
      · exact hgiven.load status' rel' (List.mem_append_left _ h)
      · exact hgiven.lookup hit' (List.mem_append_left _ h)
    cases a with
    | elsewhere b row =>
      obtain rfl := Option.some.inj hstep
      exact hbefore
    | call c =>
      have hlast : WorkAction.call c ∈ actions ++ [.call c] := List.mem_append_right _ List.mem_cons_self
      refine next_settling hset ⟨fun status' rel' h => ?_, fun hit' h => ?_⟩ (hraises _ hlast)
        (Work.step_call_iff.mp hstep).1 hbefore
      · exact hgiven.load status' rel' (List.mem_append_right _ h)
      · exact hgiven.lookup hit' (List.mem_append_right _ h)

/-! ### The condition -/

theorem requeuedToWait {status : Option JobStatus} {hit : Bool}
    (h : status = some .queued → rel.mayRun = true → hit = false → ∀ m, rel.model = some m →
      Models.getRoutingCandidates m ≠ []) : RequeuedToWait status rel hit := by
  intro slots hpresent actions w hrun hdel hgiven hend
  have hrows : ∀ bs, rel.backends = some (.ok bs) → ∀ b ∈ bs, (slots b).isSome = true := by
    intro bs hbs b hb
    obtain ⟨m, hm⟩ := model_of_backends hbs
    obtain ⟨route, hroute, backend, hbackend, rfl⟩ := (mem_backends_iff hm hbs).mp hb
    exact hpresent m hm route hroute backend hbackend
  obtain ⟨bs, hbs, hrefused, hq, hmay, hhit⟩ := (tried_run rfl hrows hdel hgiven hrun).requeue hend
  obtain ⟨m, hm⟩ := model_of_backends hbs
  refine ⟨m, hm, h hq hmay hhit m hm, fun route hroute => ?_⟩
  have heligible : route.eligible = true :=
    Models.eligible_of_mem_planRoutingOrder ((Models.planRoutingOrder_perm m rel.draws).mem_iff.mpr hroute)
  rw [Models.ModelBackendRoute.eligible, Bool.and_eq_true, Option.any_eq_true] at heligible
  obtain ⟨⟨backend, hbackend, -⟩, -⟩ := heligible
  exact ⟨backend, hbackend, hrefused _ ((mem_backends_iff hm hbs).mpr ⟨route, hroute, backend, hbackend, rfl⟩)⟩

/-- **When a job is requeued only to wait for capacity**, and ends in a terminal status if its model has no route that
may be used: exactly if a queued job of a client that may run, whose answer is not cached, has no such model. -/
theorem requeue_iff (status : Option JobStatus) (rel : Relations) (hit : Bool) :
    RequeuedToWait status rel hit ∧ TerminalWithoutRoute status rel hit ↔
      (status = some .queued → rel.mayRun = true → hit = false → ∀ m, rel.model = some m →
        Models.getRoutingCandidates m ≠ []) := by
  constructor
  · rintro ⟨-, h⟩ rfl hmay rfl m hm hnone
    let slots : Slots.BackendId → Option Slots.InferenceBackend := fun _ => none
    obtain ⟨result, hrun, hresult⟩ := run_requeue slots hmay hm hnone
    have hterminal := h rfl m hm hnone slots _ result _ hrun (requeueCalls_raises rel) (given_requeue rel)
    rcases hresult with rfl | rfl
    · simp at hterminal
    · simp at hterminal
  · intro h
    refine ⟨requeuedToWait h, ?_⟩
    rintro rfl m hm hnone slots actions result slots' hrun hraises hgiven
    have hset : rel.mayRun = true → hit = true := by
      intro hmay
      by_contra hmiss
      exact h rfl hmay (Bool.eq_false_iff.mpr hmiss) m hm hnone
    exact run_settling hset hgiven hraises hrun (σ := ⟨.loading, slots⟩) trivial

/-- A job of a client that may run, whose model has one route, to a backend that has been switched off. -/
def switchedOff : Relations where
  model := some
    { modelId := "m", modelAlias := none, isActive := true, isDefault := false, createdAt := 0,
      inferenceBackend := some ⟨0, "b", "llama.cpp", false⟩,
      backendRoutes := [⟨some ⟨0, "b", "llama.cpp", false⟩, 1, 100, .healthy, 0⟩] }
  primaryLoaded := false
  draws := Stream'.const 0
  client := some ⟨false, .active⟩

/-- **A job of a model without a route is requeued**, though nothing is at its limit, and not brought to an end. -/
theorem requeued_without_route :
    run Work.step ⟨.loading, fun _ => some ⟨false, 1, 0⟩⟩ (requeueCalls switchedOff) =
        some ⟨.ended (some .requeue), fun _ => some ⟨false, 1, 0⟩⟩ ∧
      ¬ RequeuedToWait (some .queued) switchedOff false ∧ ¬ TerminalWithoutRoute (some .queued) switchedOff false := by
  let m : Models.ModelRegistry := switchedOff.model.get rfl
  let slots : Slots.BackendId → Option Slots.InferenceBackend := fun _ => some ⟨false, 1, 0⟩
  have hnone : Models.getRoutingCandidates m = [] := rfl
  have hbackends : switchedOff.backends = some (.ok []) := by decide +kernel
  have hrun : run Work.step ⟨.loading, slots⟩ (requeueCalls switchedOff) = some ⟨.ended (some .requeue), slots⟩ := by
    have hload : Work.step ⟨.loading, slots⟩ (.call (.load (some .queued) switchedOff)) =
        some ⟨.looking (some (.ok [])), slots⟩ := by
      rw [← hbackends]
      rfl
    rw [requeueCalls, hbackends]
    exact run_cons_iff.mpr ⟨_, hload, rfl⟩
  refine ⟨hrun, fun h => ?_, fun h => ?_⟩
  · have hdel : ∀ a ∈ requeueCalls switchedOff, ¬ a.deletes := by
      rw [requeueCalls, hbackends]
      simp [WorkAction.deletes]
    obtain ⟨m', hm', hsome, -⟩ := h slots (fun _ _ _ _ _ _ => rfl) _ _ hrun hdel (given_requeue switchedOff) rfl
    obtain rfl : m = m' := Option.some.inj hm'
    exact hsome hnone
  · have hend := h rfl m rfl hnone slots _ _ _ hrun (requeueCalls_raises switchedOff) (given_requeue switchedOff)
    simp at hend

end Models

end LlmStore.Jobs
