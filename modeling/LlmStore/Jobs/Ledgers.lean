import LlmStore.Inference.Ledgers
import LlmStore.Jobs.Sessions

/-!
# The ledgers agree

Every request of the three entry points, whatever it meets, leaves the committed ledgers of every client in agreement
(`handle_balanced`), so they agree after any sequence of requests (`ledgers_agree`).
-/

namespace LlmStore.Jobs

open LlmStore.Lib LlmStore.Usage LlmStore.Inference Program

variable {c : ClientId}

/-! ## A job -/

/-- A job is no part of the ledgers. -/
theorem workable_ledgers (c : ClientId) : Workable (ledgers c) where
  update := by
    intro w jobId f _ hw
    refine hw.same rfl ?_ ?_
    · simp only [World.setCurrent]
      split <;> rfl
    · simp only [World.setCurrent]
      split <;> rfl
  book := fun _ _ _ _ _ result hs n isStream cacheHit => books_iff.mp (books_bookAnswer _ result hs n isStream cacheHit)

/-- `process_generation_job` leaves the ledgers in agreement. -/
theorem safe_processGenerationJob (settings : Settings) (jobId : JobId) (rel : Relations) :
    Safe c (processGenerationJob settings (jobChat settings) jobId rel) :=
  (workable_ledgers c).safe_processGenerationJob settings jobId rel

/-! ## Requests one after another -/

/-- A request to one of the three entry points. -/
inductive Request where
  | chatCompletions (prepared : Except HTTPException ChatRequest)
  | portalTestChat (prepared : Except HTTPException ChatRequest)
  | processGenerationJob (jobId : JobId) (rel : Relations)

/-- The world after the request, whether its handler has returned or raised. -/
def handle (settings : Settings) (w : World) : Request → World
  | .chatCompletions prepared => ((chatCompletions settings prepared).exec w).2
  | .portalTestChat prepared => ((portalTestChat settings prepared).exec w).2
  | .processGenerationJob jobId rel =>
    ((do beginSession; processGenerationJob settings (jobChat settings) jobId rel).exec w).2

/-- The requests of a list, one after another. -/
def serve (settings : Settings) (w : World) (requests : List Request) : World := requests.foldl (handle settings) w

theorem handle_balanced (settings : Settings) {w : World} (hw : Balanced c w.committed) (request : Request) :
    Balanced c (handle settings w request).committed := by
  have hrun : ∀ {α : Type} {x : Prog α}, Triple (fun w => Balanced c w.committed) x (fun _ w => Balanced c w.committed)
      (fun _ w => Balanced c w.committed) → Balanced c (x.exec w).2.committed := by
    intro α x hx
    have h := hx w hw
    rcases hr : x.exec w with ⟨_ | a, t⟩ <;> rw [hr] at h <;> exact h
  cases request with
  | chatCompletions prepared => exact hrun (chatCompletions_balanced settings prepared)
  | portalTestChat prepared => exact hrun (portalTestChat_balanced settings prepared)
  | processGenerationJob jobId rel =>
    exact hrun (triple_bind triple_beginSession fun _ => safe_processGenerationJob settings jobId rel)

/-- **The audit log and the quota counters agree** after every sequence of requests. -/
theorem ledgers_agree (settings : Settings) (c : ClientId) : ∀ (requests : List Request) (w : World),
    Balanced c w.committed → Balanced c (serve settings w requests).committed
  | [], _, hw => hw
  | request :: requests, _, hw => ledgers_agree settings c requests _ (handle_balanced settings hw request)

/-! ### Two requests -/

/-- An empty database with one backend, which answers the first request and rejects what comes after it. -/
def freshWorld : World :=
  let db : Database := ⟨⟨∅, ∅⟩, [], ∅, [], ∅⟩
  { committed := db, current := db, slots := fun _ => some ⟨true, 1, 0⟩, queue := []
    env :=
      { faults := fun _ => false, clock := fun _ => ⟨{ year := 2025, month := 6, day := 15 }, 0⟩, redis := fun _ => 1
        refusals := fun _ => false
        answers := fun n => if n = 0 then .response 200 (some "two words") "" else .response 400 none "no" } }

def smallRequest : ChatRequest :=
  { clientId := 0, sourceIp := "10.0.0.1", model := "m",
    routes := [⟨some ⟨0, "main", "vllm", true⟩, 1, 100, .healthy, 0⟩], stream := false, promptTokens := 5,
    maxTokens := 10, rateLimitPerMinute := 60, dailyTokenQuota := 1000, monthlyTokenQuota := 10000,
    overagePricePer1kTokens := 0, cacheKey := "k", cacheFingerprint := "f" }

/-- A job of a client that may have it worked on, whose model has that one route. -/
def oneRoute : Relations where
  model := some
    { modelId := "m", modelAlias := none, isActive := true, isDefault := false, createdAt := 0, inferenceBackend := none,
      backendRoutes := smallRequest.routes }
  primaryLoaded := false
  draws := Stream'.const 0
  client := some ⟨false, .active⟩

def cachelessSettings : Settings := ⟨false, 60, 1⟩

theorem ledgers_agree_after_two :
    let w := serve cachelessSettings freshWorld [.chatCompletions (.ok smallRequest), .portalTestChat (.ok smallRequest)]
    Balanced 0 w.committed ∧ loggedTokens 0 w.committed.requestLogs = 7 ∧ w.committed.requestLogs.length = 2 :=
  ⟨ledgers_agree _ 0 _ freshWorld ⟨rfl, rfl⟩, by decide +kernel, by decide +kernel⟩

end LlmStore.Jobs
