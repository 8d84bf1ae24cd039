import LlmStore.Lib.WeightedOrder
import LlmStore.Models.Routing

/-!
# The order of the routes

`plan_routing_order` (`services/model_policy.py`) on the rows as they are stored, whose states are any strings and whose
weights are any integers, for any source of random choices: it orders the candidates by the rank of their states and
their priorities (`routing_order`). `planRoutingOrder`, where the states are those that the API accepts and the choices
are made as `rng.choices` makes them, is an instance (`planRoutingOrder_record`).
-/

namespace LlmStore.Models

open LlmStore.Calendar LlmStore.Lib

universe u

/-- `ROUTE_STATE_ORDER.get(state, 99)`. -/
def routeStateOrder (state : String) : ℕ :=
  if state = "healthy" then 0
  else if state = "degraded" then 1
  else if state = "unhealthy" then 2
  else if state = "disabled" then 3
  else 99

/-- A row of `model_backend_routes`. -/
structure RouteRecord where
  inferenceBackend : Option InferenceBackend
  priority : ℤ
  weight : ℤ
  state : String
  createdAt : Instant

/-- What `get_routing_candidates` reads of a model. -/
structure RoutedModel where
  inferenceBackend : Option InferenceBackend
  backendRoutes : List RouteRecord

/-- The sort key of `get_routing_candidates`, compared. -/
def RouteRecord.before (a b : RouteRecord) : Bool :=
  if routeStateOrder a.state ≠ routeStateOrder b.state then routeStateOrder a.state < routeStateOrder b.state
  else if a.priority ≠ b.priority then a.priority < b.priority
  else if a.weight ≠ b.weight then b.weight < a.weight
  else a.createdAt ≤ b.createdAt

/-- `get_routing_candidates`. -/
def RoutedModel.getRoutingCandidates (model : RoutedModel) : List RouteRecord :=
  let routes := model.backendRoutes.filter fun item =>
    item.inferenceBackend.any (·.isActive) && item.state != "disabled"
  match routes, model.inferenceBackend with
  | [], some backend =>
    if backend.isActive then
      [{ inferenceBackend := some backend, priority := 1, weight := 100, state := "healthy", createdAt := 0 }]
    else []
  | routes, _ => routes.mergeSort RouteRecord.before

/-- The key of `grouped`. -/
def RouteRecord.groupKey (r : RouteRecord) : ℕ × ℤ := (routeStateOrder r.state, r.priority)

/-- The weight of an item of a bucket. -/
def RouteRecord.drawWeight (item : RouteRecord) : ℤ := max item.weight 1

theorem RouteRecord.drawWeight_pos (item : RouteRecord) : 0 < item.drawWeight :=
  lt_of_lt_of_le Int.one_pos (le_max_right _ _)

/-- `plan_routing_order`, with `rng` in the state `r`. -/
def RoutedModel.planRoutingOrder {ρ : Type u} (rng : Chooser ρ) (model : RoutedModel) (r : ρ) : List RouteRecord :=
  let routes := model.getRoutingCandidates
  if routes.length ≤ 1 then routes
  else order rng RouteRecord.drawWeight RouteRecord.drawWeight_pos RouteRecord.groupKey keyLe routes r

/-! ## The order of the keys -/

theorem keyLe_iff {a b : ℕ × ℤ} : keyLe a b = true ↔ a.1 < b.1 ∨ a.1 = b.1 ∧ a.2 ≤ b.2 := by
  unfold keyLe
  split_ifs with h
  · simp [h]
  · simp [h]

theorem keyLe_trans (a b c : ℕ × ℤ) (hab : keyLe a b = true) (hbc : keyLe b c = true) : keyLe a c = true := by
  rw [keyLe_iff] at *
  omega

theorem keyLe_total (a b : ℕ × ℤ) : (keyLe a b || keyLe b a) = true := by
  rw [Bool.or_eq_true, keyLe_iff, keyLe_iff]
  omega

section

variable {ρ : Type u} (rng : Chooser ρ) (model : RoutedModel) (r : ρ)

theorem RoutedModel.planRoutingOrder_perm : (model.planRoutingOrder rng r).Perm model.getRoutingCandidates := by
  unfold RoutedModel.planRoutingOrder
  dsimp only
  split_ifs
  · exact List.Perm.refl _
  · exact order_perm _ r

theorem RoutedModel.planRoutingOrder_pairwise :
    (model.planRoutingOrder rng r).Pairwise fun a b => keyLe a.groupKey b.groupKey = true := by
  unfold RoutedModel.planRoutingOrder
  dsimp only
  split_ifs with hlength
  · -- one candidate or none
    match h : model.getRoutingCandidates with
    | [] => exact List.Pairwise.nil
    | [route] => exact List.pairwise_singleton _ _
    | _ :: _ :: _ => simp [h] at hlength
  · exact order_pairwise keyLe_trans keyLe_total _ r

/-- **The order is one of all the candidates, and it respects their states and priorities**, whatever choices `rng`
makes. -/
theorem routing_order : (model.planRoutingOrder rng r).Perm model.getRoutingCandidates ∧
    (model.planRoutingOrder rng r).Pairwise fun a b =>
      routeStateOrder a.state < routeStateOrder b.state ∨
        routeStateOrder a.state = routeStateOrder b.state ∧ a.priority ≤ b.priority :=
  ⟨model.planRoutingOrder_perm rng r, (model.planRoutingOrder_pairwise rng r).imp fun h => keyLe_iff.mp h⟩

end

/-! ## The states that the API accepts -/

def RouteState.name : RouteState → String
  | .healthy => "healthy"
  | .degraded => "degraded"
  | .unhealthy => "unhealthy"
  | .disabled => "disabled"

@[simp] theorem routeStateOrder_name (state : RouteState) : routeStateOrder state.name = state.order := by
  cases state <;> decide

theorem name_eq_disabled_iff {state : RouteState} : state.name = "disabled" ↔ state = .disabled := by
  cases state <;> decide

def ModelBackendRoute.record (r : ModelBackendRoute) : RouteRecord where
  inferenceBackend := r.inferenceBackend
  priority := r.priority
  weight := r.weight
  state := r.state.name
  createdAt := r.createdAt

def ModelRegistry.routed (model : ModelRegistry) : RoutedModel where
  inferenceBackend := model.inferenceBackend
  backendRoutes := model.backendRoutes.map ModelBackendRoute.record

theorem getRoutingCandidates_routed (model : ModelRegistry) :
    model.routed.getRoutingCandidates = (Models.getRoutingCandidates model).map ModelBackendRoute.record := by
  have hfilter : model.routed.backendRoutes.filter (fun item =>
      item.inferenceBackend.any (·.isActive) && item.state != "disabled") =
        (model.backendRoutes.filter fun item =>
          item.inferenceBackend.any (·.isActive) && item.state != .disabled).map ModelBackendRoute.record := by
    rw [ModelRegistry.routed, List.filter_map]
    congr 1
    refine List.filter_congr fun item _ => ?_
    by_cases hstate : item.state = .disabled
    · simp [ModelBackendRoute.record, hstate, RouteState.name]
    · have hname : item.state.name ≠ "disabled" := mt name_eq_disabled_iff.mp hstate
      have hne : (item.state.name != "disabled") = (item.state != .disabled) := by
        rw [bne_iff_ne.mpr hname, bne_iff_ne.mpr hstate]
      simp only [Function.comp_apply, ModelBackendRoute.record]
      rw [hne]
  unfold RoutedModel.getRoutingCandidates Models.getRoutingCandidates
  dsimp only
  rw [hfilter]
  have hprimary : model.routed.inferenceBackend = model.inferenceBackend := rfl
  rw [hprimary]
  cases model.backendRoutes.filter fun item => item.inferenceBackend.any (·.isActive) && item.state != .disabled with
  | nil =>
    cases model.inferenceBackend with
    | none => simp
    | some backend =>
      by_cases hactive : backend.isActive = true
      · simp [hactive, ModelBackendRoute.record, RouteState.name]
      · simp [hactive]
  | cons route routes =>
    refine (List.map_mergeSort fun a _ b _ => ?_).symm
    simp only [ModelBackendRoute.before, RouteRecord.before, ModelBackendRoute.record, routeStateOrder_name]
    rfl

/-- The choices of `rng.choices`, from the numbers that `rng` draws. -/
def drawChooser : Chooser (Stream' ℚ) where
  choose weights hsum draws :=
    (⟨choiceIndex weights draws.head, choiceIndex_lt (fun h => by simp [h] at hsum) _⟩, draws.tail)

def ModelBackendRoute.drawWeight (item : ModelBackendRoute) : ℤ := max item.weight 1

theorem ModelBackendRoute.drawWeight_pos (item : ModelBackendRoute) : 0 < item.drawWeight :=
  lt_of_lt_of_le Int.one_pos (le_max_right _ _)

theorem drainBucket_eq (n : ℕ) : ∀ (bucket : List ModelBackendRoute) (draws : Stream' ℚ), bucket.length ≤ n →
    drainBucket n bucket draws =
      drain drawChooser ModelBackendRoute.drawWeight ModelBackendRoute.drawWeight_pos bucket draws := by
  induction n with
  | zero =>
    intro bucket draws hn
    obtain rfl := List.length_eq_zero_iff.mp (Nat.le_zero.mp hn)
    rw [drainBucket, drain]
  | succ n ih =>
    intro bucket draws hn
    cases bucket with
    | nil => rw [drainBucket, drain]
    | cons a bucket =>
      cases bucket with
      | nil => rw [drainBucket, drain]
      | cons b rest =>
        rw [drain]
        let picked := pick drawChooser ModelBackendRoute.drawWeight ModelBackendRoute.drawWeight_pos (a :: b :: rest)
          (List.cons_ne_nil _ _) draws
        have hrest := ih ((a :: b :: rest).eraseIdx picked.1) picked.2 (by
          rw [List.length_eraseIdx_of_lt picked.1.is_lt]
          exact Nat.sub_le_of_le_add hn)
        show ((a :: b :: rest)[picked.1.val]?.toList ++
          (drainBucket n ((a :: b :: rest).eraseIdx picked.1) picked.2).1,
            (drainBucket n ((a :: b :: rest).eraseIdx picked.1) picked.2).2) = _
        rw [hrest, List.getElem?_eq_getElem picked.1.is_lt]
        rfl

theorem drainGroups_eq (routes : List ModelBackendRoute) (keys : List (ℕ × ℤ)) (draws : Stream' ℚ) :
    drainGroups routes keys draws = (drainKeys drawChooser ModelBackendRoute.drawWeight
      ModelBackendRoute.drawWeight_pos ModelBackendRoute.groupKey routes keys draws).1 := by
  induction keys generalizing draws with
  | nil => rfl
  | cons key keys ih =>
    simp only [drainGroups, drainKeys]
    rw [drainBucket_eq _ _ _ le_rfl, ih]

/-- With these choices, and states that the API accepts, it is `planRoutingOrder`. -/
theorem planRoutingOrder_record (model : ModelRegistry) (draws : Stream' ℚ) :
    model.routed.planRoutingOrder drawChooser draws =
      (Models.planRoutingOrder model draws).map ModelBackendRoute.record := by
  unfold RoutedModel.planRoutingOrder Models.planRoutingOrder
  dsimp only
  rw [getRoutingCandidates_routed, List.length_map]
  split_ifs with hlength
  · rfl
  · rw [order_map ModelBackendRoute.record ModelBackendRoute.drawWeight_pos, drainGroups_eq]
    have hkey : RouteRecord.groupKey ∘ ModelBackendRoute.record = ModelBackendRoute.groupKey := by
      funext r
      simp [RouteRecord.groupKey, ModelBackendRoute.record, ModelBackendRoute.groupKey]
    rw [hkey]
    rfl

/-- No route of a worse state comes before one of a better state, nor one of a greater priority value before one of a
smaller one among those of a state. -/
theorem planRoutingOrder_pairwise (model : ModelRegistry) (draws : Stream' ℚ) :
    (Models.planRoutingOrder model draws).Pairwise fun a b =>
      a.state.order < b.state.order ∨ a.state.order = b.state.order ∧ a.priority ≤ b.priority := by
  have h := model.routed.planRoutingOrder_pairwise drawChooser draws
  rw [planRoutingOrder_record, List.pairwise_map] at h
  refine h.imp fun {a b} hab => ?_
  simpa [RouteRecord.groupKey, ModelBackendRoute.record] using keyLe_iff.mp hab

end LlmStore.Models
