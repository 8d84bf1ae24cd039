import Mathlib.Algebra.Order.BigOperators.Group.List
import Mathlib.Algebra.Order.Ring.Int
import Mathlib.Data.List.Dedup
import Mathlib.Data.List.Perm.Basic

/-!
# Random orders by weight within groups

A list of items is ordered by groups of equal keys, and the items of a group are drawn one after another with weights.
The draws come from an arbitrary `Chooser`, so that the results hold of every behaviour of a random generator: `order`
is a permutation of the items (`order_perm`) along which the keys do not decrease (`order_pairwise`).
-/

namespace LlmStore.Lib

universe u v w

/-- A source of choices with states in `ρ`: it picks one of some weights. That their sum is positive is for the caller
to show. -/
structure Chooser (ρ : Type w) where
  choose : (weights : List ℤ) → 0 < weights.sum → ρ → Fin weights.length × ρ

theorem Chooser.choose_congr {ρ : Type w} (rng : Chooser ρ) {weights weights' : List ℤ} (h : weights = weights')
    (hsum : 0 < weights.sum) (hsum' : 0 < weights'.sum) (r : ρ) : rng.choose weights' hsum' r =
      ((rng.choose weights hsum r).1.cast (congrArg List.length h), (rng.choose weights hsum r).2) := by
  subst h
  rfl

section

variable {ι : Type u} {κ : Type v} {ρ : Type w}

section Drain

variable (rng : Chooser ρ) (weight : ι → ℤ) (hweight : ∀ i, 0 < weight i)

/-- The place of the item of the bucket that is drawn next. -/
def pick (bucket : List ι) (hne : bucket ≠ []) (r : ρ) : Fin bucket.length × ρ :=
  let drawn := rng.choose (bucket.map weight) (List.sum_pos _ (by simpa using fun i _ => hweight i) (by simpa)) r
  (drawn.1.cast (List.length_map _), drawn.2)

/-- All items of a bucket, in the order in which they are drawn; the last one is not drawn. -/
def drain : List ι → ρ → List ι × ρ
  | [], r => ([], r)
  | [i], r => ([i], r)
  | i :: j :: rest, r =>
    let picked := pick rng weight hweight (i :: j :: rest) (List.cons_ne_nil _ _) r
    let others := drain ((i :: j :: rest).eraseIdx picked.1) picked.2
    ((i :: j :: rest).get picked.1 :: others.1, others.2)
termination_by bucket => bucket.length
decreasing_by
  rw [List.length_eraseIdx_of_lt (Fin.is_lt _)]
  exact Nat.sub_lt (Nat.succ_pos _) Nat.one_pos

theorem drain_of_two_le {bucket : List ι} (h : 2 ≤ bucket.length) (hne : bucket ≠ []) (r : ρ) :
    drain rng weight hweight bucket r =
      let picked := pick rng weight hweight bucket hne r
      let others := drain rng weight hweight (bucket.eraseIdx picked.1) picked.2
      (bucket.get picked.1 :: others.1, others.2) := by
  match bucket with
  | [_] => simp at h
  | _ :: _ :: _ => rw [drain]

theorem drain_perm (bucket : List ι) (r : ρ) : (drain rng weight hweight bucket r).1.Perm bucket := by
  induction bucket, r using drain.induct rng weight hweight with
  | case1 r =>
    rw [drain]
  | case2 i r =>
    rw [drain]
  | case3 i j rest r picked ih =>
    rw [drain]
    exact (ih.cons _).trans (List.getElem_cons_eraseIdx_perm picked.1.is_lt)

variable {ι' : Type*} (f : ι' → ι) (hweight' : ∀ i, 0 < weight (f i))

theorem pick_map {bucket : List ι'} (hne : bucket ≠ []) (hne' : bucket.map f ≠ []) (r : ρ) :
    pick rng weight hweight (bucket.map f) hne' r = ((pick rng (weight ∘ f) hweight' bucket hne r).1.cast
      (List.length_map f).symm, (pick rng (weight ∘ f) hweight' bucket hne r).2) := by
  have hweights : bucket.map (weight ∘ f) = (bucket.map f).map weight := List.map_map.symm
  simp only [pick]
  rw [rng.choose_congr hweights]
  rfl

/-- Items with the same weights are drawn at the same places. -/
theorem drain_map (bucket : List ι') (r : ρ) : drain rng weight hweight (bucket.map f) r =
    ((drain rng (weight ∘ f) hweight' bucket r).1.map f, (drain rng (weight ∘ f) hweight' bucket r).2) := by
  induction bucket, r using drain.induct rng (weight ∘ f) hweight' with
  | case1 r => simp [drain]
  | case2 i r => simp [drain]
  | case3 i j rest r picked ih =>
    rw [drain_of_two_le _ _ _ (by simp) (by simp), pick_map rng weight hweight f hweight' (List.cons_ne_nil _ _),
      drain_of_two_le _ _ _ (by simp) (List.cons_ne_nil _ _)]
    simp only [Fin.val_cast, List.eraseIdx_map, List.get_eq_getElem, List.getElem_map]
    rw [ih]
    rfl

end Drain

section Groups

variable [DecidableEq κ] (rng : Chooser ρ) (weight : ι → ℤ) (hweight : ∀ i, 0 < weight i) (key : ι → κ)

/-- The groups of the items with the keys in a list, one after another. -/
def drainKeys (items : List ι) : List κ → ρ → List ι × ρ
  | [], r => ([], r)
  | k :: keys, r =>
    let drained := drain rng weight hweight (items.filter fun i => key i = k) r
    let others := drainKeys items keys drained.2
    (drained.1 ++ others.1, others.2)

variable {rng weight hweight key}

theorem mem_drainKeys {items : List ι} {keys : List κ} {r : ρ} {i : ι}
    (h : i ∈ (drainKeys rng weight hweight key items keys r).1) : key i ∈ keys := by
  induction keys generalizing r with
  | nil => simp [drainKeys] at h
  | cons k keys ih =>
    rcases List.mem_append.mp h with hfirst | hothers
    · have hi := (drain_perm rng weight hweight _ r).mem_iff.mp hfirst
      have hkey : key i = k := by simpa using (List.mem_filter.mp hi).2
      rw [hkey]
      exact List.mem_cons_self
    · exact List.mem_cons_of_mem _ (ih hothers)

/-- The items with a key in `keys`. -/
theorem drainKeys_perm (items : List ι) {keys : List κ} (hnd : keys.Nodup) (r : ρ) :
    (drainKeys rng weight hweight key items keys r).1.Perm (items.filter fun i => decide (key i ∈ keys)) := by
  induction keys generalizing r with
  | nil => simp [drainKeys]
  | cons k keys ih =>
    obtain ⟨hk, hnd⟩ := List.nodup_cons.mp hnd
    have hbucket := drain_perm rng weight hweight (items.filter fun i => key i = k) r
    have hothers := ih hnd (drain rng weight hweight (items.filter fun i => key i = k) r).2
    refine (hbucket.append hothers).trans ?_
    have hfirst : (items.filter fun i => decide (key i = k)) =
        (items.filter fun i => decide (key i ∈ k :: keys)).filter fun i => decide (key i = k) := by
      rw [List.filter_filter]
      refine List.filter_congr fun i _ => ?_
      by_cases hi : key i = k <;> simp [hi]
    have hrest : (items.filter fun i => decide (key i ∈ keys)) =
        (items.filter fun i => decide (key i ∈ k :: keys)).filter fun i => !decide (key i = k) := by
      rw [List.filter_filter]
      refine List.filter_congr fun i _ => ?_
      by_cases hi : key i = k
      · simp [hi, hk]
      · simp [hi]
    rw [hfirst, hrest]
    exact List.filter_append_perm _ _

variable {le : κ → κ → Bool}

/-- Along the groups the keys are ordered as the list of keys is. -/
theorem drainKeys_pairwise (hrefl : ∀ k, le k k = true) (items : List ι) {keys : List κ}
    (hkeys : keys.Pairwise fun a b => le a b = true) (r : ρ) :
    (drainKeys rng weight hweight key items keys r).1.Pairwise fun a b => le (key a) (key b) = true := by
  induction keys generalizing r with
  | nil => exact List.Pairwise.nil
  | cons k keys ih =>
    obtain ⟨hk, hkeys⟩ := List.pairwise_cons.mp hkeys
    have hfirst : ∀ i ∈ (drain rng weight hweight (items.filter fun i => key i = k) r).1, key i = k := by
      intro i hi
      have := (List.mem_filter.mp ((drain_perm rng weight hweight _ r).mem_iff.mp hi)).2
      simpa using this
    refine List.pairwise_append.mpr ⟨?_, ih hkeys _, fun a ha b hb => ?_⟩
    · refine List.Pairwise.imp_of_mem (fun {a b} ha hb _ => ?_) (List.pairwise_of_forall (R := fun _ _ => True) ?_)
      · rw [hfirst a ha, hfirst b hb]
        exact hrefl k
      · exact fun _ _ => trivial
    · rw [hfirst a ha]
      exact hk _ (mem_drainKeys hb)

variable {ι' : Type*} (f : ι' → ι) (hweight' : ∀ i, 0 < weight (f i))

theorem drainKeys_map (items : List ι') (keys : List κ) (r : ρ) :
    drainKeys rng weight hweight key (items.map f) keys r =
      ((drainKeys rng (weight ∘ f) hweight' (key ∘ f) items keys r).1.map f,
        (drainKeys rng (weight ∘ f) hweight' (key ∘ f) items keys r).2) := by
  induction keys generalizing r with
  | nil => rfl
  | cons k keys ih =>
    simp only [drainKeys, List.filter_map]
    rw [drain_map rng weight hweight f hweight', ih, List.map_append]
    rfl

variable (rng weight hweight key le)

/-- All items, ordered by their keys and drawn by their weights. -/
def order (items : List ι) (r : ρ) : List ι :=
  (drainKeys rng weight hweight key items ((items.map key).dedup.mergeSort le) r).1

variable {rng weight hweight key le}

/-- An order depends on the weights and the keys of the items only. -/
theorem order_map (items : List ι') (r : ρ) : order rng weight hweight key le (items.map f) r =
    (order rng (weight ∘ f) hweight' (key ∘ f) le items r).map f := by
  rw [order, drainKeys_map f hweight', List.map_map, order]

/-- **Nothing is lost and nothing is added**, whatever is drawn. -/
theorem order_perm (items : List ι) (r : ρ) : (order rng weight hweight key le items r).Perm items := by
  have hnd : ((items.map key).dedup.mergeSort le).Nodup :=
    (List.mergeSort_perm _ _).nodup_iff.mpr (List.nodup_dedup _)
  refine (drainKeys_perm items hnd r).trans ?_
  rw [List.filter_eq_self.mpr]
  intro i hi
  rw [decide_eq_true_eq, List.mem_mergeSort, List.mem_dedup]
  exact List.mem_map_of_mem hi

/-- **The keys do not decrease**, whatever is drawn. -/
theorem order_pairwise (htrans : ∀ a b c, le a b = true → le b c = true → le a c = true)
    (htotal : ∀ a b, (le a b || le b a) = true) (items : List ι) (r : ρ) :
    (order rng weight hweight key le items r).Pairwise fun a b => le (key a) (key b) = true := by
  refine drainKeys_pairwise (fun k => ?_) items (List.pairwise_mergeSort htrans htotal _) r
  simpa using htotal k k

end Groups

end

end LlmStore.Lib
