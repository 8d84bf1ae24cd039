import Mathlib.Algebra.BigOperators.Group.List.Basic
import Mathlib.Data.List.Induction

/-!
# Grouping by a key

Items are dealt out to buckets, one for each key, as a loop with `setdefault` does. Every key of an item has one bucket
(`nodup_keys_group`, `mem_keys_group`), a figure of a bucket is what the items of its key make of it one after another
(`figure_of_mem_group`), a measure that grows with every item is the sum over these items (`measure_of_mem_group`), and the
sum over the buckets is the sum over all items (`sum_group`).
-/

namespace LlmStore.Lib

variable {κ ι β M : Type*} [DecidableEq κ]

/-! ## The loop -/

/-- Update the bucket of a key, or put a new one, updated, behind the others. -/
def bump (k : κ) (new : β) (f : β → β) : List (κ × β) → List (κ × β)
  | [] => [(k, f new)]
  | (k', b) :: buckets => if k' = k then (k', f b) :: buckets else (k', b) :: bump k new f buckets

/-- The buckets after a loop over the items. -/
def group (key : ι → κ) (new : ι → β) (add : ι → β → β) (items : List ι) : List (κ × β) :=
  items.foldl (fun buckets i => bump (key i) (new i) (add i) buckets) []

theorem group_concat (key : ι → κ) (new : ι → β) (add : ι → β → β) (items : List ι) (i : ι) :
    group key new add (items ++ [i]) = bump (key i) (new i) (add i) (group key new add items) := by
  simp [group, List.foldl_append]

/-! ## Keys -/

section Keys

variable {k : κ} {new : β} {f : β → β} {buckets : List (κ × β)}

theorem mem_keys_bump (k' : κ) : k' ∈ (bump k new f buckets).map Prod.fst ↔ k' = k ∨ k' ∈ buckets.map Prod.fst := by
  induction buckets with
  | nil => simp [bump]
  | cons bucket buckets ih =>
    obtain ⟨k₀, b⟩ := bucket
    by_cases hk : k₀ = k
    · subst hk
      simp [bump]
    · rw [bump, if_neg hk, List.map_cons, List.mem_cons, ih, List.map_cons, List.mem_cons]
      exact or_left_comm

theorem nodup_keys_bump (h : (buckets.map Prod.fst).Nodup) : ((bump k new f buckets).map Prod.fst).Nodup := by
  induction buckets with
  | nil => simp [bump]
  | cons bucket buckets ih =>
    obtain ⟨k₀, b⟩ := bucket
    rw [List.map_cons, List.nodup_cons] at h
    by_cases hk : k₀ = k
    · rw [bump, if_pos hk]
      exact List.nodup_cons.mpr h
    · rw [bump, if_neg hk, List.map_cons, List.nodup_cons, mem_keys_bump]
      exact ⟨not_or.mpr ⟨hk, h.1⟩, ih h.2⟩

variable {key : ι → κ} {first : ι → β} {add : ι → β → β}

theorem nodup_keys_group (items : List ι) : ((group key first add items).map Prod.fst).Nodup := by
  induction items using List.reverseRecOn with
  | nil => exact List.nodup_nil
  | append_singleton items i ih =>
    rw [group_concat]
    exact nodup_keys_bump ih

/-- There is a bucket for the keys of the items, and for no others. -/
theorem mem_keys_group (k : κ) (items : List ι) : k ∈ (group key first add items).map Prod.fst ↔ ∃ i ∈ items, key i = k := by
  induction items using List.reverseRecOn with
  | nil => simp [group]
  | append_singleton items i ih =>
    rw [group_concat, mem_keys_bump, ih]
    constructor
    · rintro (rfl | ⟨j, hj, rfl⟩)
      · exact ⟨i, by simp, rfl⟩
      · exact ⟨j, by simp [hj], rfl⟩
    · rintro ⟨j, hj, rfl⟩
      rcases List.mem_append.mp hj with hj | hj
      · exact .inr ⟨j, hj, rfl⟩
      · exact .inl (by rw [List.mem_singleton.mp hj])

theorem of_mem_bump {P : κ → β → Prop} (hnew : P k (f new)) (hupdate : ∀ b, P k b → P k (f b))
    (h : ∀ bucket ∈ buckets, P bucket.1 bucket.2) : ∀ bucket ∈ bump k new f buckets, P bucket.1 bucket.2 := by
  induction buckets with
  | nil =>
    intro bucket hbucket
    rw [List.mem_singleton.mp hbucket]
    exact hnew
  | cons bucket buckets ih =>
    obtain ⟨k₀, b⟩ := bucket
    have htail := ih fun bucket hbucket => h bucket (List.mem_cons_of_mem _ hbucket)
    have hhead : P k₀ b := h (k₀, b) List.mem_cons_self
    by_cases hk : k₀ = k
    · subst hk
      rw [bump, if_pos rfl, List.forall_mem_cons]
      exact ⟨hupdate b hhead, fun bucket hbucket => h bucket (List.mem_cons_of_mem _ hbucket)⟩
    · rw [bump, if_neg hk, List.forall_mem_cons]
      exact ⟨hhead, htail⟩

/-- What holds of a new bucket with its first item and is kept by every further one. -/
theorem of_mem_group {P : κ → β → Prop} (hnew : ∀ i, P (key i) (add i (first i)))
    (hadd : ∀ i b, P (key i) b → P (key i) (add i b)) (items : List ι) :
    ∀ bucket ∈ group key first add items, P bucket.1 bucket.2 := by
  induction items using List.reverseRecOn with
  | nil => exact fun bucket hbucket => nomatch hbucket
  | append_singleton items i ih =>
    rw [group_concat]
    exact of_mem_bump (hnew i) (hadd i) ih

end Keys

/-! ## Figures -/

section Figures

variable {γ : Type*} {key : ι → κ} {first : ι → β} {add : ι → β → β}

/-- A bucket after an update is the new one, or the updated one, or one that there was. -/
theorem mem_bump {k : κ} {new : β} {f : β → β} {buckets : List (κ × β)} (hnodup : (buckets.map Prod.fst).Nodup) {k' : κ}
    {b' : β} (h : (k', b') ∈ bump k new f buckets) :
    (k' = k ∧ k ∉ buckets.map Prod.fst ∧ b' = f new) ∨ ∃ b, (k', b) ∈ buckets ∧ b' = if k' = k then f b else b := by
  induction buckets with
  | nil =>
    obtain ⟨rfl, rfl⟩ := Prod.mk.inj (List.mem_singleton.mp h)
    exact .inl ⟨rfl, by simp, rfl⟩
  | cons bucket buckets ih =>
    obtain ⟨k₀, b₀⟩ := bucket
    rw [List.map_cons, List.nodup_cons] at hnodup
    by_cases hk : k₀ = k
    · subst hk
      rw [bump, if_pos rfl] at h
      rcases List.mem_cons.mp h with hhead | htail
      · obtain ⟨rfl, rfl⟩ := Prod.mk.inj hhead
        exact .inr ⟨b₀, List.mem_cons_self, (if_pos rfl).symm⟩
      · have hne : k' ≠ k₀ := fun hk => hnodup.1 (hk ▸ List.mem_map.mpr ⟨_, htail, rfl⟩)
        exact .inr ⟨b', List.mem_cons_of_mem _ htail, (if_neg hne).symm⟩
    · rw [bump, if_neg hk] at h
      rcases List.mem_cons.mp h with h | h
      · obtain ⟨rfl, rfl⟩ := Prod.mk.inj h
        exact .inr ⟨b', List.mem_cons_self, (if_neg hk).symm⟩
      · rcases ih hnodup.2 h with ⟨rfl, hfresh, hvalue⟩ | ⟨b, hb, hvalue⟩
        · exact .inl ⟨rfl, by simpa [Ne.symm hk] using hfresh, hvalue⟩
        · exact .inr ⟨b, List.mem_cons_of_mem _ hb, hvalue⟩

/-- A figure that every item moves on by a step is, in a bucket, what the items with its key make of it one after another. -/
theorem figure_of_mem_group (figure : β → γ) (step : γ → ι → γ) {start : γ} (hstart : ∀ i, figure (first i) = start)
    (hstep : ∀ i b, figure (add i b) = step (figure b) i) {items : List ι} {k : κ} {b : β}
    (h : (k, b) ∈ group key first add items) : figure b = (items.filter fun i => key i = k).foldl step start := by
  induction items using List.reverseRecOn generalizing k b with
  | nil => cases h
  | append_singleton items i ih =>
    rw [group_concat] at h
    rw [List.filter_append, List.foldl_append]
    rcases mem_bump (nodup_keys_group items) h with ⟨rfl, hfresh, rfl⟩ | ⟨b', hb, rfl⟩
    · have hnone : (items.filter fun j => key j = key i) = [] := by
        rw [List.filter_eq_nil_iff]
        intro j hj hkey
        exact hfresh ((mem_keys_group (key i) items).mpr ⟨j, hj, by simpa using hkey⟩)
      rw [hnone, List.filter_cons_of_pos (by simp), hstep, hstart]
      rfl
    · rw [← ih hb]
      by_cases hk : k = key i
      · rw [if_pos hk, List.filter_cons_of_pos (by simpa using hk.symm), hstep]
        rfl
      · rw [if_neg hk, List.filter_cons_of_neg (by simpa using Ne.symm hk)]
        rfl

end Figures

/-! ## Measures -/

section Measures

variable [AddCommMonoid M] {key : ι → κ} {first : ι → β} {add : ι → β → β}

/-- A measure that is zero for a new bucket and grows with every item by an amount of the item's own. -/
structure Grows (first : ι → β) (add : ι → β → β) (measure : β → M) (amount : ι → M) : Prop where
  zero : ∀ i, measure (first i) = 0
  add : ∀ i b, measure (add i b) = measure b + amount i

variable {measure : β → M} {amount : ι → M}

/-- What a bucket holds is the sum over the items with its key. -/
theorem measure_of_mem_group (hgrows : Grows first add measure amount) {items : List ι} {k : κ} {b : β}
    (h : (k, b) ∈ group key first add items) : measure b = ((items.filter fun i => key i = k).map amount).sum := by
  rw [figure_of_mem_group measure (fun m i => m + amount i) hgrows.zero hgrows.add h, List.sum_eq_foldl, List.foldl_map]

theorem sum_bump {k : κ} {new : β} {f : β → β} {a : M} (hzero : measure new = 0)
    (hadd : ∀ b, measure (f b) = measure b + a) (buckets : List (κ × β)) :
    ((bump k new f buckets).map fun bucket => measure bucket.2).sum =
      (buckets.map fun bucket => measure bucket.2).sum + a := by
  induction buckets with
  | nil => simp [bump, hadd, hzero]
  | cons bucket buckets ih =>
    obtain ⟨k₀, b₀⟩ := bucket
    by_cases hk : k₀ = k
    · simp only [bump, hk, if_true, List.map_cons, List.sum_cons, hadd]
      exact add_right_comm _ _ _
    · simp only [bump, hk, if_false, List.map_cons, List.sum_cons, ih, add_assoc]

/-- All buckets together hold the sum over all items. -/
theorem sum_group (key : ι → κ) (hgrows : Grows first add measure amount) (items : List ι) :
    ((group key first add items).map fun bucket => measure bucket.2).sum = (items.map amount).sum := by
  induction items using List.reverseRecOn with
  | nil => simp [group]
  | append_singleton items i ih =>
    rw [group_concat, sum_bump (hgrows.zero i) (hgrows.add i), ih]
    simp

theorem sum_ite_eq_of_nodup {keys : List κ} (hkeys : keys.Nodup) (k : κ) (a : M) :
    (keys.map fun k' => if k = k' then a else 0).sum = if k ∈ keys then a else 0 := by
  induction keys with
  | nil => simp
  | cons k' keys ih =>
    rw [List.nodup_cons] at hkeys
    rw [List.map_cons, List.sum_cons, ih hkeys.2]
    by_cases hk : k = k'
    · subst hk
      simp [hkeys.1]
    · simp [hk]

/-- The sums over the items of each of some keys, together. -/
theorem sum_over_keys {keys : List κ} (hkeys : keys.Nodup) (key : ι → κ) (amount : ι → M) (items : List ι) :
    (keys.map fun k => ((items.filter fun i => key i = k).map amount).sum).sum =
      ((items.filter fun i => key i ∈ keys).map amount).sum := by
  induction items with
  | nil => simp
  | cons i items ih =>
    have hcons : ∀ (p : ι → Bool), (((i :: items).filter p).map amount).sum =
        (if p i then amount i else 0) + ((items.filter p).map amount).sum := by
      intro p
      by_cases hp : p i <;> simp [hp]
    simp only [hcons, List.sum_map_add, ih, decide_eq_true_eq]
    rw [sum_ite_eq_of_nodup hkeys]

end Measures

end LlmStore.Lib
