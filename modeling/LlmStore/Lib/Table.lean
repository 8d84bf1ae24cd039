import Mathlib.Data.List.AList
import Mathlib.Algebra.BigOperators.Group.List.Basic

/-!
# Tables with a unique key

A table is an association list without duplicate keys, so two rows with one key cannot be built. `total f` adds up a
function of the rows; inserting a row changes it by the new row's part less the old one's (`total_insert`).
-/

namespace LlmStore.Lib

universe u v

variable {κ : Type u} {ν : Type v}

/-- Rows with a unique key. -/
abbrev Table (κ : Type u) (ν : Type v) := AList fun _ : κ => ν

namespace Table

section Total

variable {M : Type*} [AddCommMonoid M]

/-- The sum of `f` over the rows. -/
def total (f : κ → ν → M) (t : Table κ ν) : M := (t.entries.map fun e => f e.1 e.2).sum

@[simp] theorem total_empty (f : κ → ν → M) : total f ∅ = 0 := rfl

variable [DecidableEq κ]

/-- The part of one row in the sum; an absent row has none. -/
def part (f : κ → ν → M) (t : Table κ ν) (k : κ) : M := ((t.lookup k).map (f k)).getD 0

theorem sum_kerase (g : (Σ _ : κ, ν) → M) (k : κ) : ∀ l : List (Σ _ : κ, ν),
    (l.map g).sum = ((l.dlookup k).map fun v => g ⟨k, v⟩).getD 0 + ((l.kerase k).map g).sum
  | [] => by simp
  | ⟨k', v⟩ :: l => by
    by_cases h : k = k'
    · subst h; simp [List.kerase_cons_eq]
    · rw [List.dlookup_cons_ne _ _ h, List.kerase_cons_ne h, List.map_cons, List.sum_cons, List.map_cons,
        List.sum_cons, sum_kerase g k l, add_left_comm]

/-- Inserting a row replaces its part of the sum. -/
theorem total_insert (f : κ → ν → M) (t : Table κ ν) (k : κ) (v : ν) :
    total f (t.insert k v) + part f t k = total f t + f k v := by
  have h := sum_kerase (fun e => f e.1 e.2) k t.entries
  unfold total part
  rw [h, AList.entries_insert, List.map_cons, List.sum_cons, AList.lookup]
  rw [add_comm _ (f k v), add_comm (Option.getD _ _) _, add_assoc]

end Total

/-- The row of a key, or a default one for a key without a row. -/
def getD [DecidableEq κ] (t : Table κ ν) (k : κ) (d : ν) : ν := (t.lookup k).getD d

@[simp] theorem getD_insert [DecidableEq κ] (t : Table κ ν) (k : κ) (v d : ν) : getD (t.insert k v) k d = v := by
  simp [getD]

theorem getD_insert_ne [DecidableEq κ] {t : Table κ ν} {k k' : κ} (h : k ≠ k') (v d : ν) :
    getD (t.insert k' v) k d = getD t k d := by
  simp [getD, AList.lookup_insert_ne h]

/-- An absent row counts as a row without a part in the sum. -/
theorem part_eq_getD [DecidableEq κ] {M : Type*} [AddCommMonoid M] {f : κ → ν → M} (t : Table κ ν) {k : κ} {d : ν}
    (hd : f k d = 0) : part f t k = f k (getD t k d) := by
  unfold part getD
  cases t.lookup k with
  | none => exact hd.symm
  | some v => rfl

/-! ## Deleting rows -/

/-- `DELETE FROM t WHERE p`, for a condition on the key. -/
def deleteWhere (p : κ → Bool) (t : Table κ ν) : Table κ ν :=
  ⟨t.entries.filter fun e => !p e.1, t.nodupKeys.sublist List.filter_sublist⟩

theorem lookup_deleteWhere [DecidableEq κ] (p : κ → Bool) (t : Table κ ν) (k : κ) :
    (deleteWhere p t).lookup k = if p k then none else t.lookup k := by
  show (t.entries.filter fun e => !p e.1).dlookup k = if p k then none else t.entries.dlookup k
  generalize t.entries = l
  induction l with
  | nil => simp
  | cons e l ih =>
    obtain ⟨k', v⟩ := e
    by_cases hk : k = k'
    · subst hk
      by_cases hp : p k = true
      · rw [List.filter_cons_of_neg (by simp [hp]), ih, if_pos hp, if_pos hp]
      · rw [List.filter_cons_of_pos (by simp [hp]), if_neg hp]
        simp
    · rw [List.dlookup_cons_ne _ _ hk, ← ih]
      by_cases hp : p k' = true
      · rw [List.filter_cons_of_neg (by simp [hp])]
      · rw [List.filter_cons_of_pos (by simp [hp]), List.dlookup_cons_ne _ _ hk]

/-- Deleted rows have no part in the sum. -/
theorem total_deleteWhere {M : Type*} [AddCommMonoid M] (f : κ → ν → M) (p : κ → Bool) (t : Table κ ν) :
    total f (deleteWhere p t) = total (fun k v => if p k then 0 else f k v) t := by
  show ((t.entries.filter fun e => !p e.1).map fun e => f e.1 e.2).sum = _
  unfold total
  induction t.entries with
  | nil => rfl
  | cons e l ih =>
    by_cases hp : p e.1 = true
    · rw [List.filter_cons_of_neg (by simp [hp]), ih]
      simp [hp]
    · rw [List.filter_cons_of_pos (by simp [hp]), List.map_cons, List.sum_cons, ih]
      simp [hp]

/-! ## Changing rows in place -/

section MapRows

/-- Every row changed by `f`, in its place. -/
def mapRows (f : κ → ν → ν) (t : Table κ ν) : Table κ ν :=
  ⟨t.entries.map fun e => ⟨e.1, f e.1 e.2⟩, by
    have hkeys : (t.entries.map fun e => (⟨e.1, f e.1 e.2⟩ : Σ _ : κ, ν)).keys = t.entries.keys := by
      simp [List.keys]
    rw [List.NodupKeys, hkeys]
    exact t.nodupKeys⟩

variable [DecidableEq κ]

@[simp] theorem lookup_mapRows (f : κ → ν → ν) (t : Table κ ν) (k : κ) :
    (mapRows f t).lookup k = (t.lookup k).map (f k) := by
  show (t.entries.map fun e => (⟨e.1, f e.1 e.2⟩ : Σ _ : κ, ν)).dlookup k = (t.entries.dlookup k).map (f k)
  induction t.entries with
  | nil => rfl
  | cons e l ih =>
    obtain ⟨k', v⟩ := e
    by_cases hk : k = k'
    · subst hk
      simp
    · rw [List.map_cons, List.dlookup_cons_ne _ _ hk, List.dlookup_cons_ne _ _ hk, ih]

/-- The row of `k` changed by `f`, in its place. -/
def modify (k : κ) (f : ν → ν) (t : Table κ ν) : Table κ ν := mapRows (fun k' v => if k' = k then f v else v) t

@[simp] theorem lookup_modify_self (k : κ) (f : ν → ν) (t : Table κ ν) :
    (modify k f t).lookup k = (t.lookup k).map f := by
  simp [modify]

theorem lookup_modify_ne {k k' : κ} (h : k' ≠ k) (f : ν → ν) (t : Table κ ν) :
    (modify k f t).lookup k' = t.lookup k' := by
  simp [modify, h]

/-- All rows after one of them is changed. -/
theorem lookup_modify_eq (k : κ) (f : ν → ν) (t : Table κ ν) :
    (fun j => (modify k f t).lookup j) = Function.update (fun j => t.lookup j) k ((t.lookup k).map f) := by
  funext j
  by_cases hj : j = k
  · subst hj
    rw [lookup_modify_self, Function.update_self]
  · rw [lookup_modify_ne hj, Function.update_of_ne hj]

/-- All rows after one of them is inserted. -/
theorem lookup_insert_eq (k : κ) (v : ν) (t : Table κ ν) :
    (fun j => (t.insert k v).lookup j) = Function.update (fun j => t.lookup j) k (some v) := by
  funext j
  by_cases hj : j = k
  · subst hj
    rw [AList.lookup_insert, Function.update_self]
  · rw [AList.lookup_insert_ne hj, Function.update_of_ne hj]

theorem mem_entries_iff {t : Table κ ν} {k : κ} {v : ν} : ⟨k, v⟩ ∈ t.entries ↔ t.lookup k = some v :=
  (AList.mem_lookup_iff (s := t)).symm

/-- A change that leaves every row as it is leaves the table as it is. -/
theorem mapRows_eq_self {f : κ → ν → ν} {t : Table κ ν} (h : ∀ k v, t.lookup k = some v → f k v = v) :
    mapRows f t = t := by
  refine AList.ext ?_
  show (t.entries.map fun e => (⟨e.1, f e.1 e.2⟩ : Σ _ : κ, ν)) = t.entries
  conv_rhs => rw [← List.map_id t.entries]
  refine List.map_congr_left fun e he => ?_
  rw [h e.1 e.2 (mem_entries_iff.mp he)]
  rfl

theorem modify_eq_self {k : κ} {f : ν → ν} {t : Table κ ν} (h : ∀ v, t.lookup k = some v → f v = v) :
    modify k f t = t := by
  refine mapRows_eq_self fun k' v hk' => ?_
  split_ifs with hk
  · subst hk
    exact h v hk'
  · rfl

omit [DecidableEq κ] in
@[simp] theorem keys_mapRows (f : κ → ν → ν) (t : Table κ ν) : (mapRows f t).keys = t.keys := by
  show (t.entries.map fun e => (⟨e.1, f e.1 e.2⟩ : Σ _ : κ, ν)).keys = t.entries.keys
  simp [List.keys]

@[simp] theorem keys_modify (k : κ) (f : ν → ν) (t : Table κ ν) : (modify k f t).keys = t.keys := keys_mapRows _ t

/-- The rows by their keys. -/
theorem entries_eq (t : Table κ ν) : t.entries = t.keys.filterMap fun k => (t.lookup k).map (Sigma.mk k) := by
  show t.entries = (t.entries.map Sigma.fst).filterMap fun k => (t.lookup k).map (Sigma.mk k)
  rw [List.filterMap_map]
  conv_lhs => rw [← List.filterMap_some (l := t.entries)]
  refine List.filterMap_congr fun e he => ?_
  rw [Function.comp_apply, mem_entries_iff.mp he, Option.map_some]

/-- Tables with the same keys in the same order and the same rows are the same. -/
theorem ext_of_keys {t t' : Table κ ν} (hkeys : t.keys = t'.keys) (h : ∀ k, t.lookup k = t'.lookup k) : t = t' := by
  refine AList.ext ?_
  rw [entries_eq t, entries_eq t', hkeys]
  simp only [h]

/-! ### Selecting rows -/

/-- `SELECT * FROM t WHERE p`. -/
def select (p : κ → ν → Bool) (t : Table κ ν) : List (Σ _ : κ, ν) := t.entries.filter fun e => p e.1 e.2

theorem mem_select_iff {p : κ → ν → Bool} {t : Table κ ν} {k : κ} {v : ν} :
    ⟨k, v⟩ ∈ select p t ↔ t.lookup k = some v ∧ p k v = true := by
  rw [select, List.mem_filter, mem_entries_iff]

theorem select_eq_nil_iff {p : κ → ν → Bool} {t : Table κ ν} :
    select p t = [] ↔ ∀ k v, t.lookup k = some v → p k v = false := by
  rw [List.eq_nil_iff_forall_not_mem]
  constructor
  · intro h k v hk
    by_contra hp
    exact h ⟨k, v⟩ (mem_select_iff.mpr ⟨hk, by simpa using hp⟩)
  · rintro h ⟨k, v⟩ hmem
    obtain ⟨hk, hp⟩ := mem_select_iff.mp hmem
    rw [h k v hk] at hp
    cases hp

/-- Just one row is selected if all selected rows are that of one key. -/
theorem select_eq_singleton_iff {p : κ → ν → Bool} {t : Table κ ν} {k : κ} {v : ν} :
    select p t = [⟨k, v⟩] ↔
      t.lookup k = some v ∧ p k v = true ∧ ∀ k' v', t.lookup k' = some v' → p k' v' = true → k' = k := by
  have hnd : (select p t).Nodup := (List.NodupKeys.nodup t.nodupKeys).filter _
  constructor
  · intro h
    have hmem : (⟨k, v⟩ : Σ _ : κ, ν) ∈ select p t := by simp [h]
    refine ⟨(mem_select_iff.mp hmem).1, (mem_select_iff.mp hmem).2, fun k' v' hk' hp' => ?_⟩
    have hmem' := mem_select_iff.mpr ⟨hk', hp'⟩
    rw [h, List.mem_singleton] at hmem'
    exact congrArg Sigma.fst hmem'
  · rintro ⟨hk, hp, honly⟩
    refine List.perm_singleton.mp ((List.perm_ext_iff_of_nodup hnd (List.nodup_singleton _)).mpr ?_)
    rintro ⟨k', v'⟩
    rw [mem_select_iff, List.mem_singleton]
    constructor
    · rintro ⟨hk', hp'⟩
      obtain rfl := honly k' v' hk' hp'
      rw [hk, Option.some.injEq] at hk'
      rw [hk']
    · intro he
      cases he
      exact ⟨hk, hp⟩

end MapRows

/-! ## Unique columns -/

section UniqueBy

variable {β : Type*}

/-- No two rows have one value in the column; rows without a value in it do not clash. -/
def UniqueBy (column : ν → Option β) (t : Table κ ν) : Prop :=
  t.entries.Pairwise fun e e' => ∀ b ∈ column e.2, b ∉ column e'.2

instance [DecidableEq β] (column : ν → Option β) (t : Table κ ν) : Decidable (UniqueBy column t) := by
  unfold UniqueBy
  infer_instance

variable [DecidableEq κ]

theorem uniqueBy_iff {column : ν → Option β} {t : Table κ ν} :
    UniqueBy column t ↔ ∀ k k' v v' b, t.lookup k = some v → t.lookup k' = some v' → column v = some b →
      column v' = some b → k = k' := by
  have hkeys : t.entries.Pairwise fun e e' => e.1 ≠ e'.1 := List.NodupKeys.pairwise_ne t.nodupKeys
  constructor
  · intro h k k' v v' b hk hk' hv hv'
    by_contra hne
    have hsymm : Std.Symm fun e e' : (Σ _ : κ, ν) => ∀ b ∈ column e.2, b ∉ column e'.2 :=
      ⟨fun e e' h b hb hb' => h b hb' hb⟩
    exact List.Pairwise.forall h (mem_entries_iff.mpr hk) (mem_entries_iff.mpr hk')
      (fun he => hne (congrArg Sigma.fst he)) b hv hv'
  · intro h
    refine hkeys.imp_of_mem fun {e e'} he he' hne b hb hb' => hne ?_
    exact h e.1 e'.1 e.2 e'.2 b (mem_entries_iff.mp he) (mem_entries_iff.mp he') hb hb'

/-- One row is added or changed, and its value in the column is that of no other row. -/
theorem UniqueBy.set {column : ν → Option β} {t t' : Table κ ν} (h : UniqueBy column t) {k : κ} {v : ν}
    (hself : t'.lookup k = some v) (hother : ∀ k', k' ≠ k → t'.lookup k' = t.lookup k')
    (hnew : ∀ k' v' b, k' ≠ k → t.lookup k' = some v' → column v = some b → column v' ≠ some b) :
    UniqueBy column t' := by
  rw [uniqueBy_iff] at h ⊢
  intro i j vi vj b hi hj hvi hvj
  by_cases hik : i = k
  · subst hik
    rw [hself, Option.some.injEq] at hi
    subst hi
    by_contra hij
    have hji : j ≠ i := fun he => hij he.symm
    rw [hother j hji] at hj
    exact hnew j vj b hji hj hvi hvj
  · rw [hother i hik] at hi
    by_cases hjk : j = k
    · subst hjk
      rw [hself, Option.some.injEq] at hj
      subst hj
      exact absurd hvi (hnew i vi b hik hi hvj)
    · rw [hother j hjk] at hj
      exact h i j vi vj b hi hj hvi hvj

/-- A change of rows that keeps the column. -/
theorem UniqueBy.mapRows {column : ν → Option β} {t : Table κ ν} (h : UniqueBy column t) {f : κ → ν → ν}
    (hf : ∀ k v, column (f k v) = column v) : UniqueBy column (mapRows f t) := by
  rw [uniqueBy_iff] at h ⊢
  intro i j vi vj b hi hj hvi hvj
  rw [lookup_mapRows] at hi hj
  obtain ⟨wi, hwi, rfl⟩ := Option.map_eq_some_iff.mp hi
  obtain ⟨wj, hwj, rfl⟩ := Option.map_eq_some_iff.mp hj
  rw [hf] at hvi hvj
  exact h i j wi wj b hwi hwj hvi hvj

end UniqueBy

end Table

end LlmStore.Lib
