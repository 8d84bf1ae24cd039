import Mathlib.Data.List.Induction
import LlmStore.Lib.Table

/-!
# Loops over rows

What a table holds after a loop that inserts one row for each element of a list (`lookup_foldl_insert`: the last one
of a key stays), changes rows in place (`lookup_foldl_modify`), adds rows under new ids (`entries_insertAll`) or erases
ids (`lookup_foldl_erase`), and when a column is still unique after it (`uniqueBy_insertAll_iff`).
-/

namespace LlmStore.Lib.Table

universe u v w

variable {κ : Type u} {ν : Type v} {α : Type w} {β : Type*}

/-- The last element of the list with the key. -/
def lastWith [DecidableEq β] (key : α → β) (b : β) (l : List α) : Option α := (l.filter fun a => key a = b).getLast?

section LastWith

variable [DecidableEq β] {key : α → β} {b : β} {a : α} {l : List α}

@[simp] theorem lastWith_nil (key : α → β) (b : β) : lastWith key b [] = none := rfl

theorem lastWith_append_singleton (key : α → β) (b : β) (l : List α) (a : α) :
    lastWith key b (l ++ [a]) = if key a = b then some a else lastWith key b l := by
  unfold lastWith
  by_cases h : key a = b <;> simp [h]

theorem lastWith_eq_none_iff : lastWith key b l = none ↔ b ∉ l.map key := by
  rw [lastWith, List.getLast?_eq_none_iff, List.filter_eq_nil_iff, List.mem_map]
  simp

theorem key_of_lastWith (h : lastWith key b l = some a) : key a = b ∧ a ∈ l := by
  obtain ⟨hmem, hkey⟩ := List.mem_filter.mp (List.mem_of_getLast? h)
  exact ⟨of_decide_eq_true hkey, hmem⟩

/-- With distinct keys there is no other element than the last. -/
theorem lastWith_eq_some_iff (hl : (l.map key).Nodup) : lastWith key b l = some a ↔ a ∈ l ∧ key a = b := by
  refine ⟨fun h => (key_of_lastWith h).symm, ?_⟩
  rintro ⟨hmem, rfl⟩
  induction l using List.reverseRecOn with
  | nil => cases hmem
  | append_singleton l x ih =>
    rw [List.map_append, List.nodup_append'] at hl
    obtain ⟨hnodup, -, hdisjoint⟩ := hl
    rw [lastWith_append_singleton]
    rcases List.mem_append.mp hmem with hl' | hx
    · have hne : key x ≠ key a := fun he =>
        hdisjoint (List.mem_map_of_mem hl') (by simp [he])
      rw [if_neg hne]
      exact ih hnodup hl'
    · rw [List.mem_singleton] at hx
      rw [hx, if_pos rfl]

end LastWith

variable [DecidableEq κ]

/-- One row for each element: the last one of a key stays. -/
theorem lookup_foldl_insert (key : α → κ) (val : α → ν) (l : List α) (t : Table κ ν) (k : κ) :
    (l.foldl (fun t a => t.insert (key a) (val a)) t).lookup k = ((lastWith key k l).map val).or (t.lookup k) := by
  induction l using List.reverseRecOn with
  | nil => rfl
  | append_singleton l a ih =>
    rw [List.foldl_append, List.foldl_cons, List.foldl_nil, lastWith_append_singleton]
    by_cases h : key a = k
    · subst h
      rw [AList.lookup_insert, if_pos rfl, Option.map_some]
      rfl
    · rw [AList.lookup_insert_ne (Ne.symm h), if_neg h, ih]

/-- Rows changed in place, where an element has one: the last change of a row stays, if a change does not depend on
those before it. -/
theorem lookup_foldl_modify (key : α → Option κ) {f : α → ν → ν} (hf : ∀ a a' v, f a (f a' v) = f a v) (l : List α)
    (t : Table κ ν) (k : κ) :
    (l.foldl (fun t a => (key a).elim t fun k => t.modify k (f a)) t).lookup k =
      (t.lookup k).map fun v => ((lastWith key (some k) l).map fun a => f a v).getD v := by
  induction l using List.reverseRecOn with
  | nil => simp
  | append_singleton l a ih =>
    rw [List.foldl_append, List.foldl_cons, List.foldl_nil, lastWith_append_singleton]
    cases hkey : key a with
    | none => rw [Option.elim_none, ih, if_neg (by simp)]
    | some k' =>
      rw [Option.elim_some]
      by_cases h : k' = k
      · subst h
        rw [lookup_modify_self, ih, if_pos rfl, Option.map_map]
        congr 1
        funext v
        cases lastWith key (some k') l with
        | none => rfl
        | some a' => exact hf a a' v
      · rw [lookup_modify_ne (Ne.symm h), ih, if_neg (by simpa using h)]

/-- `for k in ks: del t[k]`. -/
theorem lookup_foldl_erase (ks : List κ) (t : Table κ ν) (k : κ) :
    (ks.foldl (fun t k => t.erase k) t).lookup k = if k ∈ ks then none else t.lookup k := by
  induction ks generalizing t with
  | nil => simp
  | cons k' ks ih =>
    rw [List.foldl_cons, ih]
    by_cases hk : k = k'
    · subst hk
      simp
    · simp [hk, AList.lookup_erase_ne hk]

/-! ## Unique columns -/

omit [DecidableEq κ] in
/-- A column without `NULL` is unique. -/
theorem uniqueBy_some_iff {key : ν → β} {t : Table κ ν} :
    UniqueBy (fun v => some (key v)) t ↔ (t.entries.map fun e => key e.2).Nodup := by
  rw [UniqueBy, List.Nodup, List.pairwise_map]
  simp [eq_comm]

/-- Erasing rows keeps a column unique. -/
theorem UniqueBy.erase {column : ν → Option β} {t : Table κ ν} (h : UniqueBy column t) (k : κ) :
    UniqueBy column (t.erase k) :=
  h.sublist (List.kerase_sublist k t.entries)

theorem UniqueBy.foldl_erase {column : ν → Option β} (ks : List κ) {t : Table κ ν} (h : UniqueBy column t) :
    UniqueBy column (ks.foldl (fun t k => t.erase k) t) := by
  induction ks generalizing t with
  | nil => exact h
  | cons k ks ih => exact ih (h.erase k)

/-! ## New rows -/

/-- Rows added one after the other, each under an id that `next` gives for the ids that are there. -/
def insertAll (next : List κ → κ) (vs : List ν) (t : Table κ ν) : Table κ ν :=
  vs.foldl (fun t v => t.insert (next t.keys) v) t

section InsertAll

variable {next : List κ → κ} (hnext : ∀ keys, next keys ∉ keys)
include hnext

/-- The new rows are there, beside the old ones. -/
theorem entries_insertAll (vs : List ν) (t : Table κ ν) :
    ∃ new : List (Σ _ : κ, ν), (insertAll next vs t).entries = new ++ t.entries ∧ new.map Sigma.snd = vs.reverse := by
  induction vs generalizing t with
  | nil => exact ⟨[], rfl, rfl⟩
  | cons v vs ih =>
    obtain ⟨new, hentries, hnew⟩ := ih (t.insert (next t.keys) v)
    have hfresh : next t.keys ∉ t := fun h => hnext t.keys (AList.mem_keys.mp h)
    refine ⟨new ++ [⟨next t.keys, v⟩], ?_, ?_⟩
    · rw [insertAll, List.foldl_cons]
      refine hentries.trans ?_
      rw [AList.entries_insert_of_notMem hfresh, List.append_assoc]
      rfl
    · rw [List.map_append, hnew, List.reverse_cons]
      rfl

/-- An old row stays. -/
theorem lookup_insertAll_of_lookup {vs : List ν} {t : Table κ ν} {k : κ} {v : ν} (h : t.lookup k = some v) :
    (insertAll next vs t).lookup k = some v := by
  obtain ⟨new, hentries, -⟩ := entries_insertAll hnext vs t
  apply mem_entries_iff.mp
  rw [hentries]
  exact List.mem_append_right _ (mem_entries_iff.mpr h)

/-- A row is an old one or a new one. -/
theorem lookup_insertAll_cases {vs : List ν} {t : Table κ ν} {k : κ} {v : ν}
    (h : (insertAll next vs t).lookup k = some v) : t.lookup k = some v ∨ t.lookup k = none ∧ v ∈ vs := by
  obtain ⟨new, hentries, hnew⟩ := entries_insertAll hnext vs t
  cases ht : t.lookup k with
  | some v' =>
    rw [lookup_insertAll_of_lookup hnext ht] at h
    exact .inl h
  | none =>
    have hmem := mem_entries_iff.mpr h
    rw [hentries] at hmem
    rcases List.mem_append.mp hmem with hin | hin
    · have := List.mem_map_of_mem (f := Sigma.snd) hin
      rw [hnew, List.mem_reverse] at this
      exact .inr ⟨rfl, this⟩
    · rw [mem_entries_iff.mp hin] at ht
      cases ht

/-- Every new row is there. -/
theorem exists_lookup_insertAll {vs : List ν} (t : Table κ ν) {v : ν} (h : v ∈ vs) :
    ∃ k, t.lookup k = none ∧ (insertAll next vs t).lookup k = some v := by
  obtain ⟨new, hentries, hnew⟩ := entries_insertAll hnext vs t
  have hmem : v ∈ new.map Sigma.snd := by
    rw [hnew]
    exact List.mem_reverse.mpr h
  obtain ⟨⟨k, w⟩, he, rfl⟩ := List.mem_map.mp hmem
  refine ⟨k, ?_, mem_entries_iff.mp (by rw [hentries]; exact List.mem_append_left _ he)⟩
  have hnd := (insertAll next vs t).nodupKeys
  rw [hentries, List.NodupKeys, List.keys_append, List.nodup_append'] at hnd
  by_contra hne
  obtain ⟨w', hw'⟩ := Option.ne_none_iff_exists'.mp hne
  have hold : k ∈ t.entries.keys := List.mem_keys_of_mem (mem_entries_iff.mpr hw')
  exact hnd.2.2 (List.mem_keys_of_mem he) hold

/-- **Added rows meet the unique column exactly if two of them agree in it, or one of them with an old row.** -/
theorem uniqueBy_insertAll_iff {key : ν → β} {vs : List ν} {t : Table κ ν} :
    UniqueBy (fun v => some (key v)) (insertAll next vs t) ↔ UniqueBy (fun v => some (key v)) t ∧
      (vs.map key).Nodup ∧ ∀ v ∈ vs, ∀ k w, t.lookup k = some w → key w ≠ key v := by
  obtain ⟨new, hentries, hnew⟩ := entries_insertAll hnext vs t
  have hkeys : (new.map fun e => key e.2) = (vs.map key).reverse := by
    rw [← List.map_reverse, ← hnew, List.map_map]
    rfl
  rw [uniqueBy_some_iff, uniqueBy_some_iff, hentries, List.map_append, List.nodup_append', hkeys, List.nodup_reverse]
  constructor
  · rintro ⟨hvs, ht, hdisjoint⟩
    refine ⟨ht, hvs, fun v hv k w hw he => ?_⟩
    refine hdisjoint (List.mem_reverse.mpr (List.mem_map_of_mem hv)) ?_
    exact List.mem_map.mpr ⟨⟨k, w⟩, mem_entries_iff.mpr hw, he⟩
  · rintro ⟨ht, hvs, hne⟩
    refine ⟨hvs, ht, fun b hb hb' => ?_⟩
    obtain ⟨v, hv, rfl⟩ := List.mem_map.mp (List.mem_reverse.mp hb)
    obtain ⟨⟨k, w⟩, he, heq⟩ := List.mem_map.mp hb'
    exact hne v hv k w (mem_entries_iff.mp he) heq

end InsertAll

end LlmStore.Lib.Table
