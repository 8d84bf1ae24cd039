import LlmStore.Lib.Table

/-!
# Seeding a table

Rows that have to be there are given by payloads with a name each. Seeding looks each name up in a column of the table,
brings the row that it finds back to the payload and adds a row if it finds none. `Seeds` says what this does to a table
whose names are unique, for any list of payloads with different names (`foldl_seeds`).
-/

namespace LlmStore.Lib

universe u v w x

/-- How the payloads `π` are written to rows `ν`. -/
structure Seeder (ν : Type u) (π : Type v) (β : Type w) where
  column : ν → β
  name : π → β
  row : π → ν
  update : π → ν → ν
  column_row : ∀ p, column (row p) = name p
  column_update : ∀ p v, column (update p v) = name p

namespace Seeder

variable {κ : Type x} {ν : Type u} {π : Type v} {β : Type w} [DecidableEq κ] [DecidableEq β]

section Pass

variable (s : Seeder ν π β)

/-- The key of the first row with a name. -/
def find (b : β) (t : Table κ ν) : Option κ := (t.entries.find? fun e => s.column e.2 = b).map (·.1)

/-- Seeding with one payload, with the key of its row. -/
def pass (next : List κ → κ) (p : π) (t : Table κ ν) : κ × Table κ ν :=
  match s.find (s.name p) t with
  | some k => (k, t.modify k (s.update p))
  | none =>
    let k := next t.keys
    (k, t.insert k (s.row p))

/-- A row that is there, after seeding. -/
def seeded (ps : List π) (v : ν) : ν :=
  match ps.find? fun p => s.name p = s.column v with
  | some p => s.update p v
  | none => v

/-- What seeding does to a table. -/
structure Seeds (ps : List π) (old new : Table κ ν) : Prop where
  unique : new.UniqueBy fun v => some (s.column v)
  kept : ∀ k v, old.lookup k = some v → new.lookup k = some (s.seeded ps v)
  added : ∀ k, old.lookup k = none → new.lookup k = none ∨
    ∃ p ∈ ps, new.lookup k = some (s.row p) ∧ ∀ j v, old.lookup j = some v → s.column v ≠ s.name p
  present : ∀ p ∈ ps, ∃ k v, new.lookup k = some v ∧ (v = s.row p ∨ ∃ v₀, v = s.update p v₀)

end Pass

variable {s : Seeder ν π β} {ps : List π} {p : π} {old new t : Table κ ν} {k : κ}

theorem find_some {b : β} (h : s.find b t = some k) : ∃ v, t.lookup k = some v ∧ s.column v = b := by
  obtain ⟨⟨k, v⟩, hfind, rfl⟩ := Option.map_eq_some_iff.mp h
  exact ⟨v, Table.mem_entries_iff.mp (List.mem_of_find?_eq_some hfind), by simpa using List.find?_some hfind⟩

theorem find_none {b : β} (h : s.find b t = none) {v : ν} (hv : t.lookup k = some v) : s.column v ≠ b := by
  rw [find, Option.map_eq_none_iff, List.find?_eq_none] at h
  simpa using h ⟨k, v⟩ (Table.mem_entries_iff.mpr hv)

/-- As names are unique, the row with a name is found. -/
theorem find_of_lookup (hu : t.UniqueBy fun v => some (s.column v)) {v : ν} (hv : t.lookup k = some v) :
    s.find (s.column v) t = some k := by
  cases h : s.find (s.column v) t with
  | none => exact absurd rfl (find_none h hv)
  | some j =>
    obtain ⟨w, hw, hname⟩ := find_some h
    exact congrArg some (Table.uniqueBy_iff.mp hu j k w v _ hw hv (congrArg some hname) rfl)

/-- The row of the payload is at the key that the pass gives. -/
theorem pass_present (next : List κ → κ) (p : π) (t : Table κ ν) : ∃ v,
    (s.pass next p t).2.lookup (s.pass next p t).1 = some v ∧ (v = s.row p ∨ ∃ v₀, v = s.update p v₀) := by
  unfold pass
  cases h : s.find (s.name p) t with
  | some k =>
    obtain ⟨v, hv, -⟩ := find_some h
    exact ⟨s.update p v, by rw [Table.lookup_modify_self, hv, Option.map_some], .inr ⟨v, rfl⟩⟩
  | none => exact ⟨s.row p, AList.lookup_insert t, .inl rfl⟩

omit [DecidableEq κ] in
theorem seeded_cons_self {v : ν} (h : s.column v = s.name p) : s.seeded (p :: ps) v = s.update p v := by
  simp [seeded, h]

theorem seeded_of_mem (hnodup : (ps.map s.name).Nodup) (hp : p ∈ ps) {v : ν} (hv : s.column v = s.name p) :
    s.seeded ps v = s.update p v := by
  induction ps with
  | nil => cases hp
  | cons q ps ih =>
    rw [List.map_cons, List.nodup_cons] at hnodup
    rcases List.mem_cons.mp hp with rfl | hp
    · exact seeded_cons_self hv
    · have hne : s.name q ≠ s.column v := fun he => hnodup.1 (he.trans hv ▸ List.mem_map_of_mem hp)
      rw [← ih hnodup.2 hp, seeded, List.find?_cons_of_neg (by simpa using hne), seeded]

theorem seeded_of_not_mem {v : ν} (hv : s.column v ∉ ps.map s.name) : s.seeded ps v = v := by
  have hnone : (ps.find? fun p => s.name p = s.column v) = none := by
    rw [List.find?_eq_none]
    intro p hp he
    exact hv (List.mem_map.mpr ⟨p, hp, by simpa using he⟩)
  rw [seeded, hnone]

theorem column_seeded (ps : List π) (v : ν) : s.column (s.seeded ps v) = s.column v := by
  unfold seeded
  split
  · rename_i p hp
    rw [s.column_update]
    simpa using List.find?_some hp
  · rfl

omit [DecidableEq β] in
/-- A row that a payload was written to has its name. -/
theorem column_of_present {v : ν} (h : v = s.row p ∨ ∃ v₀, v = s.update p v₀) : s.column v = s.name p := by
  rcases h with rfl | ⟨v₀, rfl⟩
  · exact s.column_row p
  · exact s.column_update p v₀

/-- Seeding with one payload. -/
theorem pass_seeds {next : List κ → κ} (hfresh : ∀ keys, next keys ∉ keys)
    (hu : t.UniqueBy fun v => some (s.column v)) : s.Seeds [p] t (s.pass next p t).2 := by
  unfold pass
  cases h : s.find (s.name p) t with
  | some k =>
    obtain ⟨v, hv, hname⟩ := find_some h
    have hself : (t.modify k (s.update p)).lookup k = some (s.update p v) := by
      rw [Table.lookup_modify_self, hv, Option.map_some]
    refine ⟨?_, fun j w hw => ?_, fun j hj => ?_, fun q hq => ?_⟩
    · refine hu.set hself (fun j hj => Table.lookup_modify_ne hj _ _) fun j w b hj hw hb he => hj ?_
      rw [s.column_update, ← hname] at hb
      exact Table.uniqueBy_iff.mp hu j k w v b hw hv he hb
    · by_cases hj : j = k
      · subst hj
        obtain rfl := Option.some.inj (hw.symm.trans hv)
        rw [hself, seeded_cons_self hname]
      · have hne : s.column w ∉ [p].map s.name := by
          rw [List.map_singleton, List.mem_singleton]
          exact fun he => hj (Table.uniqueBy_iff.mp hu j k w v _ hw hv (congrArg some he) (congrArg some hname))
        rw [Table.lookup_modify_ne hj, hw, seeded_of_not_mem hne]
    · have hne : j ≠ k := by
        rintro rfl
        rw [hj] at hv
        cases hv
      exact .inl (by rw [Table.lookup_modify_ne hne, hj])
    · obtain rfl := List.mem_singleton.mp hq
      exact ⟨k, _, hself, .inr ⟨v, rfl⟩⟩
  | none =>
    have hnew : t.lookup (next t.keys) = none := AList.lookup_eq_none.mpr (mt AList.mem_keys.mp (hfresh t.keys))
    have hself : (t.insert (next t.keys) (s.row p)).lookup (next t.keys) = some (s.row p) := AList.lookup_insert t
    refine ⟨?_, fun j w hw => ?_, fun j hj => ?_, fun q hq => ?_⟩
    · refine hu.set hself (fun j hj => AList.lookup_insert_ne hj) fun j w b _ hw hb he => ?_
      rw [s.column_row] at hb
      exact find_none h hw (Option.some.inj (he.trans hb.symm))
    · have hj : j ≠ next t.keys := by
        rintro rfl
        rw [hnew] at hw
        cases hw
      have hne : s.column w ∉ [p].map s.name := by
        rw [List.map_singleton, List.mem_singleton]
        exact find_none h hw
      rw [AList.lookup_insert_ne hj, hw, seeded_of_not_mem hne]
    · by_cases he : j = next t.keys
      · refine .inr ⟨p, List.mem_singleton_self p, ?_, fun i w hw => find_none h hw⟩
        rw [he, hself]
      · exact .inl (by rw [AList.lookup_insert_ne he, hj])
    · obtain rfl := List.mem_singleton.mp hq
      exact ⟨_, _, hself, .inl rfl⟩

/-- **Seeding with all payloads**, one after another. -/
theorem foldl_seeds {next : List κ → κ} (hfresh : ∀ keys, next keys ∉ keys) : ∀ {ps : List π} {t : Table κ ν},
    (ps.map s.name).Nodup → (t.UniqueBy fun v => some (s.column v)) →
    s.Seeds ps t (ps.foldl (fun t p => (s.pass next p t).2) t)
  | [], _, _, hu => ⟨hu, fun _ _ hv => hv, fun _ hk => .inl hk, fun _ hp => nomatch hp⟩
  | p :: ps, t, hnodup, hu => by
    rw [List.map_cons, List.nodup_cons] at hnodup
    have hfirst : s.Seeds [p] t (s.pass next p t).2 := pass_seeds hfresh hu
    have hrest := foldl_seeds hfresh hnodup.2 hfirst.unique
    rw [List.foldl_cons]
    refine ⟨hrest.unique, fun k v hv => ?_, fun k hk => ?_, fun q hq => ?_⟩
    · rw [hrest.kept k _ (hfirst.kept k v hv)]
      by_cases hname : s.column v = s.name p
      · rw [seeded_cons_self hname, seeded_cons_self hname,
          seeded_of_not_mem (by rw [s.column_update]; exact hnodup.1)]
      · have hne : s.column v ∉ [p].map s.name := by simpa using hname
        rw [seeded_of_not_mem hne, seeded, seeded, List.find?_cons_of_neg (by simpa using fun he => hname he.symm)]
    · rcases hfirst.added k hk with hnone | ⟨q, hq, hrow, hfree⟩
      · rcases hrest.added k hnone with hnone | ⟨q, hq, hrow, hfree⟩
        · exact .inl hnone
        · refine .inr ⟨q, List.mem_cons_of_mem p hq, hrow, fun j v hv he => ?_⟩
          exact hfree j _ (hfirst.kept j v hv) (by rw [column_seeded, he])
      · obtain rfl := List.mem_singleton.mp hq
        refine .inr ⟨q, List.mem_cons_self, ?_, hfree⟩
        rw [hrest.kept k _ hrow, seeded_of_not_mem (by rw [s.column_row]; exact hnodup.1)]
    · rcases List.mem_cons.mp hq with rfl | hq
      · obtain ⟨k, v, hv, hq⟩ := hfirst.present q (List.mem_singleton_self q)
        refine ⟨k, v, ?_, hq⟩
        rw [hrest.kept k v hv, seeded_of_not_mem (by rw [column_of_present hq]; exact hnodup.1)]
      · exact hrest.present q hq

end Seeder

end LlmStore.Lib
