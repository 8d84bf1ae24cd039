import Mathlib.Data.List.Nodup
import Mathlib.Logic.Function.Basic

/-!
# Seeding rows that are looked up by id or alias

Rows have an id and perhaps an alias. To seed a pair of an id and an alias, the row that has the id or the alias is
looked up, at most one row may be found, and it gets the alias; if there is none, a row with both is added
(`Upserts`). Seeding a list of pairs can fail in the middle, and repeated it can find other rows.

`Unsplit` says when neither happens. It is what the next search needs (`Unsplit.search`), every step leaves it for the
pairs after it (`Progress.step`), and at the end of the list every pair has a row of its own kind that all later
searches find (`Settled`), however often the list is seeded again (`Settled.update`). `Settled.unsplit` closes the
circle.
-/

namespace LlmStore.Lib.Upsert

universe u v w

variable {κ : Type u} {α : Type v} {β : Type w}

/-- The ids and aliases of the rows. -/
abbrev Rows (κ : Type u) (α : Type v) (β : Type w) := κ → Option (α × Option β)

/-- The search for the pair finds the row. -/
def Matches (n : α × β) (row : α × Option β) : Prop := row.1 = n.1 ∨ row.2 = some n.2

/-- The row is that of the pair: it has the id, or it has the alias and no id of the list. -/
def Owns (names : List (α × β)) (n : α × β) (row : α × Option β) : Prop :=
  row.1 = n.1 ∨ row.2 = some n.2 ∧ ∀ n' ∈ names, row.1 ≠ n'.1

/-- Some row is that of the pair. -/
def Owned (names : List (α × β)) (n : α × β) (rows : Rows κ α β) : Prop := ∃ k row, rows k = some row ∧ Owns names n row

/-- No pair of the list is split between rows. -/
structure Unsplit (names : List (α × β)) (rows : Rows κ α β) : Prop where
  /-- A pair has one row at most. -/
  one : ∀ n ∈ names, ∀ j k r s, rows j = some r → rows k = some s → Owns names n r → Owns names n s → j = k
  /-- A row with the id of a pair does not have the alias of an earlier one. -/
  order : names.Pairwise fun n n' => n.1 ≠ n'.1 → ∀ k row, rows k = some row → row.1 = n'.1 → row.2 ≠ some n.2
  /-- Of two pairs with one id, both have rows or none has. -/
  shared : ∀ n ∈ names, ∀ n' ∈ names, n.1 = n'.1 → Owned names n rows → Owned names n' rows

instance [DecidableEq α] [DecidableEq β] (n : α × β) (row : α × Option β) (names : List (α × β)) :
    Decidable (Owns names n row) := by
  unfold Owns
  infer_instance

/-- Whether pairs are split among the rows of a table. -/
def decidableUnsplit [DecidableEq κ] [DecidableEq α] [DecidableEq β] {names : List (α × β)} {rows : Rows κ α β}
    (table : List (κ × α × Option β)) (h : ∀ k row, rows k = some row ↔ (k, row) ∈ table) :
    Decidable (Unsplit names rows) :=
  decidable_of_iff
    ((∀ n ∈ names, ∀ e ∈ table, ∀ e' ∈ table, Owns names n e.2 → Owns names n e'.2 → e.1 = e'.1) ∧
      (names.Pairwise fun n n' => n.1 ≠ n'.1 → ∀ e ∈ table, e.2.1 = n'.1 → e.2.2 ≠ some n.2) ∧
      ∀ n ∈ names, ∀ n' ∈ names, n.1 = n'.1 → (∃ e ∈ table, Owns names n e.2) → ∃ e ∈ table, Owns names n' e.2)
    (by
      constructor
      · rintro ⟨hone, horder, hshared⟩
        refine ⟨fun n hn j k r s hr hs => hone n hn (j, r) ((h j r).mp hr) (k, s) ((h k s).mp hs), ?_, ?_⟩
        · exact horder.imp fun hnn hne k row hrow => hnn hne (k, row) ((h k row).mp hrow)
        · rintro n hn n' hn' he ⟨k, row, hrow, howns⟩
          obtain ⟨e, hmem, howns'⟩ := hshared n hn n' hn' he ⟨(k, row), (h k row).mp hrow, howns⟩
          exact ⟨e.1, e.2, (h e.1 e.2).mpr hmem, howns'⟩
      · intro hu
        refine ⟨fun n hn e he e' he' => hu.one n hn e.1 e'.1 e.2 e'.2 ((h _ _).mpr he) ((h _ _).mpr he'), ?_, ?_⟩
        · refine hu.order.imp ?_
          rintro n n' hnn hne ⟨k, row⟩ he
          exact hnn hne k row ((h k row).mpr he)
        · rintro n hn n' hn' he ⟨e, hmem, howns⟩
          obtain ⟨k, row, hrow, howns'⟩ := hu.shared n hn n' hn' he ⟨e.1, e.2, (h _ _).mpr hmem, howns⟩
          exact ⟨(k, row), (h k row).mp hrow, howns'⟩)

theorem Owns.matches {names : List (α × β)} {n : α × β} {row : α × Option β} (h : Owns names n row) : Matches n row :=
  h.imp_right And.left

section Step

variable [DecidableEq κ]

/-- The pair is seeded into the row `k`, which has or gets the id `id`. -/
structure Upserts (n : α × β) (rows : Rows κ α β) (k : κ) (id : α) (rows' : Rows κ α β) : Prop where
  origin : (∃ name, rows k = some (id, name)) ∨ rows k = none ∧ id = n.1
  found : id = n.1 ∨ rows k = some (id, some n.2)
  only : ∀ j row, rows j = some row → Matches n row → j = k
  eq : rows' = Function.update rows k (some (id, some n.2))

variable {n : α × β} {names : List (α × β)} {rows rows' : Rows κ α β} {k : κ} {id : α}

omit [DecidableEq κ] in
/-- The row that a search finds is that of the pair. -/
theorem Unsplit.owns_of_matches (h : Unsplit (n :: names) rows) {j : κ} {row : α × Option β} (hj : rows j = some row)
    (hm : Matches n row) : Owns (n :: names) n row := by
  rcases hm with hid | hname
  · exact .inl hid
  · by_cases hid : row.1 = n.1
    · exact .inl hid
    · refine .inr ⟨hname, fun n' hn' he => ?_⟩
      rcases List.mem_cons.mp hn' with rfl | hn'
      · exact hid he
      · have hne : n.1 ≠ n'.1 := fun hnn => hid (he.trans hnn.symm)
        exact List.rel_of_pairwise_cons h.order hn' hne j row hj he hname

omit [DecidableEq κ] in
/-- The next search finds one row at most. -/
theorem Unsplit.search (h : Unsplit (n :: names) rows) {i j : κ} {r s : α × Option β} (hi : rows i = some r)
    (hj : rows j = some s) (hr : Matches n r) (hs : Matches n s) : i = j :=
  h.one n List.mem_cons_self i j r s hi hj (h.owns_of_matches hi hr) (h.owns_of_matches hj hs)

theorem Upserts.self (h : Upserts n rows k id rows') : rows' k = some (id, some n.2) := by
  rw [h.eq, Function.update_self]

theorem Upserts.other (h : Upserts n rows k id rows') {j : κ} (hj : j ≠ k) : rows' j = rows j := by
  rw [h.eq, Function.update_of_ne hj]

/-- Another row that is of a later pair was so before. -/
theorem Upserts.owns_other (h : Upserts n rows k id rows') {j : κ} (hj : j ≠ k) {row : α × Option β}
    (hrow : rows j = some row) {n' : α × β} (ho : Owns names n' row) : Owns (n :: names) n' row := by
  rcases ho with hid | ⟨hname, hno⟩
  · exact .inl hid
  · refine .inr ⟨hname, fun n'' hn'' he => ?_⟩
    rcases List.mem_cons.mp hn'' with rfl | hn''
    · exact hj (h.only j row hrow (.inl he))
    · exact hno n'' hn'' he

theorem Owns.tail {n' : α × β} {row : α × Option β} (h : Owns (n :: names) n' row) : Owns names n' row :=
  h.imp_right fun ⟨hname, hno⟩ => ⟨hname, fun n'' hn'' => hno n'' (List.mem_cons_of_mem _ hn'')⟩

/-- A later pair that has a row still has one. -/
theorem Upserts.owned (h : Upserts n rows k id rows') {n' : α × β} (hn : n'.2 ≠ n.2)
    (ho : Owned (n :: names) n' rows) : Owned names n' rows' := by
  obtain ⟨j, row, hj, ho⟩ := ho
  by_cases hjk : j = k
  · subst hjk
    refine ⟨j, (id, some n.2), h.self, .inl ?_⟩
    rcases h.origin with ⟨name, hold⟩ | ⟨hnone, -⟩
    · rw [hj, Option.some.injEq] at hold
      subst hold
      rcases ho with hid | ⟨hname, hno⟩
      · exact hid
      · rcases h.found with hid | hfound
        · exact absurd hid (hno n List.mem_cons_self)
        · rw [hj, Option.some.injEq, Prod.mk.injEq] at hfound
          exact absurd (Option.some.inj (hname.symm.trans hfound.2)) hn
    · rw [hnone] at hj
      cases hj
  · exact ⟨j, row, (h.other hjk).trans hj, ho.tail⟩

/-- A step leaves the pairs after it unsplit. -/
theorem Upserts.unsplit (h : Upserts n rows k id rows') (hu : Unsplit (n :: names) rows)
    (hnames : ∀ n' ∈ names, n'.2 ≠ n.2) : Unsplit names rows' := by
  have hself : ∀ n' ∈ names, Owns names n' (id, some n.2) → id = n'.1 := by
    intro n' hn' ho
    rcases ho with hid | ⟨hname, -⟩
    · exact hid
    · exact absurd (Option.some.inj hname).symm (hnames n' hn')
  -- the row of the step is the only one of every later pair with its id
  have hkey : ∀ n' ∈ names, id = n'.1 → ∀ j row, j ≠ k → rows j = some row → ¬ Owns names n' row := by
    intro n' hn' hid j row hj hrow ho
    have ho' := h.owns_other hj hrow ho
    rcases h.origin with ⟨name, hold⟩ | ⟨hnone, hnew⟩
    · exact hj (hu.one n' (List.mem_cons_of_mem _ hn') j k _ _ hrow hold ho' (.inl hid))
    · obtain ⟨i, r, hi, hor⟩ := hu.shared n' (List.mem_cons_of_mem _ hn') n List.mem_cons_self (hid.symm.trans hnew)
        ⟨j, row, hrow, ho'⟩
      have hik := h.only i r hi hor.matches
      rw [hik, hnone] at hi
      cases hi
  refine ⟨?_, ?_, ?_⟩
  · intro n' hn' i j r s hi hj hr hs
    by_cases hik : i = k
    · by_cases hjk : j = k
      · exact hik.trans hjk.symm
      · rw [hik, h.self, Option.some.injEq] at hi
        rw [h.other hjk] at hj
        exact absurd hs (hkey n' hn' (hself n' hn' (hi ▸ hr)) j s hjk hj)
    · rw [h.other hik] at hi
      by_cases hjk : j = k
      · rw [hjk, h.self, Option.some.injEq] at hj
        exact absurd hr (hkey n' hn' (hself n' hn' (hj ▸ hs)) i r hik hi)
      · rw [h.other hjk] at hj
        exact hu.one n' (List.mem_cons_of_mem _ hn') i j r s hi hj (h.owns_other hik hi hr) (h.owns_other hjk hj hs)
  · refine (List.pairwise_cons.mp hu.order).2.imp_of_mem fun {n' n''} hn' _ hold hne j row hj hid => ?_
    by_cases hjk : j = k
    · rw [hjk, h.self, Option.some.injEq] at hj
      subst hj
      exact fun he => hnames n' hn' (Option.some.inj he).symm
    · rw [h.other hjk] at hj
      exact hold hne j row hj hid
  · rintro n' hn' n'' hn'' he ⟨j, row, hj, ho⟩
    by_cases hjk : j = k
    · rw [hjk, h.self, Option.some.injEq] at hj
      subst hj
      exact ⟨k, (id, some n.2), h.self, .inl ((hself n' hn' ho).trans he)⟩
    · rw [h.other hjk] at hj
      exact h.owned (hnames n'' hn'') (hu.shared n' (List.mem_cons_of_mem _ hn') n'' (List.mem_cons_of_mem _ hn'') he
        ⟨j, row, hj, h.owns_other hjk hj ho⟩)

end Step

/-! ## In the middle of the list -/

section Progress

/-- The pairs in `done` have been seeded, into the rows given with them, and those in `todo` not yet. -/
structure Progress (done : List ((α × β) × κ)) (todo : List (α × β)) (rows : Rows κ α β) : Prop where
  unsplit : Unsplit todo rows
  /-- The row of a seeded pair has the alias of a seeded pair. -/
  named : ∀ p ∈ done, ∃ q ∈ done, ∀ row, rows p.2 = some row → row.2 = some q.1.2
  /-- A seeded pair has its row, by its id, or by its alias and not by any id. -/
  placed : ∀ p ∈ done, ∃ row, rows p.2 = some row ∧ (row.1 = p.1.1 ∨ row.2 = some p.1.2 ∧
    (∀ q ∈ done, row.1 ≠ q.1.1) ∧ ∀ n ∈ todo, row.1 ≠ n.1 ∧ (n.1 = p.1.1 → Owned todo n rows))
  /-- A later search for it finds no other row. -/
  alone : ∀ p ∈ done, ∀ j row, j ≠ p.2 → rows j = some row → ¬ Matches p.1 row

theorem Progress.start {names : List (α × β)} {rows : Rows κ α β} (h : Unsplit names rows) : Progress [] names rows where
  unsplit := h
  named := fun _ hp => absurd hp List.not_mem_nil
  placed := fun _ hp => absurd hp List.not_mem_nil
  alone := fun _ hp => absurd hp List.not_mem_nil

variable [DecidableEq κ] {done : List ((α × β) × κ)} {n : α × β} {todo : List (α × β)} {rows rows' : Rows κ α β}
  {k : κ} {id : α}

/-- The pair that is seeded has its row. -/
theorem Progress.placed_new (h : Progress done (n :: todo) rows) (hs : Upserts n rows k id rows')
    (htodo : ∀ n' ∈ todo, n'.2 ≠ n.2) (hdone : ∀ p ∈ done, p.1.2 ≠ n.2) :
    id = n.1 ∨ (∀ q ∈ (n, k) :: done, id ≠ q.1.1) ∧ ∀ n' ∈ todo, id ≠ n'.1 ∧ (n'.1 = n.1 → Owned todo n' rows') := by
  by_cases hid : id = n.1
  · exact .inl hid
  · have hfound := hs.found.resolve_left hid
    have hown : Owns (n :: todo) n (id, some n.2) := h.unsplit.owns_of_matches hfound (.inr rfl)
    have hids := (hown.resolve_left hid).2
    refine .inr ⟨fun q hq he => ?_, fun n' hn' => ⟨hids n' (List.mem_cons_of_mem _ hn'), fun he => ?_⟩⟩
    · rcases List.mem_cons.mp hq with rfl | hq
      · exact hid he
      · -- a row with the id of a seeded pair is the row of that pair and has the alias of a seeded one
        have hkq : k = q.2 := by
          by_contra hne
          exact h.alone q hq k _ hne hfound (.inl he)
        obtain ⟨q', hq', hname⟩ := h.named q hq
        exact hdone q' hq' (Option.some.inj (hname _ (hkq ▸ hfound))).symm
    · refine hs.owned (htodo n' hn') ?_
      exact h.unsplit.shared n List.mem_cons_self n' (List.mem_cons_of_mem _ hn') he.symm ⟨k, _, hfound, hown⟩

/-- A pair that has been seeded keeps its row. -/
theorem Progress.placed_old (h : Progress done (n :: todo) rows) (hs : Upserts n rows k id rows')
    (htodo : ∀ n' ∈ todo, n'.2 ≠ n.2) (hdone : ∀ p ∈ done, p.1.2 ≠ n.2) {p : (α × β) × κ} (hp : p ∈ done) :
    ∃ row, rows' p.2 = some row ∧ (row.1 = p.1.1 ∨ row.2 = some p.1.2 ∧
      (∀ q ∈ (n, k) :: done, row.1 ≠ q.1.1) ∧ ∀ n' ∈ todo, row.1 ≠ n'.1 ∧ (n'.1 = p.1.1 → Owned todo n' rows')) := by
  obtain ⟨row, hrow, hplaced⟩ := h.placed p hp
  by_cases hpk : p.2 = k
  · refine ⟨(id, some n.2), hpk ▸ hs.self, .inl ?_⟩
    rw [hpk] at hrow
    rcases hs.origin with ⟨name, hold⟩ | ⟨hnone, -⟩
    · obtain rfl := Option.some.inj (hrow.symm.trans hold)
      rcases hplaced with hid | ⟨hname, -, hids⟩
      · exact hid
      · have hfound := hs.found.resolve_left (hids n List.mem_cons_self).1
        rw [hold, Option.some.injEq, Prod.mk.injEq] at hfound
        exact absurd (Option.some.inj (hname.symm.trans hfound.2)) (hdone p hp)
    · rw [hnone] at hrow
      cases hrow
  · refine ⟨row, (hs.other hpk).trans hrow, hplaced.imp_right fun ⟨hname, hids, hrest⟩ => ⟨hname, ?_, ?_⟩⟩
    · intro q hq
      rcases List.mem_cons.mp hq with rfl | hq
      · exact (hrest n List.mem_cons_self).1
      · exact hids q hq
    · intro n' hn'
      obtain ⟨hne, howned⟩ := hrest n' (List.mem_cons_of_mem _ hn')
      exact ⟨hne, fun he => hs.owned (htodo n' hn') (howned he)⟩

/-- The search for a pair that has been seeded does not find the row of the step. -/
theorem Progress.alone_new (h : Progress done (n :: todo) rows) (hs : Upserts n rows k id rows')
    (hdone : ∀ p ∈ done, p.1.2 ≠ n.2) {p : (α × β) × κ} (hp : p ∈ done) (hpk : k ≠ p.2) :
    ¬ Matches p.1 (id, some n.2) := by
  rintro (hid | hname)
  · rcases hs.origin with ⟨name, hold⟩ | ⟨hnone, hnew⟩
    · exact h.alone p hp k _ hpk hold (.inl hid)
    · obtain ⟨row, hrow, hrid | ⟨-, -, hrest⟩⟩ := h.placed p hp
      · exact hpk (hs.only p.2 row hrow (.inl (hrid.trans (hid.symm.trans hnew)))).symm
      · obtain ⟨j, r, hj, ho⟩ := (hrest n List.mem_cons_self).2 (hnew.symm.trans hid)
        obtain rfl := hs.only j r hj ho.matches
        rw [hnone] at hj
        cases hj
  · exact hdone p hp (Option.some.inj hname).symm

/-- **One more pair is seeded**. -/
theorem Progress.step (h : Progress done (n :: todo) rows) (hs : Upserts n rows k id rows')
    (htodo : ∀ n' ∈ todo, n'.2 ≠ n.2) (hdone : ∀ p ∈ done, p.1.2 ≠ n.2) : Progress ((n, k) :: done) todo rows' := by
  refine ⟨hs.unsplit h.unsplit htodo, ?_, ?_, ?_⟩
  · intro p hp
    by_cases hpk : p.2 = k
    · refine ⟨(n, k), List.mem_cons_self, fun row hrow => ?_⟩
      rw [hpk, hs.self, Option.some.injEq] at hrow
      rw [← hrow]
    · rcases List.mem_cons.mp hp with rfl | hp
      · exact absurd rfl hpk
      · obtain ⟨q, hq, hname⟩ := h.named p hp
        exact ⟨q, List.mem_cons_of_mem _ hq, fun row hrow => hname row ((hs.other hpk).symm.trans hrow)⟩
  · intro p hp
    rcases List.mem_cons.mp hp with rfl | hp
    · exact ⟨_, hs.self, (h.placed_new hs htodo hdone).imp_right fun hids => ⟨rfl, hids⟩⟩
    · exact h.placed_old hs htodo hdone hp
  · intro p hp j row hj hrow
    by_cases hjk : j = k
    · subst hjk
      rcases List.mem_cons.mp hp with rfl | hp
      · exact absurd rfl hj
      · rw [hs.self, Option.some.injEq] at hrow
        exact hrow ▸ h.alone_new hs hdone hp hj
    · rw [hs.other hjk] at hrow
      rcases List.mem_cons.mp hp with rfl | hp
      · exact fun hm => hjk (hs.only j row hrow hm)
      · exact h.alone p hp j row hj hrow

end Progress

/-! ## At the end of the list -/

section Settled

/-- Every pair has the row given with it, and searches for it find no other. -/
structure Settled (done : List ((α × β) × κ)) (rows : Rows κ α β) : Prop where
  placed : ∀ p ∈ done, ∃ row, rows p.2 = some row ∧ (row.1 = p.1.1 ∨ row.2 = some p.1.2 ∧ ∀ q ∈ done, row.1 ≠ q.1.1)
  alone : ∀ p ∈ done, ∀ j row, j ≠ p.2 → rows j = some row → ¬ Matches p.1 row

variable {done : List ((α × β) × κ)} {rows : Rows κ α β}

theorem Progress.settled (h : Progress done [] rows) : Settled done rows where
  placed := fun p hp =>
    have ⟨row, hrow, hplaced⟩ := h.placed p hp
    ⟨row, hrow, hplaced.imp_right fun ⟨hname, hids, _⟩ => ⟨hname, hids⟩⟩
  alone := h.alone

/-- The search for a seeded pair finds its row. -/
theorem Settled.found (h : Settled done rows) {p : (α × β) × κ} (hp : p ∈ done) :
    ∃ row, rows p.2 = some row ∧ Matches p.1 row := by
  obtain ⟨row, hrow, hplaced⟩ := h.placed p hp
  exact ⟨row, hrow, hplaced.imp_right And.left⟩

theorem Settled.only (h : Settled done rows) {p : (α × β) × κ} (hp : p ∈ done) {j : κ} {row : α × Option β}
    (hrow : rows j = some row) (hm : Matches p.1 row) : j = p.2 := by
  by_contra hj
  exact h.alone p hp j row hj hrow hm

/-- Seeding a pair once more settles nothing anew. -/
theorem Settled.update [DecidableEq κ] (h : Settled done rows) (hnd : (done.map fun p => p.1.2).Nodup)
    {p : (α × β) × κ} (hp : p ∈ done) {id : α} {name : Option β} (hold : rows p.2 = some (id, name)) :
    Settled done (Function.update rows p.2 (some (id, some p.1.2))) := by
  have hsame : ∀ q ∈ done, q.1.2 = p.1.2 → q = p := fun q hq he => List.inj_on_of_nodup_map hnd hq hp he
  refine ⟨fun q hq => ?_, fun q hq j row hj hrow => ?_⟩
  · obtain ⟨row, hrow, hplaced⟩ := h.placed q hq
    by_cases hqp : q.2 = p.2
    · refine ⟨(id, some p.1.2), by rw [hqp, Function.update_self], ?_⟩
      obtain rfl := Option.some.inj ((hqp ▸ hrow).symm.trans hold)
      refine hplaced.imp_right fun ⟨hname, hids⟩ => ⟨?_, hids⟩
      -- a row without the id of any pair is that of one pair only
      obtain ⟨row', hrow', hplaced'⟩ := h.placed p hp
      obtain rfl := Option.some.inj (hrow'.symm.trans hold)
      rcases hplaced' with hid | ⟨hname', -⟩
      · exact absurd hid (hids p hp)
      · exact hname'.symm.trans hname
    · exact ⟨row, by rw [Function.update_of_ne hqp, hrow], hplaced⟩
  · by_cases hjp : j = p.2
    · subst hjp
      rw [Function.update_self, Option.some.injEq] at hrow
      subst hrow
      rintro (hid | hname)
      · exact h.alone q hq p.2 _ hj hold (.inl hid)
      · exact hj (hsame q hq (Option.some.inj hname).symm ▸ rfl)
    · rw [Function.update_of_ne hjp] at hrow
      exact h.alone q hq j row hj hrow

/-- **Seeded pairs are unsplit**, in any order. -/
theorem Settled.unsplit (h : Settled done rows) {names : List (α × β)} (hnames : ∀ n ∈ names, ∃ k, (n, k) ∈ done) :
    Unsplit names rows := by
  have hkey : ∀ n ∈ names, ∀ j row, rows j = some row → Matches n row → ∀ k, (n, k) ∈ done → j = k :=
    fun n _ j row hrow hm k hk => h.only hk hrow hm
  refine ⟨?_, List.pairwise_of_forall_mem_list fun n hn n' hn' hne j row hrow hid hname => ?_, ?_⟩
  · intro n hn i j r s hi hj hr hs
    obtain ⟨k, hk⟩ := hnames n hn
    exact (hkey n hn i r hi hr.matches k hk).trans (hkey n hn j s hj hs.matches k hk).symm
  · obtain ⟨k, hk⟩ := hnames n hn
    obtain ⟨k', hk'⟩ := hnames n' hn'
    obtain rfl := hkey n hn j row hrow (.inr hname) k hk
    obtain ⟨row', hrow', hplaced⟩ := h.placed _ hk
    obtain rfl := Option.some.inj (hrow'.symm.trans hrow)
    rcases hplaced with hid' | ⟨-, hids⟩
    · exact hne (hid'.symm.trans hid)
    · exact hids _ hk' hid
  · intro n hn n' hn' _ _
    obtain ⟨k, hk⟩ := hnames n' hn'
    obtain ⟨row, hrow, hplaced⟩ := h.placed _ hk
    refine ⟨k, row, hrow, hplaced.imp_right fun ⟨hname, hids⟩ => ⟨hname, fun n'' hn'' => ?_⟩⟩
    obtain ⟨k'', hk''⟩ := hnames n'' hn''
    exact hids _ hk''

end Settled

end LlmStore.Lib.Upsert
