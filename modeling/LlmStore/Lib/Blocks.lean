import Mathlib.Data.List.Basic

/-!
# Delimited blocks in a text

A block is an opening delimiter, the shortest possible run of *hidden* elements and a closing delimiter. Blocks are
read from left to right and do not overlap, as a regular expression `open.*?close` finds them.

* `removeBlocks` removes them; `marked` says of each element whether it is outside, in a delimiter or hidden.
* `marked_append`: a text is read piece by piece wherever a cut is not inside a block.
* `marked_shown`: without its hidden elements a text has the same blocks, now empty.
-/

namespace LlmStore.Blocks

variable {α : Type*}

/-- Delimiters, an element at a time: `opens` recognises the first element of the opening one, and only that one. -/
structure Delimiters (α : Type*) where
  opens : α → Bool
  openRest : List (α → Bool)
  closes : α → Bool
  closeRest : List (α → Bool)
  unbordered : ∀ q ∈ openRest, ∀ x, opens x = true → q x = false

/-- What an element is: outside of blocks, the start of one, in a delimiter, or hidden. -/
inductive Mark
  | outside
  | start
  | tag
  | hidden
  deriving DecidableEq, Repr

/-- The list starts with elements that `qs` recognise. -/
def startsWith : List (α → Bool) → List α → Bool
  | [], _ => true
  | _ :: _, [] => false
  | q :: qs, x :: u => q x && startsWith qs u

theorem startsWith_append {qs : List (α → Bool)} : ∀ {u : List α} (r : List α), qs.length ≤ u.length →
    startsWith qs (u ++ r) = startsWith qs u := by
  induction qs with
  | nil => intro u r _; cases u <;> simp [startsWith]
  | cons q qs ih =>
    intro u r h
    cases u with
    | nil => simp at h
    | cons x u =>
      simp only [List.cons_append, startsWith]
      rw [ih r (by simpa using h)]

theorem length_le_of_startsWith {qs : List (α → Bool)} : ∀ {u : List α}, startsWith qs u = true →
    qs.length ≤ u.length := by
  induction qs with
  | nil => intro u _; simp
  | cons q qs ih =>
    intro u h
    cases u with
    | nil => simp [startsWith] at h
    | cons x u =>
      simp only [startsWith, Bool.and_eq_true] at h
      have := ih h.2
      simpa using this

theorem startsWith_mono {qs : List (α → Bool)} {u : List α} (r : List α) (h : startsWith qs u = true) :
    startsWith qs (u ++ r) = true := by
  rw [startsWith_append r (length_le_of_startsWith h)]
  exact h

/-- The list does not start inside a block. -/
def AtEdge (z : List (α × Mark)) : Prop := ∀ a ∈ z.head?, a.2 = .outside ∨ a.2 = .start

/-- The elements outside of blocks. -/
def outside (z : List (α × Mark)) : List α := (z.filter fun a => a.2 = .outside).map Prod.fst

/-- All but the hidden elements. -/
def shown (z : List (α × Mark)) : List α := (z.filter fun a => a.2 ≠ .hidden).map Prod.fst

/-- Marks inside a block. -/
def Inner (p : List Mark) : Prop := ∀ m ∈ p, m = .tag ∨ m = .hidden

namespace Delimiters

variable (D : Delimiters α)

/-- The opening delimiter. -/
def opening : List (α → Bool) := D.opens :: D.openRest

/-- The closing delimiter. -/
def closing : List (α → Bool) := D.closes :: D.closeRest

/-- The number of elements before the first closing delimiter. -/
def findClose : List α → Option ℕ
  | [] => none
  | x :: u => if startsWith D.closing (x :: u) then some 0 else (findClose u).map (· + 1)

/-- The number of hidden elements of the block that the list starts with. -/
def block (u : List α) : Option ℕ := if startsWith D.opening u then D.findClose (u.drop D.opening.length) else none

/-- The marks of a block after its start. -/
def rest (k : ℕ) : List Mark :=
  List.replicate D.openRest.length .tag ++ List.replicate k .hidden ++ List.replicate D.closing.length .tag

/-- Mark the elements of a list, the first of them by the marks still pending from a block. -/
def marked : List Mark → List α → List (α × Mark)
  | _, [] => []
  | m :: p, x :: u => (x, m) :: marked p u
  | [], x :: u =>
    match D.block (x :: u) with
    | some k => (x, .start) :: marked (D.rest k) u
    | none => (x, .outside) :: marked [] u

/-- Skip `n` elements, then remove the blocks. -/
def removeFrom : ℕ → List α → List α
  | _, [] => []
  | n + 1, _ :: u => removeFrom n u
  | 0, x :: u =>
    match D.block (x :: u) with
    | some k => removeFrom (D.rest k).length u
    | none => x :: removeFrom 0 u

/-- The list without its blocks. -/
def removeBlocks (u : List α) : List α := D.removeFrom 0 u

/-! ## Where blocks are -/

theorem findClose_append {u : List α} (r : List α) : ∀ {k : ℕ}, D.findClose u = some k →
    D.findClose (u ++ r) = some k ∧ k + D.closing.length ≤ u.length := by
  induction u with
  | nil => intro k h; simp [findClose] at h
  | cons x u ih =>
    intro k h
    simp only [findClose] at h
    split at h
    · rename_i hs
      cases h
      refine ⟨?_, by simpa using length_le_of_startsWith hs⟩
      have : startsWith D.closing (x :: (u ++ r)) = true := startsWith_mono r hs
      simp [findClose, this]
    · rename_i hs
      obtain ⟨j, hj, rfl⟩ := Option.map_eq_some_iff.mp h
      obtain ⟨ha, hl⟩ := ih hj
      have : startsWith D.closing (x :: (u ++ r)) = startsWith D.closing (x :: u) :=
        startsWith_append (u := x :: u) r (by simp only [List.length_cons]; omega)
      refine ⟨?_, by simp only [List.length_cons]; omega⟩
      simp [findClose, this, hs, ha]

theorem findClose_restrict {u r : List α} : ∀ {k : ℕ}, D.findClose (u ++ r) = some k →
    k + D.closing.length ≤ u.length → D.findClose u = some k := by
  induction u with
  | nil => intro k _ h; simp [closing] at h
  | cons x u ih =>
    intro k h hl
    simp only [List.cons_append, findClose] at h
    have hs : startsWith D.closing (x :: (u ++ r)) = startsWith D.closing (x :: u) :=
      startsWith_append (u := x :: u) r (by simp only [List.length_cons] at hl ⊢; omega)
    rw [hs] at h
    split at h
    · rename_i hs
      cases h
      simp [findClose, hs]
    · rename_i hs
      obtain ⟨j, hj, rfl⟩ := Option.map_eq_some_iff.mp h
      have := ih hj (by simp only [List.length_cons] at hl; omega)
      simp [findClose, hs, this]

/-- A closing delimiter stays one whatever stands before it. -/
theorem findClose_ne_none {w : List α} (h : D.findClose w ≠ none) (v : List α) : D.findClose (v ++ w) ≠ none := by
  induction v with
  | nil => exact h
  | cons x v ih =>
    simp only [List.cons_append, findClose]
    split
    · simp
    · simpa using ih

theorem block_eq_some {u : List α} {k : ℕ} : D.block u = some k ↔
    startsWith D.opening u = true ∧ D.findClose (u.drop D.opening.length) = some k := by
  unfold block
  split <;> simp_all

theorem block_length_le {u : List α} {k : ℕ} (h : D.block u = some k) : (D.rest k).length + 1 ≤ u.length := by
  obtain ⟨hs, hc⟩ := D.block_eq_some.mp h
  have ho := length_le_of_startsWith hs
  obtain ⟨-, hl⟩ := D.findClose_append [] hc
  simp only [List.length_drop] at hl
  simp only [rest, opening, List.length_cons, List.length_append, List.length_replicate] at *
  omega

theorem block_append {u : List α} {k : ℕ} (h : D.block u = some k) (r : List α) : D.block (u ++ r) = some k := by
  obtain ⟨hs, hc⟩ := D.block_eq_some.mp h
  refine D.block_eq_some.mpr ⟨startsWith_mono r hs, ?_⟩
  rw [List.drop_append_of_le_length (length_le_of_startsWith hs)]
  exact (D.findClose_append r hc).1

theorem block_restrict {u r : List α} {k : ℕ} (h : D.block (u ++ r) = some k)
    (hl : (D.rest k).length + 1 ≤ u.length) : D.block u = some k := by
  obtain ⟨hs, hc⟩ := D.block_eq_some.mp h
  have ho : D.opening.length ≤ u.length := by
    simp only [rest, opening, List.length_cons, List.length_append, List.length_replicate] at *
    omega
  rw [startsWith_append r ho] at hs
  rw [List.drop_append_of_le_length ho] at hc
  refine D.block_eq_some.mpr ⟨hs, D.findClose_restrict hc ?_⟩
  simp only [rest, opening, List.length_cons, List.length_append, List.length_replicate, List.length_drop] at *
  omega

theorem block_eq_none_of_append {u r : List α} (h : D.block (u ++ r) = none) : D.block u = none := by
  rcases hb : D.block u with _ | k
  · rfl
  · rw [D.block_append hb r] at h
    cases h

/-- No block starts at an element that opens none. -/
theorem block_eq_none {x : α} (h : D.opens x = false) (u : List α) : D.block (x :: u) = none := by
  simp [block, opening, startsWith, h]

theorem removeBlocks_of_block_eq_none {x : α} {u : List α} (h : D.block (x :: u) = none) :
    D.removeBlocks (x :: u) = x :: D.removeBlocks u := by
  simp only [removeBlocks, removeFrom, h]

/-- A text in which no block starts is left as it is. -/
theorem removeBlocks_eq_self {u : List α} (h : ∀ t, t <:+ u → D.block t = none) : D.removeBlocks u = u := by
  induction u with
  | nil => rfl
  | cons x u ih =>
    rw [D.removeBlocks_of_block_eq_none (h _ (List.suffix_refl _)), ih fun t ht => h t (ht.trans (List.suffix_cons x u))]

theorem findClose_eq_none {u : List α} (h : ∀ t, t <:+ u → startsWith D.closing t = false) : D.findClose u = none := by
  induction u with
  | nil => rfl
  | cons x u ih =>
    rw [findClose, h _ (List.suffix_refl _), ih fun t ht => h t (ht.trans (List.suffix_cons x u))]
    rfl

/-! ## Reading across a cut -/

@[simp] theorem marked_nil (p : List Mark) : D.marked p [] = [] := by cases p <;> rfl

@[simp] theorem marked_cons_cons (m : Mark) (p : List Mark) (x : α) (u : List α) :
    D.marked (m :: p) (x :: u) = (x, m) :: D.marked p u := rfl

theorem marked_some {x : α} {u : List α} {k : ℕ} (h : D.block (x :: u) = some k) :
    D.marked [] (x :: u) = (x, .start) :: D.marked (D.rest k) u := by
  simp only [marked, h]

theorem marked_none {x : α} {u : List α} (h : D.block (x :: u) = none) :
    D.marked [] (x :: u) = (x, .outside) :: D.marked [] u := by
  simp only [marked, h]

theorem map_fst_marked (u : List α) : ∀ p : List Mark, (D.marked p u).map Prod.fst = u := by
  induction u with
  | nil => intro p; simp
  | cons x u ih =>
    intro p
    cases p with
    | cons m p => simp [ih p]
    | nil =>
      rcases hb : D.block (x :: u) with _ | k
      · simp [D.marked_none hb, ih []]
      · simp [D.marked_some hb, ih (D.rest k)]

theorem length_marked (p : List Mark) (u : List α) : (D.marked p u).length = u.length := by
  rw [← List.length_map (f := Prod.fst), map_fst_marked]

theorem inner_rest (k : ℕ) : Inner (D.rest k) := by
  intro m hm
  simp only [rest, List.mem_append, List.mem_replicate] at hm
  rcases hm with (⟨-, rfl⟩ | ⟨-, rfl⟩) | ⟨-, rfl⟩ <;> simp

/-- A text that is read from its start does not start inside a block. -/
theorem atEdge_marked (u : List α) : AtEdge (D.marked [] u) := by
  intro a ha
  cases u with
  | nil => simp at ha
  | cons x u =>
    rcases hb : D.block (x :: u) with _ | k
    · rw [D.marked_none hb] at ha
      simp only [List.head?_cons, Option.mem_some_iff] at ha
      exact .inl (by rw [← ha])
    · rw [D.marked_some hb] at ha
      simp only [List.head?_cons, Option.mem_some_iff] at ha
      exact .inr (by rw [← ha])

/-- **Reading piece by piece**: a cut that is not inside a block does not matter. -/
theorem marked_append (c r : List α) : ∀ {p : List Mark}, Inner p → AtEdge ((D.marked p (c ++ r)).drop c.length) →
    D.marked p (c ++ r) = D.marked p c ++ D.marked [] r ∧ (r = [] ∨ p.length ≤ c.length) := by
  induction c with
  | nil =>
    intro p hp h
    cases p with
    | nil => simp
    | cons m p =>
      cases r with
      | nil => simp
      | cons y r =>
        have := h (y, m) (by simp)
        rcases hp m (by simp) with rfl | rfl <;> simp at this
  | cons x c ih =>
    intro p hp h
    cases p with
    | cons m p =>
      obtain ⟨e, hl⟩ := ih (p := p) (fun m hm => hp m (by simp [hm])) (by simpa using h)
      refine ⟨by simp [e], ?_⟩
      simpa using hl
    | nil =>
      rcases hb : D.block (x :: (c ++ r)) with _ | k
      · have hc : D.block (x :: c) = none := D.block_eq_none_of_append (u := x :: c) hb
        simp only [List.cons_append, D.marked_none hb, List.length_cons, List.drop_succ_cons] at h
        obtain ⟨e, -⟩ := ih (p := []) (by simp [Inner]) h
        refine ⟨?_, .inr (Nat.zero_le _)⟩
        rw [List.cons_append, D.marked_none hb, D.marked_none hc, e]
        rfl
      · simp only [List.cons_append, D.marked_some hb, List.length_cons, List.drop_succ_cons] at h
        obtain ⟨e, hl⟩ := ih (p := D.rest k) (D.inner_rest k) h
        have hc : D.block (x :: c) = some k := by
          rcases hl with rfl | hl
          · simpa using hb
          · exact D.block_restrict (u := x :: c) hb (by simpa using hl)
        refine ⟨?_, .inr (Nat.zero_le _)⟩
        rw [List.cons_append, D.marked_some hb, D.marked_some hc, e]
        rfl

/-- A cut inside a block: where the block starts. -/
theorem exists_block (c r : List α) : ∀ {p : List Mark}, ¬AtEdge ((D.marked p (c ++ r)).drop c.length) →
    c.length < p.length ∨ ∃ e d k, c = e ++ d ∧ d ≠ [] ∧ D.block (d ++ r) = some k ∧ d.length ≤ (D.rest k).length ∧
      (D.marked p (c ++ r)).drop e.length = D.marked [] (d ++ r) := by
  induction c with
  | nil =>
    intro p h
    cases p with
    | nil => exact absurd (D.atEdge_marked r) (by simpa using h)
    | cons m p => exact .inl (by simp)
  | cons x c ih =>
    intro p h
    cases p with
    | cons m p =>
      rcases ih (p := p) (by simpa using h) with hl | ⟨e, d, k, rfl, hd, hb, hl, hm⟩
      · exact .inl (by simpa using hl)
      · exact .inr ⟨x :: e, d, k, rfl, hd, hb, hl, by simpa using hm⟩
    | nil =>
      rcases hb : D.block (x :: (c ++ r)) with _ | k
      · simp only [List.cons_append, D.marked_none hb, List.length_cons, List.drop_succ_cons] at h ⊢
        rcases ih (p := []) h with hl | ⟨e, d, k, rfl, hd, hb, hl, hm⟩
        · simp at hl
        · exact .inr ⟨x :: e, d, k, rfl, hd, hb, hl, hm⟩
      · simp only [List.cons_append, D.marked_some hb, List.length_cons, List.drop_succ_cons] at h
        rcases ih (p := D.rest k) h with hl | ⟨e, d, j, rfl, hd, hj, hl, hm⟩
        · exact .inr ⟨[], x :: c, k, rfl, by simp, hb, hl, rfl⟩
        · refine .inr ⟨x :: e, d, j, rfl, hd, hj, hl, ?_⟩
          show (D.marked [] (x :: (e ++ d ++ r))).drop (e.length + 1) = _
          rw [D.marked_some hb]
          exact hm

/-- `removeBlocks` keeps what is outside. -/
theorem removeFrom_eq_outside (u : List α) : ∀ {p : List Mark}, Inner p →
    D.removeFrom p.length u = outside (D.marked p u) := by
  induction u with
  | nil => intro p _; simp [removeFrom, outside]
  | cons x u ih =>
    intro p hp
    cases p with
    | cons m p =>
      have hm : m ≠ .outside := by rcases hp m (by simp) with rfl | rfl <;> simp
      simp only [List.length_cons, removeFrom]
      rw [ih (p := p) fun m hm => hp m (by simp [hm])]
      simp [outside, hm]
    | nil =>
      rcases hb : D.block (x :: u) with _ | k
      · simp only [List.length_nil, removeFrom, hb, D.marked_none hb]
        rw [show D.removeFrom 0 u = _ from ih (p := []) (by simp [Inner])]
        simp [outside]
      · simp only [List.length_nil, removeFrom, hb, D.marked_some hb]
        rw [ih (D.inner_rest k)]
        simp [outside]

theorem removeBlocks_eq (u : List α) : D.removeBlocks u = outside (D.marked [] u) :=
  D.removeFrom_eq_outside u (p := []) (by simp [Inner])

/-! ## Without the hidden elements -/

/-- Nothing is hidden in a text without a closing delimiter. -/
theorem shown_eq_self {w : List α} (h : D.findClose w = none) : shown (D.marked [] w) = w := by
  induction w with
  | nil => simp [shown]
  | cons x w ih =>
    have hw : D.findClose w = none := by
      by_contra hw
      exact D.findClose_ne_none hw [x] h
    have hb : D.block (x :: w) = none := by
      rcases hb : D.block (x :: w) with _ | k
      · rfl
      · obtain ⟨-, hc⟩ := D.block_eq_some.mp hb
        refine absurd h ?_
        rw [← List.take_append_drop D.opening.length (x :: w)]
        exact D.findClose_ne_none (by rw [hc]; simp) _
    rw [D.marked_none hb]
    simpa [shown] using ih hw

/-- What starts no block is recognised in the shown elements as in the text. -/
theorem startsWith_shown {qs : List (α → Bool)} (hq : ∀ q ∈ qs, ∀ x, D.opens x = true → q x = false) :
    ∀ t : List α, startsWith qs (shown (D.marked [] t)) = startsWith qs t ∧
      (startsWith qs t = true → (shown (D.marked [] t)).drop qs.length = shown (D.marked [] (t.drop qs.length))) := by
  induction qs with
  | nil => intro t; cases t <;> simp [startsWith]
  | cons q qs ih =>
    intro t
    cases t with
    | nil => simp [shown, startsWith]
    | cons y t =>
      obtain ⟨hs, hd⟩ := ih (fun q hq' => hq q (by simp [hq'])) t
      rcases hb : D.block (y :: t) with _ | k
      · have hy : shown (D.marked [] (y :: t)) = y :: shown (D.marked [] t) := by simp [D.marked_none hb, shown]
        rw [hy]
        refine ⟨by simp [startsWith, hs], ?_⟩
        intro h
        simp only [startsWith, Bool.and_eq_true] at h
        simpa using hd h.2
      · have hy : shown (D.marked [] (y :: t)) = y :: shown (D.marked (D.rest k) t) := by
          simp [D.marked_some hb, shown]
        have ho : D.opens y = true := by
          obtain ⟨ho, -⟩ := D.block_eq_some.mp hb
          simp only [opening, startsWith, Bool.and_eq_true] at ho
          exact ho.1
        have := hq q (by simp) y ho
        rw [hy]
        simp [startsWith, this]

theorem block_shown_of_none {x : α} {t : List α} (h : D.block (x :: t) = none) :
    D.block (x :: shown (D.marked [] t)) = none := by
  rcases hb : D.block (x :: shown (D.marked [] t)) with _ | k
  · rfl
  · obtain ⟨hs, hc⟩ := D.block_eq_some.mp hb
    obtain ⟨hr, hd⟩ := D.startsWith_shown D.unbordered t
    simp only [opening, startsWith, Bool.and_eq_true, hr] at hs
    simp only [opening, List.length_cons, List.drop_succ_cons, hd hs.2] at hc
    have hn : D.findClose (t.drop D.openRest.length) = none := by
      simpa [block, opening, startsWith, hs.1, hs.2] using h
    rw [D.shown_eq_self hn, hn] at hc
    cases hc

theorem shown_replicate_tag (n : ℕ) (p : List Mark) : ∀ t : List α,
    shown (D.marked (List.replicate n .tag ++ p) t) = t.take n ++ shown (D.marked p (t.drop n)) := by
  induction n with
  | zero => intro t; simp
  | succ n ih =>
    intro t
    cases t with
    | nil => simp [shown]
    | cons x t => simpa [List.replicate_succ, shown] using ih t

theorem shown_replicate_hidden (k : ℕ) (p : List Mark) : ∀ t : List α,
    shown (D.marked (List.replicate k .hidden ++ p) t) = shown (D.marked p (t.drop k)) := by
  induction k with
  | zero => intro t; simp
  | succ k ih =>
    intro t
    cases t with
    | nil => simp [shown]
    | cons x t => simpa [List.replicate_succ, shown] using ih t

theorem startsWith_of_findClose {w : List α} : ∀ {k : ℕ}, D.findClose w = some k →
    startsWith D.closing (w.drop k) = true := by
  induction w with
  | nil => intro k h; simp [findClose] at h
  | cons x w ih =>
    intro k h
    simp only [findClose] at h
    split at h
    · rename_i hs
      cases h
      exact hs
    · obtain ⟨j, hj, rfl⟩ := Option.map_eq_some_iff.mp h
      exact ih hj

theorem startsWith_take {qs : List (α → Bool)} {u : List α} (h : startsWith qs u = true) (r : List α) :
    startsWith qs (u.take qs.length ++ r) = true := by
  have hl : qs.length ≤ (u.take qs.length).length := by
    have := length_le_of_startsWith h
    rw [List.length_take]
    omega
  rw [startsWith_append r hl, ← startsWith_append (u.drop qs.length) hl, List.take_append_drop]
  exact h

theorem block_shown_of_some {x : α} {t : List α} {k : ℕ} (h : D.block (x :: t) = some k) :
    D.block (x :: shown (D.marked (D.rest k) t)) = some 0 := by
  obtain ⟨hs, hc⟩ := D.block_eq_some.mp h
  simp only [opening, startsWith, Bool.and_eq_true, List.length_cons, List.drop_succ_cons] at hs hc
  have hn : (t.take D.openRest.length).length = D.openRest.length := by
    have := length_le_of_startsWith hs.2
    rw [List.length_take]
    omega
  rw [rest, List.append_assoc, shown_replicate_tag, shown_replicate_hidden,
    ← List.append_nil (List.replicate D.closing.length Mark.tag), shown_replicate_tag]
  refine D.block_eq_some.mpr ⟨?_, ?_⟩
  · simp only [opening, startsWith, hs.1, Bool.true_and]
    exact startsWith_take hs.2 _
  · simp only [opening, List.length_cons, List.drop_succ_cons]
    rw [List.drop_append_of_le_length (Nat.le_of_eq hn.symm), List.drop_of_length_le (Nat.le_of_eq hn), List.nil_append]
    have hw := startsWith_take (D.startsWith_of_findClose hc)
      (shown (D.marked [] (((t.drop D.openRest.length).drop k).drop D.closing.length)))
    revert hw
    generalize List.take _ _ ++ _ = w
    intro hw
    cases w with
    | nil => simp [closing, startsWith] at hw
    | cons y w => simp [findClose, hw]

theorem filter_rest (k : ℕ) : (D.rest k).filter (· ≠ .hidden) = D.rest 0 := by
  simp [rest]

/-- **The shown elements have the blocks of the text**, without the hidden elements. -/
theorem marked_shown (u : List α) : ∀ {p : List Mark}, Inner p →
    D.marked (p.filter (· ≠ .hidden)) (shown (D.marked p u)) = (D.marked p u).filter fun a => a.2 ≠ .hidden := by
  induction u with
  | nil => intro p _; simp [shown]
  | cons x u ih =>
    intro p hp
    cases p with
    | cons m p =>
      have hi := ih (p := p) fun m hm => hp m (by simp [hm])
      rcases hp m (by simp) with rfl | rfl
      · simpa [shown] using hi
      · simpa [shown] using hi
    | nil =>
      rcases hb : D.block (x :: u) with _ | k
      · have hi := ih (p := []) (by simp [Inner])
        have hy : shown (D.marked [] (x :: u)) = x :: shown (D.marked [] u) := by simp [D.marked_none hb, shown]
        rw [hy, List.filter_nil, D.marked_none (D.block_shown_of_none hb), D.marked_none hb]
        simpa using hi
      · have hi := ih (D.inner_rest k)
        have hy : shown (D.marked [] (x :: u)) = x :: shown (D.marked (D.rest k) u) := by
          simp [D.marked_some hb, shown]
        rw [filter_rest] at hi
        rw [hy, List.filter_nil, D.marked_some (D.block_shown_of_some hb), D.marked_some hb, hi]
        simp

end Delimiters

end LlmStore.Blocks
