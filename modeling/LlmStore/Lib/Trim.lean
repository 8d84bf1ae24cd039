import Mathlib.Data.List.DropRight
import Mathlib.Data.List.Flatten

/-!
# Trimming piece by piece

A list is trimmed when the elements at its ends that a predicate holds for are dropped. Trimming the pieces of a list
and trimming the whole give the same exactly if no such element stands next to a seam between two pieces that has
something to keep on both sides (`trim_flatten_map_trim_iff`).
-/

namespace LlmStore.Lib

variable {α : Type*} (p : α → Bool)

/-- The list without the elements at its ends that `p` holds for. -/
def trim (s : List α) : List α := (s.dropWhile p).rdropWhile p

/-- Nothing of the list is kept. -/
def Blank (s : List α) : Prop := ∀ x ∈ s, p x = true

/-- Nothing is dropped from the list. -/
structure Trimmed (m : List α) : Prop where
  first : ∀ x ∈ m.head?, p x = false
  last : ∀ x ∈ m.getLast?, p x = false

/-- The elements on both sides of the seam are kept. -/
def CleanSeam (a b : List α) : Prop := (∀ x ∈ a.getLast?, p x = false) ∧ ∀ x ∈ b.head?, p x = false

/-- The seams between pieces are clean where something is kept on both sides. -/
def CleanSeams (cs : List (List α)) : Prop :=
  ∀ pre post, pre ++ post = cs → ¬ Blank p pre.flatten → ¬ Blank p post.flatten → CleanSeam p pre.flatten post.flatten

variable {p} {a b l m r s : List α}

/-! ## One list -/

theorem trimmed_nil : Trimmed p [] := ⟨by simp, by simp⟩

theorem Blank.append (ha : Blank p a) (hb : Blank p b) : Blank p (a ++ b) := fun x hx =>
  (List.mem_append.mp hx).elim (ha x) (hb x)

theorem blank_nil : Blank p [] := by simp [Blank]

theorem dropWhile_append_of_blank (hl : Blank p l) (s : List α) : (l ++ s).dropWhile p = s.dropWhile p := by
  rw [List.dropWhile_append, if_pos]
  rw [List.isEmpty_iff, List.dropWhile_eq_nil_iff]
  exact hl

theorem dropWhile_of_first (hm : ∀ x ∈ m.head?, p x = false) : m.dropWhile p = m := by
  cases m with
  | nil => rfl
  | cons x m => exact List.dropWhile_cons_of_neg (by simp [hm x rfl])

/-- What is trimmed is known from any way of writing the list with blank ends. -/
theorem trim_eq (hl : Blank p l) (hm : Trimmed p m) (hr : Blank p r) : trim p (l ++ m ++ r) = m := by
  have hreverse : Blank p r.reverse := fun x hx => hr x (List.mem_reverse.mp hx)
  have hlast : m.reverse.dropWhile p = m.reverse := dropWhile_of_first fun x hx => hm.last x (by simpa using hx)
  have hright : (m ++ r).rdropWhile p = m := by
    rw [List.rdropWhile, List.reverse_append, dropWhile_append_of_blank hreverse, hlast, List.reverse_reverse]
  rw [trim, List.append_assoc, dropWhile_append_of_blank hl]
  cases m with
  | nil =>
    have hnil : r.dropWhile p = [] := List.dropWhile_eq_nil_iff.mpr hr
    rw [List.nil_append, hnil, List.rdropWhile_nil]
  | cons x m =>
    have hfirst : ((x :: m) ++ r).dropWhile p = (x :: m) ++ r :=
      dropWhile_of_first fun y hy => hm.first y (by simpa using hy)
    rw [hfirst, hright]

theorem not_of_head_dropWhile {x : α} (hx : (s.dropWhile p).head? = some x) : p x = false := by
  have hne : s.dropWhile p ≠ [] := by
    intro hnil
    rw [hnil] at hx
    cases hx
  have hnot := List.head_dropWhile_not p hne
  rwa [List.head_eq_iff_head?_eq_some hne |>.mpr hx] at hnot

theorem trimmed_trim (s : List α) : Trimmed p (trim p s) where
  first x hx := by
    have hprefix : trim p s <+: s.dropWhile p := List.rdropWhile_prefix p _
    obtain ⟨t, ht⟩ := hprefix
    have hhead : (s.dropWhile p).head? = some x := by
      rw [← ht, List.head?_append, hx]
      rfl
    exact not_of_head_dropWhile hhead
  last x hx := by
    have hne : trim p s ≠ [] := by
      intro hnil
      rw [hnil] at hx
      cases hx
    have hnot := List.rdropWhile_last_not p (s.dropWhile p) hne
    rw [List.getLast?_eq_some_getLast hne, Option.mem_some] at hx
    obtain rfl := hx
    exact (Bool.not_eq_true _).mp hnot

/-- A list is what is kept of it between two blank ends. -/
theorem exists_trim (p : α → Bool) (s : List α) : ∃ l r, Blank p l ∧ Blank p r ∧ s = l ++ trim p s ++ r := by
  refine ⟨s.takeWhile p, (s.dropWhile p).rtakeWhile p, fun x hx => List.mem_takeWhile_imp hx,
    fun x hx => List.mem_rtakeWhile_imp hx, ?_⟩
  rw [List.append_assoc, trim, List.rdropWhile_append_rtakeWhile, List.takeWhile_append_dropWhile]

theorem trim_eq_nil_iff : trim p s = [] ↔ Blank p s := by
  constructor
  · intro h
    obtain ⟨l, r, hl, hr, hs⟩ := exists_trim p s
    rw [h, List.append_nil] at hs
    rw [hs]
    exact hl.append hr
  · intro h
    have hs := trim_eq h trimmed_nil (blank_nil (p := p))
    simpa using hs

theorem trim_trim (s : List α) : trim p (trim p s) = trim p s := by
  have h := trim_eq (blank_nil (p := p)) (trimmed_trim s) (blank_nil (p := p))
  simpa using h

/-- A part that is trimmed is kept as a whole. -/
theorem infix_trim_iff (hm : Trimmed p m) (hne : m ≠ []) : m <:+: trim p s ↔ m <:+: s := by
  constructor
  · intro h
    obtain ⟨l, r, -, -, hs⟩ := exists_trim p s
    rw [hs, List.append_assoc]
    exact h.trans ⟨l, r, by rw [List.append_assoc]⟩
  · rintro ⟨a, b, rfl⟩
    have hkept : Trimmed p (a.dropWhile p ++ m ++ b.rdropWhile p) := by
      constructor
      · intro x hx
        rw [List.append_assoc] at hx
        cases ha : (a.dropWhile p).head? with
        | none =>
          rw [List.head?_eq_none_iff.mp ha, List.nil_append, List.head?_append_of_ne_nil _ hne] at hx
          exact hm.first x hx
        | some y =>
          rw [List.head?_append, ha] at hx
          obtain rfl := Option.some.inj hx
          exact not_of_head_dropWhile ha
      · intro x hx
        cases hb : (b.rdropWhile p).getLast? with
        | none =>
          rw [List.getLast?_eq_none_iff.mp hb, List.append_nil, List.getLast?_append_of_ne_nil _ hne] at hx
          exact hm.last x hx
        | some y =>
          rw [List.getLast?_append, hb] at hx
          obtain rfl := Option.some.inj hx
          have hhead : (b.reverse.dropWhile p).head? = some y := by
            rw [← hb, List.rdropWhile, List.getLast?_reverse]
          exact not_of_head_dropWhile hhead
    have hs : a ++ m ++ b =
        a.takeWhile p ++ (a.dropWhile p ++ m ++ b.rdropWhile p) ++ b.rtakeWhile p := by
      simp only [List.append_assoc, List.rdropWhile_append_rtakeWhile]
      rw [← List.append_assoc (a.takeWhile p), List.takeWhile_append_dropWhile]
    rw [hs, trim_eq (fun x hx => List.mem_takeWhile_imp hx) hkept fun x hx => List.mem_rtakeWhile_imp hx]
    exact ⟨_, _, rfl⟩

/-! ## Two pieces -/

theorem trim_append_of_blank_left (ha : Blank p a) (b : List α) : trim p (a ++ b) = trim p b := by
  obtain ⟨l, r, hl, hr, hb⟩ := exists_trim p b
  have h := trim_eq (ha.append hl) (trimmed_trim b) hr
  rwa [List.append_assoc a, List.append_assoc a, ← hb] at h

theorem trim_append_of_blank_right (a : List α) (hb : Blank p b) : trim p (a ++ b) = trim p a := by
  obtain ⟨l, r, hl, hr, ha⟩ := exists_trim p a
  have h := trim_eq hl (trimmed_trim a) (hr.append hb)
  rwa [← List.append_assoc, ← ha] at h

theorem trimmed_append (ha : Trimmed p a) (hb : Trimmed p b) (hane : a ≠ []) (hbne : b ≠ []) (s : List α) :
    Trimmed p (a ++ s ++ b) where
  first x hx := by
    rw [List.append_assoc, List.head?_append_of_ne_nil _ hane] at hx
    exact ha.first x hx
  last x hx := by
    rw [List.getLast?_append_of_ne_nil _ hbne] at hx
    exact hb.last x hx

/-- What is kept of two pieces is kept of the whole, with what is dropped at the seam. -/
theorem trim_append (ha : ¬ Blank p a) (hb : ¬ Blank p b) :
    ∃ seam, trim p (a ++ b) = trim p a ++ seam ++ trim p b ∧ (seam = [] ↔ CleanSeam p a b) := by
  have hane : trim p a ≠ [] := fun h => ha (trim_eq_nil_iff.mp h)
  have hbne : trim p b ≠ [] := fun h => hb (trim_eq_nil_iff.mp h)
  obtain ⟨la, ra, hla, hra, hadecomp⟩ := exists_trim p a
  obtain ⟨lb, rb, hlb, hrb, hbdecomp⟩ := exists_trim p b
  refine ⟨ra ++ lb, ?_, ?_⟩
  · have h := trim_eq hla (trimmed_append (trimmed_trim a) (trimmed_trim b) hane hbne (ra ++ lb)) hrb
    rw [← h]
    congr 1
    conv_lhs => rw [hadecomp, hbdecomp]
    simp only [List.append_assoc]
  · rw [List.append_eq_nil_iff]
    have hright : ra = [] ↔ ∀ x ∈ a.getLast?, p x = false := by
      constructor
      · rintro rfl x hx
        rw [List.append_nil] at hadecomp
        rw [hadecomp, List.getLast?_append_of_ne_nil _ hane] at hx
        exact (trimmed_trim a).last x hx
      · intro h
        by_contra hne
        have hx := h (ra.getLast hne) (by
          rw [hadecomp, List.getLast?_append_of_ne_nil _ hne, List.getLast?_eq_some_getLast hne]
          rfl)
        rw [hra _ (List.getLast_mem hne)] at hx
        cases hx
    have hleft : lb = [] ↔ ∀ x ∈ b.head?, p x = false := by
      constructor
      · rintro rfl x hx
        rw [List.nil_append] at hbdecomp
        rw [hbdecomp, List.head?_append_of_ne_nil _ hbne] at hx
        exact (trimmed_trim b).first x hx
      · intro h
        by_contra hne
        have hx := h (lb.head hne) (by
          rw [hbdecomp, List.append_assoc, List.head?_append_of_ne_nil _ hne, List.head?_eq_some_head hne]
          rfl)
        rw [hlb _ (List.head_mem hne)] at hx
        cases hx
    rw [hright, hleft, CleanSeam]

theorem length_trim_append_le (a b : List α) : (trim p a).length + (trim p b).length ≤ (trim p (a ++ b)).length := by
  by_cases ha : Blank p a
  · rw [trim_append_of_blank_left ha, trim_eq_nil_iff.mpr ha]
    simp
  by_cases hb : Blank p b
  · rw [trim_append_of_blank_right a hb, trim_eq_nil_iff.mpr hb]
    simp
  obtain ⟨seam, h, -⟩ := trim_append ha hb
  rw [h]
  simp only [List.length_append]
  omega

/-! ## Many pieces -/

theorem flatten_map_trim {cs : List (List α)} (h : CleanSeams p cs) : (cs.map (trim p)).flatten = trim p cs.flatten := by
  induction cs with
  | nil => rfl
  | cons c cs ih =>
    have hrest : CleanSeams p cs := by
      rintro pre post rfl hpre hpost
      have hne : pre.flatten ≠ [] := fun hnil => hpre (hnil ▸ blank_nil)
      have hcons : ¬ Blank p (c :: pre).flatten := fun hb => hpre fun x hx => hb x (by
        rw [List.flatten_cons]
        exact List.mem_append_right _ hx)
      have hseam := h (c :: pre) post rfl hcons hpost
      refine ⟨fun x hx => hseam.1 x ?_, hseam.2⟩
      rw [List.flatten_cons, List.getLast?_append_of_ne_nil _ hne]
      exact hx
    rw [List.map_cons, List.flatten_cons, List.flatten_cons, ih hrest]
    by_cases hc : Blank p c
    · rw [trim_append_of_blank_left hc, trim_eq_nil_iff.mpr hc, List.nil_append]
    by_cases hcs : Blank p cs.flatten
    · rw [trim_append_of_blank_right c hcs, trim_eq_nil_iff.mpr hcs, List.append_nil]
    obtain ⟨seam, heq, hclean⟩ := trim_append hc hcs
    have hseam := h [c] cs rfl (by simpa using hc) hcs
    rw [List.flatten_cons, List.flatten_nil, List.append_nil] at hseam
    rw [heq, hclean.mpr hseam, List.append_nil]

theorem length_flatten_map_trim_le (cs : List (List α)) :
    (cs.map (trim p)).flatten.length ≤ (trim p cs.flatten).length := by
  induction cs with
  | nil => simp
  | cons c cs ih =>
    have happend := length_trim_append_le (p := p) c cs.flatten
    rw [List.map_cons, List.flatten_cons, List.flatten_cons, List.length_append]
    omega

theorem trimmed_flatten_map_trim (cs : List (List α)) : Trimmed p (cs.map (trim p)).flatten := by
  induction cs with
  | nil => exact trimmed_nil
  | cons c cs ih =>
    rw [List.map_cons, List.flatten_cons]
    by_cases hc : trim p c = []
    · rw [hc, List.nil_append]
      exact ih
    by_cases hcs : (cs.map (trim p)).flatten = []
    · rw [hcs, List.append_nil]
      exact trimmed_trim c
    have h := trimmed_append (trimmed_trim c) ih hc hcs []
    rwa [List.append_nil] at h

/-- **Trimming each piece drops nothing from inside the whole exactly if the seams are clean.** -/
theorem trim_flatten_map_trim_iff (cs : List (List α)) :
    trim p (cs.map (trim p)).flatten = trim p cs.flatten ↔ CleanSeams p cs := by
  have htrim : trim p (cs.map (trim p)).flatten = (cs.map (trim p)).flatten := by
    have h := trim_eq (blank_nil (p := p)) (trimmed_flatten_map_trim cs) (blank_nil (p := p))
    simpa using h
  rw [htrim]
  constructor
  · rintro h pre post rfl hpre hpost
    by_contra hdirty
    obtain ⟨seam, heq, hclean⟩ := trim_append hpre hpost
    have hseam : 0 < seam.length := List.length_pos_of_ne_nil fun hnil => hdirty (hclean.mp hnil)
    have hlength := congrArg List.length h
    have hle₁ := length_flatten_map_trim_le (p := p) pre
    have hle₂ := length_flatten_map_trim_le (p := p) post
    rw [List.flatten_append, heq, List.map_append, List.flatten_append] at hlength
    simp only [List.length_append] at hlength
    omega
  · exact flatten_map_trim

end LlmStore.Lib
