import Mathlib.Data.List.Basic
import Mathlib.Data.List.Infix

/-!
# Deleting a word from a text

The occurrences of a word are deleted from left to right (`Deletes`). For a word whose first element does not occur in it
again, what a deletion brings together is a text woven around the word (`Woven`): every part of the result comes from one
(`Deletes.exists_woven`), and a woven part of the text comes out as what was woven, unless the word starts at one of its
elements (`exists_deletes_of_woven`).
-/

namespace LlmStore.Lib

variable {α : Type*}

/-- The second text is the first one without the occurrences of the word, as they are found from left to right. -/
inductive Deletes (word : List α) : List α → List α → Prop
  | nil : Deletes word [] []
  | word {s r : List α} : Deletes word s r → Deletes word (word ++ s) r
  | keep {x : α} {s r : List α} : ¬ word <+: x :: s → Deletes word s r → Deletes word (x :: s) (x :: r)

/-- The word, any number of times. -/
inductive Words (word : List α) : List α → Prop
  | nil : Words word []
  | cons {p : List α} : Words word p → Words word (word ++ p)

/-- `Woven word w v`: `v` is `w` with words between its elements. -/
inductive Woven (word : List α) : List α → List α → Prop
  | single (x : α) : Woven word [x] [x]
  | cons (x : α) {p w v : List α} : Words word p → Woven word w v → Woven word (x :: w) (x :: (p ++ v))

variable {word : List α} {s r p q w v : List α}

/-! ## Woven texts -/

theorem Woven.ne_nil (h : Woven word w v) : w ≠ [] := by
  cases h <;> simp

theorem Woven.length_le (h : Woven word w v) : w.length ≤ v.length := by
  induction h with
  | single x => exact le_rfl
  | cons x _ _ ih =>
    simp only [List.length_cons, List.length_append]
    omega

theorem Woven.head?_eq (h : Woven word w v) : v.head? = w.head? := by
  cases h <;> rfl

theorem Woven.refl (h : w ≠ []) : Woven word w w := by
  induction w with
  | nil => exact absurd rfl h
  | cons x w ih =>
    cases w with
    | nil => exact .single x
    | cons y w => exact .cons x .nil (ih (List.cons_ne_nil y w))

/-! ## What a deletion brings together -/

theorem Deletes.exists_woven_start (h : Deletes word s r) (hw : w ≠ []) (hwr : w <+: r) :
    ∃ p v q, s = p ++ (v ++ q) ∧ Words word p ∧ Woven word w v ∧ ¬ word <+: v ++ q := by
  induction h generalizing w with
  | nil => exact absurd (List.prefix_nil.mp hwr) hw
  | word _ ih =>
    obtain ⟨p, v, q, rfl, hp, hv, hq⟩ := ih hw hwr
    exact ⟨word ++ p, v, q, by rw [List.append_assoc], hp.cons, hv, hq⟩
  | @keep x s r hx _ ih =>
    obtain ⟨y, w, rfl⟩ := List.exists_cons_of_ne_nil hw
    obtain ⟨rfl, hrest⟩ := List.cons_prefix_cons.mp hwr
    by_cases hw' : w = []
    · subst hw'
      exact ⟨[], [y], s, rfl, .nil, .single y, hx⟩
    · obtain ⟨p, v, q, rfl, hp, hv, -⟩ := ih hw' hrest
      refine ⟨[], y :: (p ++ v), q, by simp, .nil, .cons y hp hv, ?_⟩
      simpa using hx

/-- A part of the result comes from a part of the text that is woven around the word. -/
theorem Deletes.exists_woven (h : Deletes word s r) (hw : w ≠ []) (hwr : w <:+: r) :
    ∃ p v q, s = p ++ (v ++ q) ∧ Woven word w v ∧ ¬ word <+: v ++ q := by
  induction h with
  | nil => exact absurd (List.infix_nil.mp hwr) hw
  | word _ ih =>
    obtain ⟨p, v, q, rfl, hv, hq⟩ := ih hwr
    exact ⟨word ++ p, v, q, by rw [List.append_assoc], hv, hq⟩
  | @keep x s r hx h ih =>
    rcases List.infix_cons_iff.mp hwr with hstart | hinfix
    · obtain ⟨p, v, q, hs, -, hv, hq⟩ := (Deletes.keep hx h).exists_woven_start hw hstart
      exact ⟨p, v, q, hs, hv, hq⟩
    · obtain ⟨p, v, q, rfl, hv, hq⟩ := ih hinfix
      exact ⟨x :: p, v, q, rfl, hv, hq⟩

/-! ## Words whose first element does not occur again -/

section Unbordered

variable {c : α} {rest : List α}

theorem exists_deletes (word : List α) (hword : word ≠ []) : ∀ s, ∃ r, Deletes word s r := by
  intro s
  induction hn : s.length using Nat.strong_induction_on generalizing s with
  | _ n ih =>
    by_cases hstart : word <+: s
    · obtain ⟨t, rfl⟩ := hstart
      have hlt : t.length < n := by
        have hpos := List.length_pos_iff.mpr hword
        rw [← hn, List.length_append]
        omega
      obtain ⟨r, hr⟩ := ih t.length hlt t rfl
      exact ⟨r, hr.word⟩
    · cases s with
      | nil => exact ⟨[], .nil⟩
      | cons x s =>
        obtain ⟨r, hr⟩ := ih s.length (by rw [← hn]; simp) s rfl
        exact ⟨x :: r, hr.keep hstart⟩

/-- An occurrence of the word that starts before the element `c` ends before it. -/
theorem prefix_of_prefix_append (hc : c ∉ rest) {x : α} (h : c :: rest <+: x :: (p ++ c :: s)) :
    c :: rest <+: x :: p := by
  have hp : x :: p <+: x :: (p ++ c :: s) := List.cons_prefix_cons.mpr ⟨rfl, List.prefix_append p _⟩
  rcases List.prefix_or_prefix_of_prefix h hp with hshort | hlong
  · exact hshort
  · obtain ⟨rfl, t, rfl⟩ := List.cons_prefix_cons.mp hlong
    obtain ⟨-, hrest⟩ := List.cons_prefix_cons.mp h
    have ht : t <+: x :: s := (List.prefix_append_right_inj p).mp hrest
    cases t with
    | nil => simp
    | cons y t =>
      obtain ⟨rfl, -⟩ := List.cons_prefix_cons.mp ht
      exact absurd (by simp) hc

/-- No occurrence of the word reaches over the element `c`, so a deletion goes on anew there. -/
theorem Deletes.append (hc : c ∉ rest) {p' r : List α} (hp : Deletes (c :: rest) p p')
    (hs : Deletes (c :: rest) (c :: s) r) : Deletes (c :: rest) (p ++ c :: s) (p' ++ r) := by
  induction hp with
  | nil => exact hs
  | word _ ih =>
    rw [List.append_assoc]
    exact ih.word
  | keep hx _ ih => exact .keep (fun hstart => hx (prefix_of_prefix_append hc hstart)) ih

theorem Deletes.words (hp : Words word p) (hs : Deletes word s r) : Deletes word (p ++ s) r := by
  induction hp with
  | nil => exact hs
  | cons _ ih =>
    rw [List.append_assoc]
    exact ih.word

/-- A start of a woven text, if it does not have `c` after its first element, is one of the text that is woven. -/
theorem Woven.prefix_cases (h : Woven (c :: rest) w v) : ∀ {u : List α}, c ∉ u.tail → u <+: v ++ q →
    (u <+: w ∧ u ≠ w) ∨ (v = w ∧ w <+: u) := by
  induction h with
  | single x =>
    intro u _ hu
    cases u with
    | nil => simp
    | cons y u =>
      obtain ⟨rfl, -⟩ := List.cons_prefix_cons.mp hu
      exact .inr ⟨rfl, by simp⟩
  | @cons x p w v hp hwoven ih =>
    intro u hcu hu
    cases u with
    | nil => simp
    | cons y u =>
      obtain ⟨rfl, hrest⟩ := List.cons_prefix_cons.mp hu
      cases hp with
      | nil =>
        have hcu' : c ∉ u.tail := fun hmem => hcu (List.mem_of_mem_tail hmem)
        rcases ih hcu' (by simpa using hrest) with ⟨hstart, hne⟩ | ⟨rfl, hstart⟩
        · exact .inl ⟨List.cons_prefix_cons.mpr ⟨rfl, hstart⟩, by simpa using hne⟩
        · exact .inr ⟨rfl, List.cons_prefix_cons.mpr ⟨rfl, hstart⟩⟩
      | cons _ =>
        cases u with
        | nil => exact .inl ⟨by simp, by simpa [eq_comm] using hwoven.ne_nil⟩
        | cons z u =>
          obtain ⟨rfl, -⟩ := List.cons_prefix_cons.mp hrest
          exact absurd (by simp) hcu

/-- Neither list is the start of the other. -/
def Apart (t u : List α) : Prop := ¬ t <+: u ∧ ¬ u <+: t

/-- The elements of a woven text are kept if the word starts at none of them. -/
theorem Woven.deletes (hc : c ∉ rest) (h : Woven (c :: rest) w v) {q' : List α} (hq : Deletes (c :: rest) q q')
    (hfirst : ¬ c :: rest <+: v ++ q) (htail : ∀ t, t <:+ w.tail → t ≠ [] → Apart t (c :: rest)) :
    Deletes (c :: rest) (v ++ q) (w ++ q') := by
  induction h with
  | single x => exact hq.keep hfirst
  | @cons x p w v hp hwoven ih =>
    have hnext : ¬ c :: rest <+: v ++ q := by
      intro hstart
      have hapart := htail w (List.suffix_refl w) hwoven.ne_nil
      have htails : c ∉ (c :: rest).tail := hc
      rcases hwoven.prefix_cases htails hstart with ⟨hw, -⟩ | ⟨-, hw⟩
      · exact hapart.2 hw
      · exact hapart.1 hw
    have hrest := ih hnext fun t ht => htail t (ht.trans (List.tail_suffix w))
    rw [List.cons_append, List.append_assoc] at hfirst ⊢
    exact (Deletes.words hp hrest).keep hfirst

/-- A woven part of a text comes out of it as what was woven. -/
theorem exists_deletes_of_woven (hc : c ∉ rest) (p q : List α) (hwoven : Woven (c :: rest) w v) (hw : w.head? = some c)
    (hfirst : ¬ c :: rest <+: v ++ q) (htail : ∀ t, t <:+ w.tail → t ≠ [] → Apart t (c :: rest)) :
    ∃ r, Deletes (c :: rest) (p ++ (v ++ q)) r ∧ w <:+: r := by
  obtain ⟨p', hp⟩ := exists_deletes (c :: rest) (List.cons_ne_nil c rest) p
  obtain ⟨q', hq⟩ := exists_deletes (c :: rest) (List.cons_ne_nil c rest) q
  have hdeletes := hwoven.deletes hc hq hfirst htail
  obtain ⟨v, rfl⟩ : ∃ v', v = c :: v' := by
    rw [← hwoven.head?_eq] at hw
    exact List.head?_eq_some_iff.mp hw
  exact ⟨p' ++ (w ++ q'), hp.append hc hdeletes, p', q', by rw [List.append_assoc]⟩

end Unbordered

end LlmStore.Lib
