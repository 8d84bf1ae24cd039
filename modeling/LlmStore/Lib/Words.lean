import LlmStore.Lib.Trim
import Mathlib.Data.List.Chain
import Mathlib.Algebra.BigOperators.Group.List.Basic
import Mathlib.Algebra.Ring.Nat

/-!
# Words

A list is read as words: the runs of elements between those that a predicate holds for, the gaps. A prefix of a list has
the first words of the list, but may have a part of one as its last (`words_append_of_not_between`). The words put
together with one element between two of them are as long as the list only if the list is tight (`tight_of_length`), so
that the place at which the first words would end if they were put together so is the place at which they do end only
where the list is tight up to there (`words_take_joined_iff`).
-/

namespace LlmStore.Lib

variable {α : Type*} (p : α → Bool)

/-- The words of a list. -/
def words (s : List α) : List (List α) := (s.splitOnP p).filter fun word => !word.isEmpty

/-- A word: not empty, and without a gap. -/
def IsWord (w : List α) : Prop := w ≠ [] ∧ ∀ x ∈ w, p x = false

/-- The end of the first list is not in the middle of a word of the two lists together. -/
def BetweenWords (a b : List α) : Prop := ¬ ∃ x ∈ a.getLast?, ∃ y ∈ b.head?, p x = false ∧ p y = false

/-- No gap at the beginning and no two in a row. -/
structure Tight (s : List α) : Prop where
  first : ∀ x ∈ s.head?, p x = false
  gaps : s.IsChain fun x y => ¬ (p x = true ∧ p y = true)

variable {p} {a b s w : List α} {x : α}

/-! ## The words of a list -/

theorem words_nil : words p [] = [] := rfl

theorem words_append_cons (hx : p x = true) (a b : List α) : words p (a ++ x :: b) = words p a ++ words p b := by
  simp only [words]
  rw [List.splitOnP_append_cons a b hx, List.filter_append]

theorem words_cons (hx : p x = true) (s : List α) : words p (x :: s) = words p s :=
  words_append_cons hx [] s

theorem words_word (hw : IsWord p w) : words p w = [w] := by
  rw [words, List.splitOnP_eq_singleton hw.2]
  exact List.filter_eq_self.mpr (by simp [hw.1])

theorem words_word_cons (hw : IsWord p w) (hx : p x = true) (s : List α) : words p (w ++ x :: s) = w :: words p s := by
  rw [words_append_cons hx, words_word hw, List.singleton_append]

/-- A list begins with a gap, or is a word, or begins with a word and a gap. -/
theorem words_induction {motive : List α → Prop} (nil : motive [])
    (gap : ∀ x s, p x = true → motive s → motive (x :: s))
    (last : ∀ w, IsWord p w → motive w)
    (word : ∀ w x s, IsWord p w → p x = true → motive s → motive (w ++ x :: s)) (s : List α) : motive s := by
  induction hn : s.length using Nat.strong_induction_on generalizing s with
  | _ n ih =>
    cases s with
    | nil => exact nil
    | cons x s =>
      rcases hx : p x with _ | _
      · have hword : IsWord p ((x :: s).takeWhile (! p ·)) := by
          refine ⟨?_, fun y hy => by simpa using List.mem_takeWhile_imp hy⟩
          rw [List.takeWhile_cons_of_pos (by simp [hx])]
          exact List.cons_ne_nil _ _
        have hsplit := List.takeWhile_append_dropWhile (p := (! p ·)) (l := x :: s)
        cases hrest : (x :: s).dropWhile (! p ·) with
        | nil =>
          rw [hrest, List.append_nil] at hsplit
          rw [← hsplit]
          exact last _ hword
        | cons y t =>
          have hy : p y = true := by
            have h := not_of_head_dropWhile (p := (! p ·)) (s := x :: s) (x := y) (by rw [hrest]; rfl)
            simpa using h
          have hlength : t.length < n := by
            have h := congrArg List.length hsplit
            rw [hrest, List.length_append, List.length_cons] at h
            omega
          rw [hrest] at hsplit
          rw [← hsplit]
          exact word _ y t hword hy (ih _ hlength t rfl)
      · exact gap x s hx (ih s.length (by rw [← hn, List.length_cons]; omega) s rfl)

theorem isWord_of_mem_words (h : w ∈ words p s) : IsWord p w := by
  induction s using words_induction (p := p) with
  | nil => cases h
  | gap x s hx ih =>
    rw [words_cons hx] at h
    exact ih h
  | last v hv =>
    rw [words_word hv, List.mem_singleton] at h
    exact h ▸ hv
  | word v x s hv hx ih =>
    rw [words_word_cons hv hx, List.mem_cons] at h
    rcases h with rfl | h
    · exact hv
    · exact ih h

theorem words_of_blank (h : Blank p s) : words p s = [] := by
  induction s with
  | nil => rfl
  | cons x s ih =>
    rw [words_cons (h x (by simp))]
    exact ih fun y hy => h y (by simp [hy])

theorem words_blank_append (ha : Blank p a) (b : List α) : words p (a ++ b) = words p b := by
  induction a with
  | nil => rfl
  | cons x a ih =>
    rw [List.cons_append, words_cons (ha x (by simp))]
    exact ih fun y hy => ha y (by simp [hy])

theorem words_append_blank (a : List α) (hb : Blank p b) : words p (a ++ b) = words p a := by
  cases b with
  | nil => rw [List.append_nil]
  | cons x b =>
    have hblank : Blank p b := fun y hy => hb y (by simp [hy])
    rw [words_append_cons (hb x (by simp)), words_of_blank hblank, List.append_nil]

theorem words_trim (s : List α) : words p (trim p s) = words p s := by
  obtain ⟨l, r, hl, hr, hs⟩ := exists_trim p s
  conv_rhs => rw [hs, List.append_assoc, words_blank_append hl, words_append_blank _ hr]

/-! ## Two lists -/

theorem betweenWords_of_last (h : ∀ x ∈ a.getLast?, p x = true) (b : List α) : BetweenWords p a b := by
  rintro ⟨x, hx, -, -, hnot, -⟩
  rw [h x hx] at hnot
  cases hnot

theorem betweenWords_of_head (a : List α) (h : ∀ x ∈ b.head?, p x = true) : BetweenWords p a b := by
  rintro ⟨-, -, x, hx, -, hnot⟩
  rw [h x hx] at hnot
  cases hnot

/-- Before the beginning of a word, only a gap or the beginning of the list is between words. -/
theorem betweenWords_cons_iff (hx : p x = false) : BetweenWords p a (x :: b) ↔ ∀ y ∈ a.getLast?, p y = true := by
  constructor
  · intro h y hy
    by_contra hnot
    exact h ⟨y, hy, x, rfl, by simpa using hnot, hx⟩
  · exact fun h => betweenWords_of_last h _

/-- Between words, the words of a list are those of its two parts. -/
theorem words_append_of_between (h : BetweenWords p a b) : words p (a ++ b) = words p a ++ words p b := by
  cases b with
  | nil => rw [List.append_nil, words_nil, List.append_nil]
  | cons y b =>
    rcases hy : p y with _ | _
    · rcases List.eq_nil_or_concat a with rfl | ⟨a, x, rfl⟩
      · rfl
      · have hx : p x = true := (betweenWords_cons_iff hy).mp h x (by simp)
        rw [List.concat_eq_append, List.append_assoc, List.singleton_append, words_append_cons hx, words_append_cons hx,
          words_nil, List.append_nil]
    · rw [words_append_cons hy, words_cons hy]

/-- A list that ends in a word is that word after some list that ends between words. -/
theorem exists_last_word (h : ∃ x ∈ a.getLast?, p x = false) :
    ∃ c w, a = c ++ w ∧ IsWord p w ∧ ∀ x ∈ c.getLast?, p x = true := by
  obtain ⟨x, hx, hnot⟩ := h
  refine ⟨a.rdropWhile (! p ·), a.rtakeWhile (! p ·), List.rdropWhile_append_rtakeWhile.symm, ⟨?_, ?_⟩, ?_⟩
  · intro hnil
    have hne : a ≠ [] := by
      rintro rfl
      cases hx
    rw [List.rtakeWhile_eq_nil_iff] at hnil
    rw [List.getLast?_eq_some_getLast hne, Option.mem_some] at hx
    exact hnil hne (by rw [hx, hnot]; rfl)
  · exact fun y hy => by simpa using List.mem_rtakeWhile_imp hy
  · intro y hy
    have hhead : (a.reverse.dropWhile (! p ·)).head? = some y := by
      rw [← hy, List.rdropWhile, List.getLast?_reverse]
    simpa using not_of_head_dropWhile hhead

theorem exists_first_word (h : ∃ x ∈ b.head?, p x = false) :
    ∃ w c, b = w ++ c ∧ IsWord p w ∧ ∀ x ∈ c.head?, p x = true := by
  obtain ⟨x, hx, hnot⟩ := h
  refine ⟨b.takeWhile (! p ·), b.dropWhile (! p ·), List.takeWhile_append_dropWhile.symm, ⟨?_, ?_⟩, ?_⟩
  · cases b with
    | nil => cases hx
    | cons y b =>
      obtain rfl := Option.some.inj hx
      rw [List.takeWhile_cons_of_pos (by simp [hnot])]
      exact List.cons_ne_nil _ _
  · exact fun y hy => by simpa using List.mem_takeWhile_imp hy
  · exact fun y hy => by simpa using not_of_head_dropWhile (p := (! p ·)) hy

/-- In the middle of a word, the first part has the beginning of that word as its last word. -/
theorem words_append_of_not_between (h : ¬ BetweenWords p a b) : ∃ front w t back, IsWord p w ∧ IsWord p t ∧
    words p a = front ++ [w] ∧ words p (a ++ b) = front ++ (w ++ t) :: back := by
  obtain ⟨x, hx, y, hy, hxnot, hynot⟩ := not_not.mp h
  obtain ⟨c, w, rfl, hw, hc⟩ := exists_last_word ⟨x, hx, hxnot⟩
  obtain ⟨t, d, rfl, ht, hd⟩ := exists_first_word ⟨y, hy, hynot⟩
  have hjoin : IsWord p (w ++ t) :=
    ⟨by simp [hw.1], fun z hz => (List.mem_append.mp hz).elim (hw.2 z) (ht.2 z)⟩
  refine ⟨words p c, w, t, words p d, hw, ht, ?_, ?_⟩
  · rw [words_append_of_between (betweenWords_of_last hc w), words_word hw]
  · have hcut : c ++ w ++ (t ++ d) = c ++ ((w ++ t) ++ d) := by simp only [List.append_assoc]
    rw [hcut, words_append_of_between (betweenWords_of_last hc _),
      words_append_of_between (betweenWords_of_head (w ++ t) hd), words_word hjoin, List.singleton_append]

/-! ## Words put together -/

variable {c : α} {ws : List (List α)}

theorem joined_cons (hws : ws ≠ []) : [c].intercalate (w :: ws) = w ++ c :: [c].intercalate ws := by
  obtain ⟨v, ws, rfl⟩ := List.exists_cons_of_ne_nil hws
  rw [List.intercalate_cons_cons, List.append_assoc, List.singleton_append]

theorem words_joined (hc : p c = true) (hws : ∀ w ∈ ws, IsWord p w) : words p ([c].intercalate ws) = ws := by
  induction ws with
  | nil => rfl
  | cons w ws ih =>
    rcases eq_or_ne ws [] with rfl | hne
    · rw [List.intercalate_singleton, words_word (hws w (by simp))]
    · rw [joined_cons hne, words_word_cons (hws w (by simp)) hc, ih fun v hv => hws v (by simp [hv])]

/-- The words put together are as long as they all are, with one element for each gap. -/
theorem length_joined (c : α) (ws : List (List α)) :
    ([c].intercalate ws).length = (ws.map List.length).sum + (ws.length - 1) := by
  induction ws with
  | nil => rfl
  | cons w ws ih =>
    rcases eq_or_ne ws [] with rfl | hne
    · simp
    · have hpos : 0 < ws.length := List.length_pos_of_ne_nil hne
      rw [joined_cons hne, List.length_append, List.length_cons, ih, List.map_cons, List.sum_cons, List.length_cons]
      omega

theorem length_joined_words_le (c : α) (s : List α) : ([c].intercalate (words p s)).length ≤ s.length := by
  induction s using words_induction (p := p) with
  | nil => simp [words_nil]
  | gap x s hx ih =>
    rw [words_cons hx, List.length_cons]
    omega
  | last w hw => rw [words_word hw, List.intercalate_singleton]
  | word w x s hw hx ih =>
    rw [words_word_cons hw hx]
    rcases eq_or_ne (words p s) [] with hnil | hne
    · rw [hnil, List.intercalate_singleton, List.length_append]
      omega
    · rw [joined_cons hne]
      simp only [List.length_append, List.length_cons]
      omega

/-! ## Tight lists -/

theorem not_tight_cons (hx : p x = true) (s : List α) : ¬ Tight p (x :: s) := fun h => by
  have hnot := h.first x rfl
  rw [hx] at hnot
  cases hnot

theorem tight_word (hw : IsWord p w) : Tight p w where
  first x hx := hw.2 x (List.mem_of_mem_head? hx)
  gaps := by
    apply List.Pairwise.isChain
    refine List.pairwise_of_forall_mem_list fun x hx y _ h => ?_
    rw [hw.2 x hx] at h
    cases h.1

/-- After a word and a gap, a list goes on as a tight list does. -/
theorem tight_word_cons_iff (hw : IsWord p w) (hx : p x = true) : Tight p (w ++ x :: s) ↔ Tight p s := by
  constructor
  · intro h
    have hgaps : (x :: s).IsChain fun x y => ¬ (p x = true ∧ p y = true) := (List.isChain_append.mp h.gaps).2.1
    refine ⟨fun y hy => ?_, (List.isChain_cons.mp hgaps).2⟩
    by_contra hnot
    exact (List.isChain_cons.mp hgaps).1 y hy ⟨hx, by simpa using hnot⟩
  · intro h
    refine ⟨fun y hy => ?_, List.isChain_append.mpr ⟨(tight_word hw).gaps, ?_, ?_⟩⟩
    · rw [List.head?_append_of_ne_nil _ hw.1] at hy
      exact hw.2 y (List.mem_of_mem_head? hy)
    · refine List.isChain_cons.mpr ⟨fun y hy hboth => ?_, h.gaps⟩
      rw [h.first y hy] at hboth
      cases hboth.2
    · intro y hy z _ hboth
      rw [hw.2 y (List.mem_of_getLast? hy)] at hboth
      cases hboth.1

theorem words_ne_nil_of_tight (h : Tight p s) (hne : s ≠ []) : words p s ≠ [] := by
  intro hnil
  obtain ⟨y, s, rfl⟩ := List.exists_cons_of_ne_nil hne
  obtain ⟨v, d, hs, hv, hd⟩ := exists_first_word (b := y :: s) ⟨y, rfl, h.first y rfl⟩
  rw [hs, words_append_of_between (betweenWords_of_head v hd), words_word hv] at hnil
  cases hnil

/-- A list whose words are as long as it is when they are put together is tight. -/
theorem tight_of_length (c : α) (h : ([c].intercalate (words p s)).length = s.length) : Tight p s := by
  induction s using words_induction (p := p) with
  | nil => exact ⟨by simp, .nil⟩
  | gap x s hx ih =>
    rw [words_cons hx, List.length_cons] at h
    have hle := length_joined_words_le (p := p) c s
    omega
  | last w hw => exact tight_word hw
  | word w x s hw hx ih =>
    rw [tight_word_cons_iff hw hx]
    apply ih
    rw [words_word_cons hw hx] at h
    rcases eq_or_ne (words p s) [] with hnil | hne
    · rw [hnil, List.intercalate_singleton, List.length_append, List.length_cons] at h
      omega
    · rw [joined_cons hne] at h
      simp only [List.length_append, List.length_cons] at h
      omega

/-- A tight list is as long as its words put together, with a gap where it ends in one. -/
theorem length_of_tight (c : α) (h : Tight p s) : s.length ≤ ([c].intercalate (words p s)).length + 1 ∧
    ((∃ x ∈ s.getLast?, p x = false) → s.length = ([c].intercalate (words p s)).length) := by
  induction s using words_induction (p := p) with
  | nil => exact ⟨by simp, by simp [words_nil]⟩
  | gap x s hx ih => exact absurd h (not_tight_cons hx s)
  | last w hw =>
    rw [words_word hw, List.intercalate_singleton]
    exact ⟨by omega, fun _ => rfl⟩
  | word w x s hw hx ih =>
    have htight := (tight_word_cons_iff hw hx).mp h
    obtain ⟨hle, heq⟩ := ih htight
    have hlast : s ≠ [] → (w ++ x :: s).getLast? = s.getLast? := fun hne => by
      rw [List.getLast?_append_of_ne_nil _ (List.cons_ne_nil x s), List.getLast?_cons_of_ne_nil hne]
    rw [words_word_cons hw hx]
    rcases eq_or_ne s [] with rfl | hne
    · rw [words_nil, List.intercalate_singleton, List.length_append]
      refine ⟨by simp, ?_⟩
      rintro ⟨y, hy, hnot⟩
      rw [List.getLast?_append_of_ne_nil _ (List.cons_ne_nil x []), List.getLast?_singleton] at hy
      obtain rfl := Option.some.inj hy
      rw [hx] at hnot
      cases hnot
    · rw [joined_cons (words_ne_nil_of_tight htight hne), hlast hne]
      simp only [List.length_append, List.length_cons]
      refine ⟨by omega, fun hend => ?_⟩
      have h := heq hend
      omega

/-! ### The first words -/

theorem sum_take_le (hws : ∀ w ∈ ws, w ≠ []) {i j : ℕ} (hij : i ≤ j) (hj : j ≤ ws.length) :
    ((ws.take i).map List.length).sum + (j - i) ≤ ((ws.take j).map List.length).sum := by
  induction j, hij using Nat.le_induction with
  | base => simp
  | succ j hij ih =>
    have hlt : j < ws.length := by omega
    have hpos : 0 < (ws[j]).length := List.length_pos_of_ne_nil (hws _ (List.getElem_mem hlt))
    have hle := ih (by omega)
    rw [List.take_succ_eq_append_getElem hlt, List.map_append, List.sum_append, List.map_singleton, List.sum_singleton]
    omega

section FirstWords

variable {k r : List α} {i : ℕ} (hi : i ≤ (words p (k ++ r)).length)
  (hlength : k.length = (((words p (k ++ r)).take i).map List.length).sum + (i - 1))
include hi hlength

/-- A tight list that is as long as the first words put together ends where a word does. -/
theorem betweenWords_of_tight (c : α) (htight : Tight p k) : BetweenWords p k r := by
  by_contra hbetween
  obtain ⟨x, hx, -, -, hxnot, -⟩ := not_not.mp hbetween
  obtain ⟨front, w, t, back, hw, ht, hkwords, hwords⟩ := words_append_of_not_between hbetween
  have hne : ∀ w ∈ words p (k ++ r), w ≠ [] := fun w hw => (isWord_of_mem_words hw).1
  have hend := (length_of_tight c htight).2 ⟨x, hx, hxnot⟩
  have hwpos := List.length_pos_of_ne_nil hw.1
  have htpos := List.length_pos_of_ne_nil ht.1
  rw [length_joined, hkwords, List.map_append, List.sum_append, List.map_singleton, List.sum_singleton,
    List.length_append, List.length_singleton] at hend
  have hfront : (words p (k ++ r)).take front.length = front := by rw [hwords, List.take_left]
  have hnext : (((words p (k ++ r)).take (front.length + 1)).map List.length).sum =
      (front.map List.length).sum + (w.length + t.length) := by
    rw [hwords, List.take_length_add_append, List.map_append, List.sum_append]
    simp
  have hlen : front.length + 1 ≤ (words p (k ++ r)).length := by
    rw [hwords, List.length_append, List.length_cons]
    omega
  -- The first words end before the word that is parted or after it.
  rcases Nat.lt_or_ge front.length i with hlt | hge
  · have hsum := sum_take_le hne hlt hi
    rw [Nat.succ_eq_add_one, hnext] at hsum
    omega
  · have hsum := sum_take_le hne hge (by omega)
    rw [hfront] at hsum
    omega

/-- Of whole words there are as many as their length allows. -/
theorem length_words_of_tight (c : α) (htight : Tight p k) (hbetween : BetweenWords p k r) :
    (words p k).length = i := by
  have hwords := words_append_of_between hbetween
  have hne : ∀ w ∈ words p (k ++ r), w ≠ [] := fun w hw => (isWord_of_mem_words hw).1
  have hn : (words p k).length ≤ (words p (k ++ r)).length := by
    rw [hwords, List.length_append]
    omega
  have htake : (words p (k ++ r)).take (words p k).length = words p k := by rw [hwords, List.take_left]
  have hjoined := length_joined c (words p k)
  have hle := (length_of_tight c htight).1
  have hge := length_joined_words_le (p := p) c k
  rcases Nat.lt_trichotomy (words p k).length i with hlt | heq | hgt
  · have hsum := sum_take_le hne hlt.le hi
    rw [htake] at hsum
    have hk : k ≠ [] := by
      rintro rfl
      rw [List.length_nil] at hlength
      omega
    have hpos := List.length_pos_of_ne_nil (words_ne_nil_of_tight htight hk)
    omega
  · exact heq
  · have hsum := sum_take_le hne hgt.le hn
    rw [htake] at hsum
    omega

end FirstWords

/-- **The first words of a list end where they would if they were put together, exactly if the list is tight up to
there.** -/
theorem words_take_joined_iff (c : α) (s : List α) {i : ℕ} (hi : i ≤ (words p s).length) :
    let k := s.take ([c].intercalate ((words p s).take i)).length
    words p k = (words p s).take i ↔ Tight p k := by
  intro k
  let r := s.drop ([c].intercalate ((words p s).take i)).length
  have hs : s = k ++ r := (List.take_append_drop _ s).symm
  have hlength : k.length = (((words p s).take i).map List.length).sum + (i - 1) := by
    have hjoined := length_joined c ((words p s).take i)
    have hle := length_joined_words_le (p := p) c s
    have hall := length_joined c (words p s)
    have hsum := sum_take_le (fun w hw => (isWord_of_mem_words hw).1) hi le_rfl
    rw [List.take_length] at hsum
    rw [List.length_take, min_eq_left hi] at hjoined
    rw [List.length_take, hjoined, min_eq_left]
    omega
  constructor
  · intro hk
    apply tight_of_length c
    rw [hk, length_joined, List.length_take, min_eq_left hi, hlength]
  · intro htight
    rw [hs] at hi hlength
    have hbetween := betweenWords_of_tight hi hlength c htight
    have hcount := length_words_of_tight hi hlength c htight hbetween
    rw [hs, words_append_of_between hbetween, ← hcount, List.take_left]

end LlmStore.Lib
