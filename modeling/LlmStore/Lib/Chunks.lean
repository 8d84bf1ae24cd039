import LlmStore.Lib.Blocks

/-!
# Blocks in a text that comes in chunks

* `annotated` reads the blocks of the whole text and deals the marks out to the chunks; `visible` are the chunks without
  their hidden elements and `Contained` says that no chunk starts inside a block.
* `map_removeBlocks_visible`: in a contained text, removing blocks chunk by chunk does not see the hidden elements.
* `exists_insertion`: in any other text, one more hidden element gets through.
-/

namespace LlmStore.Blocks

variable {α β : Type*}

/-- Deal a list out in pieces as long as the chunks. -/
def chop : List (List α) → List β → List (List β)
  | [], _ => []
  | c :: cs, l => l.take c.length :: chop cs (l.drop c.length)

theorem chop_flatten (zs : List (List β)) : ∀ {cs : List (List α)}, cs.map List.length = zs.map List.length →
    chop cs zs.flatten = zs := by
  induction zs with
  | nil => intro cs h; cases cs <;> simp_all [chop]
  | cons z zs ih =>
    intro cs h
    cases cs with
    | nil => simp at h
    | cons c cs =>
      simp only [List.map_cons, List.cons.injEq] at h
      simp [chop, h.1, ih h.2]

theorem flatten_chop (cs : List (List α)) : ∀ {l : List β}, l.length = cs.flatten.length → (chop cs l).flatten = l := by
  induction cs with
  | nil => intro l h; simpa [chop, eq_comm] using h
  | cons c cs ih =>
    intro l h
    simp only [chop, List.flatten_cons, List.length_append] at h ⊢
    rw [ih (by simp [h]), List.take_append_drop]

theorem chop_append {c : List α} {cs : List (List α)} {l l' : List β} (h : l.length = c.length) :
    chop (c :: cs) (l ++ l') = l :: chop cs l' := by
  simp [chop, ← h]

/-- Splitting chunks at a position of their text. -/
theorem exists_chunk (cs : List (List α)) : ∀ {n : ℕ}, 0 < n → n ≤ cs.flatten.length →
    ∃ mid a b post, cs = mid ++ (a ++ b) :: post ∧ a ≠ [] ∧ (mid.flatten ++ a).length = n := by
  induction cs with
  | nil => intro n h hn; simp at hn; omega
  | cons c cs ih =>
    intro n h hn
    by_cases hc : n ≤ c.length
    · refine ⟨[], c.take n, c.drop n, cs, by simp, ?_, ?_⟩
      · intro he
        have := congrArg List.length he
        simp only [List.length_take, List.length_nil] at this
        omega
      · simp only [List.flatten_nil, List.nil_append, List.length_take]
        omega
    · simp only [List.flatten_cons, List.length_append] at hn
      obtain ⟨mid, a, b, post, rfl, ha, hl⟩ := ih (n := n - c.length) (by omega) (by omega)
      refine ⟨c :: mid, a, b, post, rfl, ha, ?_⟩
      simp only [List.length_append, List.flatten_cons] at hl ⊢
      omega

/-! ## A hidden element is followed by one of its block -/

/-- Every hidden element is followed by another or by a delimiter. -/
def Sealed : List Mark → Prop
  | [] => True
  | m :: p => (m = .hidden → ∃ m' ∈ p.head?, m' = .hidden ∨ m' = .tag) ∧ Sealed p

theorem sealed_replicate_tag (n : ℕ) {p : List Mark} (h : Sealed p) : Sealed (List.replicate n .tag ++ p) := by
  induction n with
  | zero => exact h
  | succ n ih => exact ⟨by simp, ih⟩

theorem sealed_replicate_hidden (k : ℕ) {p : List Mark} (h : Sealed (.tag :: p)) :
    Sealed (List.replicate k .hidden ++ .tag :: p) := by
  induction k with
  | zero => exact h
  | succ k ih =>
    refine ⟨fun _ => ?_, ih⟩
    cases k with
    | zero => exact ⟨.tag, by simp, .inr rfl⟩
    | succ k => exact ⟨.hidden, by simp [List.replicate_succ], .inl rfl⟩

theorem sealed_of_append {p q : List Mark} (h : Sealed (p ++ q)) : Sealed q := by
  induction p with
  | nil => exact h
  | cons m p ih => exact ih h.2

theorem atEdge_of_append {z l : List (α × Mark)} (h : AtEdge (z ++ l)) : AtEdge z := by
  cases z with
  | nil => simp [AtEdge]
  | cons a z => exact h

theorem atEdge_flatten {zs : List (List (α × Mark))} (h : ∀ z ∈ zs, AtEdge z) : AtEdge zs.flatten := by
  induction zs with
  | nil => simp [AtEdge]
  | cons z zs ih =>
    cases z with
    | nil => exact ih fun z hz => h z (by simp [hz])
    | cons a z => exact h (a :: z) (by simp)

theorem atEdge_filter {z : List (α × Mark)} (h : AtEdge z) : AtEdge (z.filter fun a => a.2 ≠ .hidden) := by
  cases z with
  | nil => exact h
  | cons a z =>
    have ha := h a (by simp)
    have : a.2 ≠ .hidden := by rcases ha with ha | ha <;> simp [ha]
    simpa [AtEdge, this] using ha

/-- Of a list that shows no start inside a block, none is hidden either: the hidden elements end in a delimiter. -/
theorem atEdge_append {z l : List (α × Mark)} (hs : Sealed ((z ++ l).map Prod.snd))
    (hz : AtEdge (z.filter fun a => a.2 ≠ .hidden)) (hl : AtEdge l) : AtEdge (z ++ l) := by
  induction z with
  | nil => exact hl
  | cons a z ih =>
    rcases hm : decide (a.2 ≠ .hidden) with _ | _
    · -- a hidden element: the next one is in the block too, and the chunk cannot have ended before it
      have ha : a.2 = .hidden := by simpa using hm
      obtain ⟨m, hmem, hm'⟩ := hs.1 ha
      have hnext := ih hs.2 (by simpa [ha] using hz)
      change m ∈ ((z ++ l).map Prod.snd).head? at hmem
      rw [List.head?_map] at hmem
      obtain ⟨b, hb, rfl⟩ := Option.map_eq_some_iff.mp hmem
      rcases hnext b hb with he | he <;> rw [he] at hm' <;> simp at hm'
    · have ha : a.2 ≠ .hidden := by simpa using hm
      have := hz a (by simp [ha])
      simpa [AtEdge] using this

/-- Chunks that do not start inside a block once the hidden elements are dropped do not start inside one before. -/
theorem atEdge_of_shown (zs : List (List (α × Mark))) (hs : Sealed (zs.flatten.map Prod.snd))
    (h : ∀ z ∈ zs, AtEdge (z.filter fun a => a.2 ≠ .hidden)) : (∀ z ∈ zs, AtEdge z) ∧ AtEdge zs.flatten := by
  induction zs with
  | nil => simp [AtEdge]
  | cons z zs ih =>
    have hrest : Sealed (zs.flatten.map Prod.snd) := by
      rw [List.flatten_cons, List.map_append] at hs
      exact sealed_of_append hs
    obtain ⟨hall, hflat⟩ := ih hrest fun z hz => h z (List.mem_cons_of_mem _ hz)
    have hz := atEdge_append hs (h z (by simp)) hflat
    refine ⟨?_, hz⟩
    intro y hy
    rcases List.mem_cons.mp hy with rfl | hy
    · exact atEdge_of_append hz
    · exact hall y hy

namespace Delimiters

variable (D : Delimiters α)

theorem sealed_rest (k : ℕ) : Sealed (D.rest k) := by
  rw [rest, List.append_assoc]
  refine sealed_replicate_tag _ (sealed_replicate_hidden k ?_)
  have := sealed_replicate_tag (D.closeRest.length + 1) (p := []) trivial
  simpa [List.replicate_succ] using this

theorem sealed_marked (u : List α) : ∀ {p : List Mark}, Sealed p → p.length ≤ u.length →
    Sealed ((D.marked p u).map Prod.snd) := by
  induction u with
  | nil => intro p _ _; simp [Sealed]
  | cons x u ih =>
    intro p hp hl
    cases p with
    | cons m p =>
      have hl' : p.length ≤ u.length := by simpa using hl
      refine ⟨?_, ih hp.2 hl'⟩
      intro hm
      obtain ⟨m', hm', h⟩ := hp.1 hm
      refine ⟨m', ?_, h⟩
      cases p with
      | nil => simp at hm'
      | cons m'' p =>
        cases u with
        | nil => simp at hl'
        | cons y u => simpa using hm'
    | nil =>
      rcases hb : D.block (x :: u) with _ | k
      · rw [D.marked_none hb]
        exact ⟨by simp, ih (p := []) trivial (by simp)⟩
      · rw [D.marked_some hb]
        have := D.block_length_le hb
        exact ⟨by simp, ih (D.sealed_rest k) (by simpa using this)⟩

/-! ## Chunks -/

/-- The chunks with the marks that their elements have in the whole text. -/
def annotated (cs : List (List α)) : List (List (α × Mark)) := chop cs (D.marked [] cs.flatten)

/-- The chunks without the hidden elements of the whole text. -/
def visible (cs : List (List α)) : List (List α) := (D.annotated cs).map shown

/-- No chunk starts inside a block. -/
def Contained (cs : List (List α)) : Prop := ∀ z ∈ D.annotated cs, AtEdge z

theorem flatten_annotated (cs : List (List α)) : (D.annotated cs).flatten = D.marked [] cs.flatten :=
  flatten_chop cs (D.length_marked [] _)

/-- The visible chunks have the annotations of the text, without its hidden elements. -/
theorem annotated_visible (cs : List (List α)) :
    D.annotated (D.visible cs) = (D.annotated cs).map fun z => z.filter fun a => a.2 ≠ .hidden := by
  have hs : (D.visible cs).flatten = shown (D.marked [] cs.flatten) := by
    rw [visible, ← flatten_annotated, shown, List.filter_flatten, List.map_flatten, List.map_map]
    rfl
  have hm := D.marked_shown cs.flatten (p := []) (by simp [Inner])
  rw [List.filter_nil, ← flatten_annotated, List.filter_flatten] at hm
  rw [annotated, hs, ← flatten_annotated, hm]
  refine chop_flatten _ ?_
  simp [visible, shown, Function.comp_def]

theorem contained_visible (cs : List (List α)) : D.Contained (D.visible cs) ↔ D.Contained cs := by
  simp only [Contained, annotated_visible, List.mem_map, forall_exists_index, and_imp, forall_apply_eq_imp_iff₂]
  constructor
  · intro h
    refine (atEdge_of_shown _ ?_ h).1
    rw [flatten_annotated]
    exact D.sealed_marked _ (p := []) trivial (by simp)
  · intro h z hz
    exact atEdge_filter (h z hz)

/-- A contained text is read chunk by chunk. -/
theorem annotated_cons {c : List α} {cs : List (List α)}
    (h : AtEdge ((D.marked [] (c ++ cs.flatten)).drop c.length)) :
    D.annotated (c :: cs) = D.marked [] c :: D.annotated cs := by
  obtain ⟨hm, -⟩ := D.marked_append c cs.flatten (p := []) (by simp [Inner]) h
  rw [annotated, List.flatten_cons, hm, chop_append (D.length_marked [] c)]
  rfl

theorem contained_cons {c : List α} {cs : List (List α)} (h : D.Contained (c :: cs)) :
    AtEdge ((D.marked [] (c ++ cs.flatten)).drop c.length) := by
  have hl : ((D.marked [] (c ++ cs.flatten)).drop c.length).length = cs.flatten.length := by
    rw [List.length_drop, length_marked, List.length_append]
    omega
  rw [← flatten_chop cs hl]
  apply atEdge_flatten
  intro z hz
  exact h z (List.mem_cons_of_mem _ hz)

/-- A text that comes in one chunk is contained. -/
theorem contained_singleton (c : List α) : D.Contained [c] := by
  have h : AtEdge ((D.marked [] (c ++ [].flatten)).drop c.length) := by
    simp [AtEdge, List.drop_of_length_le, length_marked]
  intro z hz
  rw [D.annotated_cons h] at hz
  rcases List.mem_cons.mp hz with rfl | hz
  · exact D.atEdge_marked c
  · simp [annotated, chop] at hz

theorem map_removeBlocks_eq {cs : List (List α)} (h : D.Contained cs) :
    cs.map D.removeBlocks = (D.annotated cs).map outside := by
  induction cs with
  | nil => rfl
  | cons c cs ih =>
    have ha := D.annotated_cons (D.contained_cons h)
    have hc : D.Contained cs := by
      intro z hz
      apply h z
      rw [ha]
      exact List.mem_cons_of_mem _ hz
    rw [ha, List.map_cons, List.map_cons, D.removeBlocks_eq, ih hc]

/-- **Removing blocks chunk by chunk does not see the hidden elements of a contained text.** -/
theorem map_removeBlocks_visible {cs : List (List α)} (h : D.Contained cs) :
    (D.visible cs).map D.removeBlocks = cs.map D.removeBlocks := by
  rw [D.map_removeBlocks_eq h, D.map_removeBlocks_eq ((D.contained_visible cs).mpr h), annotated_visible, List.map_map]
  apply List.map_congr_left
  intro z _
  simp only [Function.comp_apply, outside, List.filter_filter]
  congr 1
  apply List.filter_congr
  intro a _
  cases a.2 <;> simp

/-! ## A block that goes over the end of a chunk -/

/-- The element is no part of a delimiter. -/
def Fresh (z : α) : Prop := (∀ q ∈ D.opening, q z = false) ∧ ∀ q ∈ D.closing, q z = false

theorem opens_eq_false {z : α} (hz : D.Fresh z) : D.opens z = false := hz.1 D.opens (by simp [opening])

theorem findClose_cons_fresh {z : α} (hz : D.Fresh z) (w : List α) :
    D.findClose (z :: w) = (D.findClose w).map (· + 1) := by
  have : D.closes z = false := hz.2 D.closes (by simp [closing])
  simp [findClose, closing, startsWith, this]

/-- What follows an opening delimiter that is closed has no influence on what stands before it, whatever is put there. -/
theorem marked_switch {o w : List α} (ho : o.length = D.opening.length) (hw : D.findClose w ≠ none) (w' : List α)
    (c : List α) : ∀ {p : List Mark}, p.length ≤ c.length →
    D.marked p (c ++ (o ++ w)) = D.marked p c ++ D.marked [] (o ++ w) →
    D.marked p (c ++ (o ++ w')) = D.marked p c ++ D.marked [] (o ++ w') := by
  induction c with
  | nil =>
    intro p hp _
    cases p with
    | nil => simp
    | cons m p => simp at hp
  | cons x c ih =>
    intro p hp h
    cases p with
    | cons m p =>
      simp only [List.cons_append, marked_cons_cons, List.cons.injEq, true_and] at h ⊢
      exact ih (by simpa using hp) h
    | nil =>
      rcases hb : D.block (x :: c) with _ | k
      · have hn : D.block (x :: (c ++ (o ++ w))) = none := by
          rcases hb' : D.block (x :: (c ++ (o ++ w))) with _ | j
          · rfl
          · rw [List.cons_append, D.marked_some hb', D.marked_none hb] at h
            simp at h
        -- a closing delimiter follows, so it is the opening one that is not there
        have hs : startsWith D.opening (x :: c ++ o) = false := by
          rw [← Bool.not_eq_true]
          intro hs
          have hl : D.opening.length ≤ (x :: c ++ o).length := length_le_of_startsWith hs
          have hs' : startsWith D.opening (x :: c ++ o ++ w) = true := startsWith_mono w hs
          refine D.findClose_ne_none hw ((x :: c ++ o).drop D.opening.length) ?_
          rw [← List.drop_append_of_le_length hl]
          simp only [List.append_assoc, List.cons_append] at hs' ⊢
          simpa [block, hs'] using hn
        have hn' : D.block (x :: (c ++ (o ++ w'))) = none := by
          have hl : D.opening.length ≤ (x :: c ++ o).length := by
            rw [List.length_append, ho]
            omega
          have := startsWith_append w' hl
          rw [hs] at this
          simp only [List.append_assoc, List.cons_append] at this
          simp [block, this]
        rw [List.cons_append, D.marked_none hn, D.marked_none hb] at h
        rw [List.cons_append, D.marked_none hn', D.marked_none hb]
        simp only [List.cons_append, List.cons.injEq, true_and] at h ⊢
        exact ih (Nat.zero_le _) h
      · have hb₁ : D.block (x :: (c ++ (o ++ w))) = some k := D.block_append hb _
        have hb₂ : D.block (x :: (c ++ (o ++ w'))) = some k := D.block_append hb _
        have hl := D.block_length_le hb
        rw [List.cons_append, D.marked_some hb₁, D.marked_some hb] at h
        rw [List.cons_append, D.marked_some hb₂, D.marked_some hb]
        simp only [List.cons_append, List.cons.injEq, true_and] at h ⊢
        exact ih (by simpa using hl) h

/-- A text with a block over the end of a chunk: the chunk in which the block starts, and where. -/
theorem exists_straddling {cs : List (List α)} (h : ¬D.Contained cs) : ∃ pre e d post k,
    cs = pre ++ (e ++ d) :: post ∧ d ≠ [] ∧ D.block (d ++ post.flatten) = some k ∧ d.length ≤ (D.rest k).length ∧
      (D.marked [] (e ++ (d ++ post.flatten))).drop e.length = D.marked [] (d ++ post.flatten) ∧
      (D.marked [] cs.flatten).drop (pre.flatten ++ e).length = D.marked [] (d ++ post.flatten) := by
  induction cs with
  | nil => exact absurd (by simp [Contained, annotated, chop]) h
  | cons c cs ih =>
    by_cases hc : AtEdge ((D.marked [] (c ++ cs.flatten)).drop c.length)
    · have hcs : ¬D.Contained cs := by
        intro hcs
        apply h
        intro z hz
        rw [D.annotated_cons hc] at hz
        rcases List.mem_cons.mp hz with rfl | hz
        · exact D.atEdge_marked c
        · exact hcs z hz
      obtain ⟨pre, e, d, post, k, rfl, hd, hb, hl, he, hm⟩ := ih hcs
      refine ⟨c :: pre, e, d, post, k, rfl, hd, hb, hl, he, ?_⟩
      obtain ⟨hsplit, -⟩ := D.marked_append c _ (p := []) (by simp [Inner]) hc
      show (D.marked [] (c ++ (pre ++ (e ++ d) :: post).flatten)).drop (c ++ pre.flatten ++ e).length = _
      rw [hsplit, List.append_assoc, List.length_append, ← D.length_marked [] c, List.drop_length_add_append]
      exact hm
    · rcases D.exists_block c cs.flatten hc with hl | ⟨e, d, k, rfl, hd, hb, hl, hm⟩
      · simp at hl
      · rw [List.append_assoc] at hm
        exact ⟨[], e, d, cs, k, rfl, hd, hb, hl, hm, by simpa using hm⟩

/-- Elements that open nothing stay. -/
theorem removeBlocks_append_of_opens {o : List α} (ho : ∀ y ∈ o, D.opens y = false) (w : List α) :
    D.removeBlocks (o ++ w) = o ++ D.removeBlocks w := by
  induction o with
  | nil => rfl
  | cons y o ih =>
    have hb := D.block_eq_none (ho y (by simp)) (o ++ w)
    have := ih fun y hy => ho y (by simp [hy])
    simp only [removeBlocks] at this ⊢
    simp only [List.cons_append, removeFrom, hb, this]

/-- Nothing in an opening delimiter after its first element opens anything. -/
theorem opens_eq_false_of_startsWith {o w : List α} : ∀ {qs : List (α → Bool)}, (∀ q ∈ qs, q ∈ D.openRest) →
    o.length ≤ qs.length → startsWith qs (o ++ w) = true → ∀ y ∈ o, D.opens y = false := by
  induction o with
  | nil => intro qs _ _ _ y hy; simp at hy
  | cons x o ih =>
    intro qs hq hl hs y hy
    cases qs with
    | nil => simp at hl
    | cons q qs =>
      simp only [List.cons_append, startsWith, Bool.and_eq_true] at hs
      rcases List.mem_cons.mp hy with rfl | hy
      · rw [← Bool.not_eq_true]
        intro ho
        rw [D.unbordered q (hq q (by simp)) y ho] at hs
        exact absurd hs.1 (by simp)
      · exact ih (fun q hq' => hq q (by simp [hq'])) (by simpa using hl) hs.2 y hy

theorem marked_replicate_append (m : Mark) (q : List Mark) (u w : List α) :
    D.marked (List.replicate u.length m ++ q) (u ++ w) = u.map (·, m) ++ D.marked q w := by
  induction u with
  | nil => rfl
  | cons x u ih => simp [List.replicate_succ, ih]

/-- The marks of an opening delimiter. -/
def openMarks : List α → List (α × Mark)
  | [] => []
  | x :: o => (x, .start) :: o.map (·, .tag)

theorem length_openMarks (o : List α) : (openMarks o).length = o.length := by cases o <;> simp [openMarks]

/-- A block's marks, with those of its hidden elements still to come. -/
theorem marked_block {o w : List α} {k : ℕ} (ho : o.length = D.opening.length) (h : D.block (o ++ w) = some k) :
    D.marked [] (o ++ w) =
      openMarks o ++ D.marked (List.replicate k .hidden ++ List.replicate D.closing.length .tag) w := by
  cases o with
  | nil => simp [opening] at ho
  | cons x o =>
    have hl : o.length = D.openRest.length := by simpa [opening] using ho
    rw [List.cons_append] at h ⊢
    rw [D.marked_some h, rest, List.append_assoc, ← hl, marked_replicate_append]
    rfl

/-- One more hidden element in a block changes no mark. -/
theorem marked_insert {c o w : List α} {k : ℕ} {z : α} (hz : D.Fresh z) (ho : o.length = D.opening.length)
    (hb : D.block (o ++ w) = some k) (hc : D.marked [] (c ++ (o ++ w)) = D.marked [] c ++ D.marked [] (o ++ w)) :
    ∃ l l', D.marked [] (c ++ (o ++ w)) = l ++ l' ∧ l.length = (c ++ o).length ∧
      D.marked [] (c ++ (o ++ z :: w)) = l ++ (z, .hidden) :: l' := by
  obtain ⟨hs, hw⟩ := D.block_eq_some.mp hb
  have hdrop : ∀ w : List α, (o ++ w).drop D.opening.length = w := by
    intro w
    rw [← ho, List.drop_left]
  rw [hdrop] at hw
  have hb' : D.block (o ++ z :: w) = some (k + 1) := by
    refine D.block_eq_some.mpr ⟨?_, ?_⟩
    · rw [startsWith_append _ (Nat.le_of_eq ho.symm)] at hs ⊢
      exact hs
    · rw [hdrop, D.findClose_cons_fresh hz, hw]
      rfl
  have hc' := D.marked_switch ho (by rw [hw]; simp) (z :: w) c (Nat.zero_le _) hc
  refine ⟨D.marked [] c ++ openMarks o,
    D.marked (List.replicate k .hidden ++ List.replicate D.closing.length .tag) w, ?_, ?_, ?_⟩
  · rw [hc, D.marked_block ho hb, List.append_assoc]
  · rw [List.length_append, length_marked, length_openMarks, List.length_append]
  · rw [hc', D.marked_block ho hb', List.append_assoc]
    rfl

theorem map_shown_chop_insert {a b : List α} {post : List (List α)} {z : α} {l' : List (α × Mark)} {y : α × Mark}
    (hy : y.2 = .hidden) (pre : List (List α)) : ∀ {l : List (α × Mark)}, l.length = (pre.flatten ++ a).length →
    (chop (pre ++ (a ++ z :: b) :: post) (l ++ y :: l')).map shown =
      (chop (pre ++ (a ++ b) :: post) (l ++ l')).map shown := by
  induction pre with
  | nil =>
    intro l hl
    have hl : l.length = a.length := by simpa using hl
    have h₁ : (l ++ y :: l').take (a ++ z :: b).length = l ++ y :: l'.take b.length := by
      simp [List.take_append, hl, List.take_of_length_le]
    have h₂ : (l ++ y :: l').drop (a ++ z :: b).length = l'.drop b.length := by
      simp [List.drop_append, hl, List.drop_of_length_le]
    have h₃ : (l ++ l').take (a ++ b).length = l ++ l'.take b.length := by
      simp [List.take_append, hl, List.take_of_length_le]
    have h₄ : (l ++ l').drop (a ++ b).length = l'.drop b.length := by
      simp [List.drop_append, hl, List.drop_of_length_le]
    simp only [List.nil_append, chop, h₁, h₂, h₃, h₄, List.map_cons]
    simp [shown, hy]
  | cons c pre ih =>
    intro l hl
    have hc : c.length ≤ l.length := by
      simp only [List.flatten_cons, List.length_append] at hl
      omega
    have := ih (l := l.drop c.length) (by
      simp only [List.flatten_cons, List.length_append, List.length_drop] at hl ⊢
      omega)
    simp only [List.cons_append, chop, List.map_cons, List.take_append_of_le_length hc,
      List.drop_append_of_le_length hc, this]

theorem visible_insert (pre : List (List α)) {a b : List α} {post : List (List α)} {c o : List α} {k : ℕ} {z : α}
    (hz : D.Fresh z) (ho : o.length = D.opening.length) (hco : pre.flatten ++ a = c ++ o)
    (hb : D.block (o ++ (b ++ post.flatten)) = some k)
    (hc : D.marked [] (c ++ (o ++ (b ++ post.flatten))) = D.marked [] c ++ D.marked [] (o ++ (b ++ post.flatten))) :
    D.visible (pre ++ (a ++ z :: b) :: post) = D.visible (pre ++ (a ++ b) :: post) := by
  obtain ⟨l, l', hl, hlen, hl'⟩ := D.marked_insert hz ho hb hc
  have htext : (pre ++ (a ++ b) :: post).flatten = c ++ (o ++ (b ++ post.flatten)) := by
    rw [← List.append_assoc, ← hco]
    simp
  have htext' : (pre ++ (a ++ z :: b) :: post).flatten = c ++ (o ++ z :: (b ++ post.flatten)) := by
    rw [← List.append_assoc, ← hco]
    simp
  rw [visible, visible, annotated, annotated, htext, htext', hl, hl']
  exact map_shown_chop_insert rfl pre (by rw [hlen, hco])

/-- An opening delimiter that is not closed stays. -/
theorem removeBlocks_open {o w w' : List α} (ho : o.length = D.opening.length)
    (hs : startsWith D.opening (o ++ w) = true) (hw' : D.findClose w' = none) :
    D.removeBlocks (o ++ w') = o ++ D.removeBlocks w' := by
  cases o with
  | nil => simp [opening] at ho
  | cons x o =>
    have hl : o.length = D.openRest.length := by simpa [opening] using ho
    have hb : D.block (x :: (o ++ w')) = none := by
      have : (x :: (o ++ w')).drop D.opening.length = w' := by
        rw [← ho]
        exact List.drop_left
      simp [block, this, hw']
    simp only [opening, List.cons_append, startsWith, Bool.and_eq_true] at hs
    have hn := D.opens_eq_false_of_startsWith (fun q hq => hq) (Nat.le_of_eq hl) hs.2
    rw [List.cons_append, D.removeBlocks_of_block_eq_none hb, D.removeBlocks_append_of_opens hn]
    rfl

/-- In a text with a block over the end of a chunk, something put right after the block's opening delimiter is hidden,
and comes through when the blocks are removed chunk by chunk. -/
theorem exists_insertion {cs : List (List α)} (h : ¬D.Contained cs) : ∃ pre a b post, cs = pre ++ (a ++ b) :: post ∧
    ∀ z, D.Fresh z → D.visible (pre ++ (a ++ z :: b) :: post) = D.visible cs ∧
      ∃ u v, D.removeBlocks (a ++ b) = u ++ v ∧ D.removeBlocks (a ++ z :: b) = u ++ z :: v := by
  obtain ⟨pre, e, d, post, k, rfl, hd, hb, hl, he, hm⟩ := D.exists_straddling h
  obtain ⟨hs, hw⟩ := D.block_eq_some.mp hb
  -- the chunk in which the opening delimiter ends
  obtain ⟨mid, a, b, post', hsplit, ha, hn⟩ := exists_chunk (d :: post) (n := D.opening.length) (by simp [opening])
    (by simpa using length_le_of_startsWith hs)
  have htext : d ++ post.flatten = (mid.flatten ++ a) ++ (b ++ post'.flatten) := by
    rw [← List.flatten_cons, hsplit]
    simp
  rw [htext] at hb hs hw he hm
  have hdrop : ((mid.flatten ++ a) ++ (b ++ post'.flatten)).drop D.opening.length = b ++ post'.flatten := by
    rw [← hn, List.drop_left]
  rw [hdrop] at hw
  have hcut : D.marked [] (pre.flatten ++ e ++ (mid.flatten ++ a ++ (b ++ post'.flatten))) =
      D.marked [] (pre.flatten ++ e) ++ D.marked [] (mid.flatten ++ a ++ (b ++ post'.flatten)) := by
    have : (pre ++ (e ++ d) :: post).flatten = pre.flatten ++ e ++ (mid.flatten ++ a ++ (b ++ post'.flatten)) := by
      rw [← htext]
      simp
    rw [this] at hm
    refine (D.marked_append _ _ (p := []) (by simp [Inner]) ?_).1
    rw [hm]
    exact D.atEdge_marked _
  cases mid with
  | nil =>
    -- the delimiter is whole in the chunk: the chunk shows no closing one
    obtain ⟨rfl, rfl⟩ := List.cons.inj hsplit
    simp only [List.flatten_nil, List.nil_append] at hn hb hs he hcut
    refine ⟨pre, e ++ a, b, post, by simp, ?_⟩
    intro z hz
    have hv := D.visible_insert pre (a := e ++ a) hz hn (by simp) hb hcut
    have hnone : D.findClose b = none := by
      rcases hbc : D.findClose b with _ | j
      · rfl
      · obtain ⟨hj, hle⟩ := D.findClose_append post.flatten hbc
        rw [hw] at hj
        cases hj
        simp only [rest, List.length_append, List.length_replicate, hn] at hl
        simp only [opening, List.length_cons] at hl
        omega
    have hlocal := (D.marked_append _ _ (p := []) (by simp [Inner]) (by rw [he]; exact D.atEdge_marked _)).1
    have hremove : ∀ w, D.findClose w = none →
        D.removeBlocks (e ++ a ++ w) = (D.removeBlocks e ++ a) ++ D.removeBlocks w := by
      intro w hw'
      have := D.marked_switch hn (by rw [hw]; simp) w e (Nat.zero_le _) hlocal
      rw [List.append_assoc, D.removeBlocks_eq, this, outside, List.filter_append, List.map_append, ← outside,
        ← outside, ← D.removeBlocks_eq, ← D.removeBlocks_eq, D.removeBlocks_open hn hs hw', List.append_assoc]
    refine ⟨by simpa using hv, D.removeBlocks e ++ a, D.removeBlocks b, hremove b hnone, ?_⟩
    rw [hremove (z :: b) (by rw [D.findClose_cons_fresh hz, hnone]; rfl),
      D.removeBlocks_of_block_eq_none (D.block_eq_none (D.opens_eq_false hz) b)]
  | cons d' mid =>
    -- the chunk starts in the delimiter, so nothing in it opens a block
    obtain ⟨rfl, rfl⟩ := List.cons.inj hsplit
    refine ⟨pre ++ (e ++ d) :: mid, a, b, post', by simp, ?_⟩
    intro z hz
    have hv := D.visible_insert (pre ++ (e ++ d) :: mid) (a := a) hz hn (by simp) hb hcut
    obtain ⟨x, d, rfl⟩ := List.exists_cons_of_ne_nil hd
    simp only [opening, List.flatten_cons, List.cons_append, startsWith, Bool.and_eq_true, List.length_cons] at hs hn
    have hopens := D.opens_eq_false_of_startsWith (o := d ++ mid.flatten ++ a) (fun q hq => hq) (by omega) hs.2
    have ha' : ∀ y ∈ a, D.opens y = false := fun y hy => hopens y (by simp [hy])
    refine ⟨by simpa using hv, a, D.removeBlocks b, D.removeBlocks_append_of_opens ha' b, ?_⟩
    rw [D.removeBlocks_append_of_opens ha', D.removeBlocks_of_block_eq_none (D.block_eq_none (D.opens_eq_false hz) b)]

end Delimiters

end LlmStore.Blocks
