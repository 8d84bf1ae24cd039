import LlmStore.Inference.TextLines
import Mathlib.Algebra.Order.BigOperators.Group.List

/-!
# The sentences and the headings of a text

A text is read sentence by sentence (`sentences_induction`). A heading is there in the beginning of a text at most as
often as in the text (`length_occurrences_le`), and in a text of lines as often as in its lines
(`length_occurrences_lines`).
-/

namespace LlmStore.Inference

variable {w e s a b : List Char}

/-! ## Sentences -/

/-- A text without the end of a sentence. -/
def NoEnd (w : List Char) : Prop := ∀ c ∈ w, endsSentence c = false

/-- What ends a sentence before `rest`: a punctuation mark and all the spaces after it. -/
def SentenceEnd (e rest : List Char) : Prop :=
  ∃ c spaces, e = c :: spaces ∧ endsSentence c = true ∧ Lib.Blank Text.isSpace spaces ∧
    ∀ d ∈ rest.head?, Text.isSpace d = false

theorem sentencesFrom_of_noEnd (hw : NoEnd w) (piece s : List Char) :
    sentencesFrom piece none (w ++ s) = sentencesFrom (piece ++ w) none s := by
  induction w generalizing piece with
  | nil => rw [List.nil_append, List.append_nil]
  | cons c w ih =>
    rw [List.cons_append, sentencesFrom, hw c (by simp), if_neg Bool.false_ne_true, ih fun d hd => hw d (by simp [hd]),
      List.append_assoc, List.singleton_append]

theorem sentencesFrom_of_blank (hw : Lib.Blank Text.isSpace w) (piece separator s : List Char) :
    sentencesFrom piece (some separator) (w ++ s) = sentencesFrom piece (some (separator ++ w)) s := by
  induction w generalizing separator with
  | nil => rw [List.nil_append, List.append_nil]
  | cons c w ih =>
    rw [List.cons_append, sentencesFrom, if_pos (hw c (by simp)), ih fun d hd => hw d (by simp [hd]), List.append_assoc,
      List.singleton_append]

theorem sentencesFrom_separator (hs : ∀ d ∈ s.head?, Text.isSpace d = false) (piece separator : List Char) :
    sentencesFrom piece (some separator) s = (sentences s).cons piece separator := by
  cases s with
  | nil => rfl
  | cons c s =>
    rw [sentencesFrom, sentences, sentencesFrom, hs c rfl, if_neg Bool.false_ne_true]
    split
    · rfl
    · rfl

theorem sentences_last (hw : NoEnd w) : sentences w = ⟨[], w⟩ := by
  have h := sentencesFrom_of_noEnd hw [] []
  rw [List.append_nil, List.nil_append] at h
  exact h

theorem sentences_sentence (hw : NoEnd w) (he : SentenceEnd e s) :
    sentences (w ++ (e ++ s)) = (sentences s).cons w e := by
  obtain ⟨c, spaces, rfl, hc, hspaces, hs⟩ := he
  rw [sentences, sentencesFrom_of_noEnd hw, List.nil_append, List.cons_append, sentencesFrom, if_pos hc,
    sentencesFrom_of_blank hspaces, sentencesFrom_separator hs, List.singleton_append]

/-- A text has no end of a sentence, or begins with a sentence and its end. -/
theorem sentences_induction {motive : List Char → Prop} (last : ∀ w, NoEnd w → motive w)
    (sentence : ∀ w e s, NoEnd w → SentenceEnd e s → motive s → motive (w ++ (e ++ s))) (text : List Char) :
    motive text := by
  induction hn : text.length using Nat.strong_induction_on generalizing text with
  | _ n ih =>
    have hsplit := List.takeWhile_append_dropWhile (p := (! endsSentence ·)) (l := text)
    have hpiece : NoEnd (text.takeWhile (! endsSentence ·)) := fun c hc => by simpa using List.mem_takeWhile_imp hc
    cases hrest : text.dropWhile (! endsSentence ·) with
    | nil =>
      rw [hrest, List.append_nil] at hsplit
      exact last text (hsplit ▸ hpiece)
    | cons c t =>
      have hc : endsSentence c = true := by
        simpa using Lib.not_of_head_dropWhile (p := (! endsSentence ·)) (s := text) (x := c) (by rw [hrest]; rfl)
      have hspaces := List.takeWhile_append_dropWhile (p := Text.isSpace) (l := t)
      have hlength : (t.dropWhile Text.isSpace).length < n := by
        have h := congrArg List.length hsplit
        have ht := congrArg List.length hspaces
        rw [hrest, List.length_append, List.length_cons] at h
        rw [List.length_append] at ht
        omega
      have hend : SentenceEnd (c :: t.takeWhile Text.isSpace) (t.dropWhile Text.isSpace) :=
        ⟨c, _, rfl, hc, fun d hd => List.mem_takeWhile_imp hd, fun d hd => Lib.not_of_head_dropWhile hd⟩
      have htext : text.takeWhile (! endsSentence ·) ++ ((c :: t.takeWhile Text.isSpace) ++ t.dropWhile Text.isSpace) =
          text := by
        rw [List.cons_append, hspaces, ← hrest, hsplit]
      rw [← htext]
      exact sentence _ _ _ hpiece hend (ih _ hlength _ rfl)

theorem full_cons (s : Sentences) (piece separator : List Char) :
    (s.cons piece separator).full = (piece ++ separator) :: s.full := rfl

/-- Before a sentence there are the sentences before it, and after the first sentence it does not begin with a space. -/
theorem exists_sentencesBefore (text : List Char) {i : ℕ} (hi : i < (sentences text).full.length) :
    ∃ q, text = sentencesBefore text i ++ q ∧ (∃ c ∈ q, endsSentence c = true) ∧
      (0 < i → ∀ c ∈ q.head?, Text.isSpace c = false) := by
  simp only [sentencesBefore]
  induction text using sentences_induction generalizing i with
  | last w hw =>
    rw [sentences_last hw] at hi
    exact absurd hi (Nat.not_lt_zero i)
  | sentence w e s hw he ih =>
    rw [sentences_sentence hw he, full_cons] at hi ⊢
    obtain ⟨c, spaces, hcons, hc, -, hs⟩ := he
    cases i with
    | zero => exact ⟨_, rfl, ⟨c, by simp [hcons], hc⟩, fun h => absurd h (Nat.lt_irrefl 0)⟩
    | succ i =>
      obtain ⟨q, hq, hmem, hhead⟩ := ih (by simpa using hi)
      refine ⟨q, ?_, hmem, fun _ => ?_⟩
      · rw [List.take_succ_cons, List.flatten_cons, List.append_assoc, List.append_assoc, ← hq]
      · cases i with
        | zero =>
          rw [List.take_zero, List.flatten_nil, List.nil_append] at hq
          rwa [← hq]
        | succ i => exact hhead (Nat.succ_pos i)

/-- A text in whose spaces nothing new ends a sentence adds to the last piece only. -/
theorem strip_pieces_append (hb : NoEnd b) (text : List Char) {spaces : List Char}
    (hspaces : Lib.Blank Text.isSpace spaces) (hhead : ∀ c ∈ b.head?, Text.isSpace c = false) :
    (sentences (text ++ (spaces ++ b))).pieces.map Text.strip = (sentences text).ended.map (fun s => Text.strip s.1) ++
      [Text.strip ((sentences text).last ++ (spaces ++ b))] := by
  have hnoEnd : NoEnd spaces := fun c hc => by
    by_contra h
    have hspace := hspaces c hc
    rw [Bool.not_eq_false, endsSentence, Bool.or_eq_true, Bool.or_eq_true, beq_iff_eq, beq_iff_eq, beq_iff_eq] at h
    obtain (rfl | rfl) | rfl := h <;> cases hspace
  have hrest : NoEnd (spaces ++ b) := fun c hc => (List.mem_append.mp hc).elim (hnoEnd c) (hb c)
  induction text using sentences_induction with
  | last w hw =>
    have hall : NoEnd (w ++ (spaces ++ b)) := fun c hc => (List.mem_append.mp hc).elim (hw c) (hrest c)
    rw [sentences_last hall, sentences_last hw]
    rfl
  | sentence w e s hw he ih =>
    obtain ⟨c, separator, rfl, hc, hseparator, hs⟩ := he
    rw [sentences_sentence hw ⟨c, separator, rfl, hc, hseparator, hs⟩, List.append_assoc, List.append_assoc]
    rcases eq_or_ne s [] with rfl | hne
    · -- The punctuation takes the spaces, and what follows them is a piece of its own.
      have hend : SentenceEnd (c :: separator ++ spaces) b :=
        ⟨c, separator ++ spaces, rfl, hc, hseparator.append hspaces, hhead⟩
      have hcut : w ++ (c :: separator ++ ([] ++ (spaces ++ b))) = w ++ ((c :: separator ++ spaces) ++ b) := by simp
      rw [hcut, sentences_sentence hw hend, sentences_last hb]
      have hstrip : Text.strip (spaces ++ b) = Text.strip b := Lib.trim_append_of_blank_left hspaces b
      simp [Sentences.pieces, Sentences.cons, sentences, sentencesFrom, hstrip]
    · have hend : SentenceEnd (c :: separator) (s ++ (spaces ++ b)) := by
        refine ⟨c, separator, rfl, hc, hseparator, fun d hd => hs d ?_⟩
        rwa [List.head?_append_of_ne_nil _ hne] at hd
      rw [sentences_sentence hw hend]
      simp only [Sentences.pieces, Sentences.cons, List.map_cons, List.cons_append, List.map_append] at ih ⊢
      rw [ih]

/-! ## Headings -/

section Occurrences

variable {block text : List Char}

theorem occurrencesFrom_of_short (h : text.length < block.length) (pos skip : ℕ) :
    occurrencesFrom block pos skip text = [] := by
  induction text generalizing pos skip with
  | nil => cases skip <;> rfl
  | cons c text ih =>
    rw [List.length_cons] at h
    cases skip with
    | succ skip => exact ih (by omega) _ _
    | zero =>
      rw [occurrencesFrom, if_neg, ih (by omega)]
      intro hpre
      have hle := (List.isPrefixOf_iff_prefix.mp hpre).length_le
      rw [List.length_cons] at hle
      omega

/-- What is found in the beginning of a text is found first in the text. -/
theorem occurrencesFrom_initial (block a b : List Char) (pos skip : ℕ) :
    occurrencesFrom block pos skip a <+: occurrencesFrom block pos skip (a ++ b) := by
  induction a generalizing pos skip with
  | nil =>
    cases skip <;> exact List.nil_prefix
  | cons c a ih =>
    cases skip with
    | succ skip => exact ih _ _
    | zero =>
      rw [List.cons_append, occurrencesFrom, occurrencesFrom]
      by_cases hshort : block.isPrefixOf (c :: a) = true
      · have hlong : block.isPrefixOf (c :: (a ++ b)) = true :=
          List.isPrefixOf_iff_prefix.mpr ((List.isPrefixOf_iff_prefix.mp hshort).trans ⟨b, rfl⟩)
        rw [if_pos hshort, if_pos hlong, List.cons_prefix_cons]
        exact ⟨rfl, ih _ _⟩
      · rw [if_neg hshort]
        split
        · rename_i hlong
          -- The match goes beyond the beginning of the text, so that no other one fits into it.
          rw [occurrencesFrom_of_short]
          · exact List.nil_prefix
          · by_contra hle
            have hpre : block <+: (c :: a) ++ b := List.isPrefixOf_iff_prefix.mp hlong
            refine hshort (List.isPrefixOf_iff_prefix.mpr ?_)
            exact List.prefix_of_prefix_length_le hpre ⟨b, rfl⟩ (by rw [List.length_cons]; omega)
        · exact ih _ _

theorem length_occurrences_le (block a b : List Char) :
    (occurrences block a).length ≤ (occurrences block (a ++ b)).length :=
  (occurrencesFrom_initial block a b 0 0).length_le

theorem prefix_of_mem_occurrencesFrom {n pos skip : ℕ} (h : n ∈ occurrencesFrom block pos skip text) :
    pos ≤ n ∧ block <+: text.drop (n - pos) := by
  induction text generalizing pos skip with
  | nil => cases skip <;> cases h
  | cons c text ih =>
    have hnext : ∀ {skip}, n ∈ occurrencesFrom block (pos + 1) skip text →
        pos ≤ n ∧ block <+: (c :: text).drop (n - pos) := fun {skip} h => by
      obtain ⟨hle, hpre⟩ := ih h
      refine ⟨by omega, ?_⟩
      have hsub : n - pos = n - (pos + 1) + 1 := by omega
      rw [hsub, List.drop_succ_cons]
      exact hpre
    cases skip with
    | succ skip => exact hnext h
    | zero =>
      rw [occurrencesFrom] at h
      split at h
      · rename_i hpre
        rcases List.mem_cons.mp h with rfl | h
        · refine ⟨le_rfl, ?_⟩
          rw [Nat.sub_self, List.drop_zero]
          exact List.isPrefixOf_iff_prefix.mp hpre
        · exact hnext h
      · exact hnext h

theorem prefix_of_mem_occurrences {n : ℕ} (h : n ∈ occurrences block text) : block <+: text.drop n :=
  (prefix_of_mem_occurrencesFrom h).2

/-- The number of matches does not depend on where the text begins. -/
theorem length_occurrencesFrom (block text : List Char) (pos skip : ℕ) :
    (occurrencesFrom block pos skip text).length = (occurrencesFrom block 0 skip text).length := by
  have hstep : ∀ pos pos' skip, (occurrencesFrom block pos skip text).length =
      (occurrencesFrom block pos' skip text).length := by
    induction text with
    | nil => intro pos pos' skip; cases skip <;> rfl
    | cons c text ih =>
      intro pos pos' skip
      cases skip with
      | succ skip => exact ih _ _ _
      | zero =>
        rw [occurrencesFrom, occurrencesFrom]
        split
        · rw [List.length_cons, List.length_cons, ih _ (pos' + 1)]
        · exact ih _ _ _
  exact hstep pos 0 skip

theorem isPrefixOf_append_cons {c : Char} (hc : c ∉ block) (a b : List Char) :
    block.isPrefixOf (a ++ c :: b) = block.isPrefixOf a := by
  rw [Bool.eq_iff_iff, List.isPrefixOf_iff_prefix, List.isPrefixOf_iff_prefix]
  constructor
  · intro h
    have hnext : a ++ [c] <+: a ++ c :: b := ⟨b, by simp⟩
    rcases Nat.lt_or_ge a.length block.length with hlt | hle
    · have hover : a ++ [c] <+: block := by
        apply List.prefix_of_prefix_length_le hnext h
        rw [List.length_append, List.length_singleton]
        omega
      exact absurd (hover.subset (by simp)) hc
    · exact List.prefix_of_prefix_length_le h ⟨c :: b, rfl⟩ hle
  · exact fun h => h.trans ⟨c :: b, rfl⟩

/-- No match goes over a character that is not in what is looked for. -/
theorem occurrencesFrom_append_cons {c : Char} (hc : c ∉ block) (hne : block ≠ []) (a b : List Char) {pos skip : ℕ}
    (hskip : skip ≤ a.length) : occurrencesFrom block pos skip (a ++ c :: b) =
      occurrencesFrom block pos skip a ++ occurrencesFrom block (pos + a.length + 1) 0 b := by
  induction a generalizing pos skip with
  | nil =>
    obtain rfl : skip = 0 := by simpa using hskip
    rw [List.nil_append, occurrencesFrom, occurrencesFrom, if_neg, List.nil_append, List.length_nil, Nat.add_zero]
    intro hpre
    obtain ⟨d, block, rfl⟩ := List.exists_cons_of_ne_nil hne
    obtain ⟨rfl, -⟩ := List.cons_prefix_cons.mp (List.isPrefixOf_iff_prefix.mp hpre)
    exact hc (by simp)
  | cons x a ih =>
    have hpos : pos + (x :: a).length + 1 = pos + 1 + a.length + 1 := by
      rw [List.length_cons]
      omega
    cases skip with
    | succ skip =>
      rw [List.cons_append, occurrencesFrom, occurrencesFrom, hpos]
      exact ih (by simpa using hskip)
    | zero =>
      have hpre := isPrefixOf_append_cons hc (x :: a) b
      rw [List.cons_append] at hpre
      rw [List.cons_append, occurrencesFrom, occurrencesFrom, hpre, hpos]
      split
      · rename_i hmatch
        have hle := (List.isPrefixOf_iff_prefix.mp hmatch).length_le
        rw [List.length_cons] at hle
        rw [ih (by omega), List.cons_append]
      · exact ih (Nat.zero_le _)

theorem length_occurrences_append_cons {c : Char} (hc : c ∉ block) (hne : block ≠ []) (a b : List Char) :
    (occurrences block (a ++ c :: b)).length = (occurrences block a).length + (occurrences block b).length := by
  rw [occurrences, occurrencesFrom_append_cons hc hne a b (Nat.zero_le _), List.length_append,
    length_occurrencesFrom _ b]
  rfl

theorem occurrences_eq_nil {c : Char} (hc : c ∈ block) (htext : c ∉ text) : occurrences block text = [] := by
  refine List.eq_nil_iff_forall_not_mem.mpr fun n hn => htext ?_
  exact List.mem_of_mem_drop ((prefix_of_mem_occurrences hn).subset hc)

/-- The matches in a text are those in its lines. -/
theorem length_occurrences_lines (hbreaks : ∀ c ∈ block, isLineBreak c = false) (hne : block ≠ []) (text : List Char) :
    (occurrences block text).length = ((splitlines text).map fun line => (occurrences block line).length).sum := by
  have hnot : ∀ {c}, isLineBreak c = true → c ∉ block := fun hc hmem => by
    rw [hbreaks _ hmem] at hc
    cases hc
  induction text using lines_induction with
  | nil => rfl
  | last w hw hne => rw [splitlines_oneLine hw hne, List.map_singleton, List.sum_singleton]
  | line w e s hw he ih =>
    rw [splitlines_line hw he, List.map_cons, List.sum_cons, ← ih]
    obtain rfl | ⟨c, rfl, hc, -⟩ := he
    · have hnl : (occurrences block ('\n' :: s)).length = (occurrences block s).length := by
        have hnil : (occurrences block []).length = 0 := rfl
        have h := length_occurrences_append_cons (hnot (c := '\n') rfl) hne [] s
        rwa [List.nil_append, hnil, Nat.zero_add] at h
      rw [List.cons_append, List.singleton_append, length_occurrences_append_cons (hnot (c := '\r') rfl) hne, hnl]
    · rw [List.singleton_append, length_occurrences_append_cons (hnot hc) hne]

theorem length_occurrences_joined (hbreaks : ∀ c ∈ block, isLineBreak c = false) (hne : block ≠ [])
    (lines : List (List Char)) : (occurrences block (['\n'].intercalate lines)).length =
      (lines.map fun line => (occurrences block line).length).sum := by
  have hnot : '\n' ∉ block := fun hmem => by cases hbreaks _ hmem
  induction lines with
  | nil => rfl
  | cons line lines ih =>
    rcases eq_or_ne lines [] with rfl | hlines
    · rw [List.intercalate_singleton, List.map_singleton, List.sum_singleton]
    · rw [Lib.joined_cons hlines, length_occurrences_append_cons hnot hne, ih, List.map_cons, List.sum_cons]

theorem length_occurrences_linesBefore (hbreaks : ∀ c ∈ block, isLineBreak c = false) (hne : block ≠ [])
    (text : List Char) (i : ℕ) : (occurrences block (linesBefore text i)).length ≤ (occurrences block text).length := by
  rw [linesBefore, length_occurrences_joined hbreaks hne, length_occurrences_lines hbreaks hne text]
  exact ((List.take_sublist i _).map _).sum_le_sum fun _ _ => Nat.zero_le _

/-- Stripping a text adds no match of what does not begin with a space. -/
theorem length_occurrences_strip (hfirst : ∃ c ∈ block.head?, Text.isSpace c = false) (text : List Char) :
    (occurrences block (Text.strip text)).length ≤ (occurrences block text).length := by
  obtain ⟨d, hd, hdnot⟩ := hfirst
  have hleft : ∀ l s : List Char, Lib.Blank Text.isSpace l →
      (occurrences block (l ++ s)).length = (occurrences block s).length := by
    intro l s hl
    induction l with
    | nil => rfl
    | cons c l ih =>
      rw [List.cons_append, occurrences, occurrencesFrom, if_neg, length_occurrencesFrom]
      · exact ih fun x hx => hl x (by simp [hx])
      · intro hpre
        obtain ⟨block, rfl⟩ := List.head?_eq_some_iff.mp hd
        obtain ⟨rfl, -⟩ := List.cons_prefix_cons.mp (List.isPrefixOf_iff_prefix.mp hpre)
        rw [hl d (by simp)] at hdnot
        cases hdnot
  obtain ⟨l, r, hl, hr, htext⟩ := Lib.exists_trim Text.isSpace text
  rw [← strip_eq, List.append_assoc] at htext
  conv_rhs => rw [htext, hleft l _ hl]
  exact length_occurrences_le _ _ _

end Occurrences

end LlmStore.Inference
