import LlmStore.Inference.CutAgreement

/-!
# What is kept of a text that is cut

A text that is cut is a beginning of it, stripped, with the notice, and the beginning does not end within a word,
exactly if the place of the cut is not moved by how the text is spaced (`keepsBeginning_iff`): a heading or a sentence
is only known to begin after a space if there is one, the place of a word is counted in words with one space between
two of them, and the lines before a line are put together with `\n`.
-/

namespace LlmStore.Inference

open Lib (Rare LosesAt windows BetweenWords Tight)

variable (lower : List Char → List Char) (promptTemplate : Option String) (text : List Char)

/-- The text is left as it is, or what is left is a proper beginning of it, stripped, with the notice. The beginning
does not end within a word, and it has the words before the `i`-th where the rule for words cuts there. -/
def KeepsBeginning : Prop :=
  truncateAtRepetition lower promptTemplate text = text ∨ ∃ p q, text = p ++ q ∧ q ≠ [] ∧
    BetweenWords Text.isSpace p q ∧ truncateAtRepetition lower promptTemplate text = Text.strip p ++ truncationNotice ∧
    ∀ i, WordsCut lower promptTemplate text i → Text.split p = (Text.split text).take i

/-- A beginning of the text that has the lines before the `i`-th, the end of the last of them included. -/
def EndsBeforeLine (i : ℕ) (p : List Char) : Prop :=
  ∃ q, text = p ++ q ∧ q ≠ [] ∧ splitlines p = (splitlines text).take i ∧ ∀ c ∈ p.getLast?, isLineBreak c = true

/-- The text is spaced so that the place of the cut is the right one. -/
structure SpacedForCut : Prop where
  heading : ∀ n, HeadingCut text n → ∀ c ∈ (text.take n).getLast?, Text.isSpace c = true
  words : ∀ i, WordsCut lower promptTemplate text i → Tight Text.isSpace (wordsBefore text i)
  line : ∀ i, LineCut lower promptTemplate text i → ∀ p, EndsBeforeLine text i p →
    ∀ c ∈ Text.strip p, isLineBreak c = true → c = '\n'
  sentence : ∀ i, SentenceCut lower promptTemplate text i →
    ∀ c ∈ (sentencesBefore text i).getLast?, Text.isSpace c = true

variable {lower promptTemplate text} {a b k p q r : List Char}

/-! ## Beginnings of one text -/

/-- Two beginnings of a text with the same characters that are no spaces are the same when they are stripped. -/
theorem strip_eq_of_solid (h : a ++ q = b ++ r) (hsolid : solid a = solid b) : Text.strip a = Text.strip b := by
  have hpre : ∀ {a b : List Char}, a <+: b → solid a = solid b → Text.strip a = Text.strip b := by
    rintro a _ ⟨t, rfl⟩ hsolid
    rw [solid_append, eq_comm, List.append_right_eq_self] at hsolid
    refine (Lib.trim_append_of_blank_right a fun c hc => ?_).symm
    simpa using List.filter_eq_nil_iff.mp hsolid c hc
  have ha : a <+: b ++ r := ⟨q, h⟩
  have hb : b <+: b ++ r := ⟨r, rfl⟩
  rcases List.prefix_or_prefix_of_prefix ha hb with hab | hba
  · exact hpre hab hsolid
  · exact (hpre hba hsolid.symm).symm

theorem solid_eq_of_strip (h : Text.strip a = Text.strip b) : solid a = solid b := by
  rw [← solid_strip a, h, solid_strip]

/-- Before a character that is no space, a beginning that is the same when it is stripped ends between words only after
a space. -/
theorem last_of_strip_eq {x : Char} (hx : Text.isSpace x = false) (htext : k ++ x :: r = p ++ q)
    (hstrip : Text.strip p = Text.strip k) (hbetween : BetweenWords Text.isSpace p q) :
    ∀ c ∈ k.getLast?, Text.isSpace c = true := by
  have hsolid := solid_eq_of_strip hstrip
  rcases List.append_eq_append_iff.mp htext with ⟨t, rfl, ht⟩ | ⟨t, rfl, -⟩
  · cases t with
    | nil =>
      rw [List.append_nil] at hbetween
      rw [List.nil_append] at ht
      rw [← ht] at hbetween
      exact (Lib.betweenWords_cons_iff hx).mp hbetween
    | cons y t =>
      obtain ⟨rfl, -⟩ := List.cons.inj ht
      rw [solid_append, List.append_right_eq_self, solid, List.filter_cons_of_pos (by simp [hx])] at hsolid
      cases hsolid
  · rw [solid_append, eq_comm, List.append_right_eq_self] at hsolid
    rcases eq_or_ne t [] with rfl | hne
    · rw [List.append_nil] at htext ⊢
      rw [← List.append_cancel_left htext] at hbetween
      exact (Lib.betweenWords_cons_iff hx).mp hbetween
    · intro c hc
      rw [List.getLast?_append_of_ne_nil _ hne] at hc
      simpa using List.filter_eq_nil_iff.mp hsolid c (List.mem_of_getLast? hc)

/-! ## Rule by rule -/

theorem not_wordsCut {i : ℕ} (h : ¬ WordsCuttable lower promptTemplate text) : ¬ WordsCut lower promptTemplate text i :=
  fun hcut => h ⟨hcut.loop, hcut.lostAt.not (Lib.rare_prefixClosed _)⟩

/-- Where what is kept ends before a character that is no space, it must end in a space. -/
theorem keepsBeginning_iff_last (hkept : keptText lower promptTemplate text 2 = some k)
    (hne : Text.strip k ++ truncationNotice ≠ text) (hwords : ∀ i, ¬ WordsCut lower promptTemplate text i)
    (hrest : ∃ x r, text = k ++ x :: r ∧ Text.isSpace x = false) :
    KeepsBeginning lower promptTemplate text ↔ ∀ c ∈ k.getLast?, Text.isSpace c = true := by
  obtain ⟨x, r, htext, hx⟩ := hrest
  rw [KeepsBeginning, truncateAtRepetition_of_some hkept]
  constructor
  · rintro (heq | ⟨p, q, hpq, -, hbetween, hstrip, -⟩)
    · exact absurd heq hne
    · exact last_of_strip_eq hx (htext.symm.trans hpq) (List.append_cancel_right hstrip).symm hbetween
  · intro hlast
    exact .inr ⟨k, x :: r, htext, List.cons_ne_nil _ _, Lib.betweenWords_of_last hlast _, rfl,
      fun i hi => absurd hi (hwords i)⟩

theorem HeadingCut.keeps_iff {n : ℕ} (h : HeadingCut text n) :
    KeepsBeginning lower promptTemplate text ↔ ∀ c ∈ (text.take n).getLast?, Text.isSpace c = true := by
  refine keepsBeginning_iff_last (keptText_of_headingCut h) h.ne (fun i hi => hi.noHeading h.loop) ?_
  obtain ⟨before, block, after, hblocks, -, hn⟩ := h
  have hmem : block ∈ blocks := by simp [hblocks]
  obtain ⟨x, hx, hnot⟩ := exists_head_of_mem_blocks hmem
  obtain ⟨block, rfl⟩ := List.head?_eq_some_iff.mp hx
  obtain ⟨r, hr⟩ := prefix_of_mem_occurrences (List.mem_of_getElem? hn)
  refine ⟨x, block ++ r, ?_, hnot⟩
  conv_lhs => rw [← List.take_append_drop n text, ← hr]
  rfl

theorem SentenceCut.keeps_iff {i : ℕ} (h : SentenceCut lower promptTemplate text i) :
    KeepsBeginning lower promptTemplate text ↔ ∀ c ∈ (sentencesBefore text i).getLast?, Text.isSpace c = true := by
  refine keepsBeginning_iff_last (keptText_of_sentenceCut h) h.ne (fun j => not_wordsCut h.noWords) ?_
  obtain ⟨q, hq, ⟨c, hc, -⟩, hhead⟩ := exists_sentencesBefore text (by simpa using h.lostAt.lt)
  have hi : 0 < i := by
    -- One sentence is not there three times.
    by_contra hzero
    obtain rfl : i = 0 := by omega
    refine h.lostAt.after (Lib.rare_iff.mpr fun x => ?_)
    refine Nat.lt_of_le_of_lt List.count_le_length ?_
    rw [List.length_take]
    omega
  obtain ⟨x, q, rfl⟩ := List.exists_cons_of_ne_nil (List.ne_nil_of_mem hc)
  exact ⟨x, q, hq, hhead hi x rfl⟩

theorem WordsCut.keeps_iff {i : ℕ} (h : WordsCut lower promptTemplate text i) :
    KeepsBeginning lower promptTemplate text ↔ Tight Text.isSpace (wordsBefore text i) := by
  have hlt := h.lostAt.lt
  rw [Lib.length_windows] at hlt
  have htight : Text.split (wordsBefore text i) = (Text.split text).take i ↔ Tight Text.isSpace (wordsBefore text i) :=
    Lib.words_take_joined_iff ' ' text (by rw [← split_eq]; omega)
  rw [← htight, KeepsBeginning, truncateAtRepetition_of_some (keptText_of_wordsCut h)]
  constructor
  · rintro (heq | ⟨p, q, -, -, -, hstrip, hwords⟩)
    · obtain ⟨s, rfl, hs, hspaced, rfl⟩ := h.eq_iff.mp heq
      rw [htight, wordsBefore_notice hs hspaced]
      exact hspaced
    · rw [← hwords i h, ← split_strip, List.append_cancel_right hstrip, split_strip]
  · intro hwords
    let q := text.drop ([' '].intercalate ((Text.split text).take i)).length
    have htext : text = wordsBefore text i ++ q := (List.take_append_drop _ _).symm
    refine .inr ⟨wordsBefore text i, q, htext, ?_, ?_, rfl, fun j hj => ?_⟩
    · intro hnil
      rw [hnil, List.append_nil] at htext
      rw [← htext] at hwords
      have hlength := congrArg List.length hwords
      rw [List.length_take] at hlength
      omega
    · by_contra hbetween
      obtain ⟨front, w, t, back, -, ht, hbefore, hall⟩ := Lib.words_append_of_not_between hbetween
      rw [← htext] at hall
      rw [← split_eq, hwords, split_eq, hall] at hbefore
      have hlen := congrArg List.length hbefore
      have hget := congrArg (fun words => words[front.length]?) hbefore
      simp only [List.length_take, List.length_append, List.length_cons, List.length_nil] at hlen
      rw [List.getElem?_take_of_lt (by omega), List.getElem?_append_right le_rfl, List.getElem?_append_right le_rfl,
        Nat.sub_self] at hget
      exact ht.1 (List.append_right_eq_self.mp (Option.some.inj hget))
    · rw [hj.lostAt.unique (Lib.rare_prefixClosed _) h.lostAt]
      exact hwords

theorem LineCut.keeps_iff {i : ℕ} (h : LineCut lower promptTemplate text i) :
    KeepsBeginning lower promptTemplate text ↔ ∀ p, EndsBeforeLine text i p →
      ∀ c ∈ Text.strip p, isLineBreak c = true → c = '\n' := by
  have hjoined : ∀ {p}, EndsBeforeLine text i p → joinedLines p = linesBefore text i := by
    rintro p ⟨q, -, -, hp, -⟩
    rw [joinedLines, hp, linesBefore]
  rw [KeepsBeginning, truncateAtRepetition_of_some (keptText_of_lineCut h)]
  constructor
  · intro hkeeps p hp
    obtain ⟨p', q', hpq, hstrip⟩ : ∃ p' q', text = p' ++ q' ∧
        Text.strip (linesBefore text i) = Text.strip p' := by
      rcases hkeeps with heq | ⟨p', q', hpq, -, -, hstrip, -⟩
      · exact ⟨Text.strip (linesBefore text i), truncationNotice, heq.symm, (Lib.trim_trim _).symm⟩
      · exact ⟨p', q', hpq, List.append_cancel_right hstrip⟩
    have hbefore := hjoined hp
    have hsolid : solid p' = solid p := by
      rw [← solid_eq_of_strip hstrip, ← hbefore, solid_joinedLines]
    obtain ⟨q, htext, -⟩ := hp
    rw [← strip_joinedLines_iff, hbefore, hstrip]
    exact strip_eq_of_solid (hpq.symm.trans htext) hsolid
  · intro hbreaks
    obtain ⟨p, q, htext, hq, hp, hlast⟩ := exists_linesBefore text h.lostAt.lt
    have hbefore : EndsBeforeLine text i p := ⟨q, htext, hq, hp, hlast⟩
    have hstrip := (strip_joinedLines_iff p).mpr (hbreaks p hbefore)
    rw [hjoined hbefore] at hstrip
    exact .inr ⟨p, q, htext, hq, Lib.betweenWords_of_last (fun c hc => isSpace_of_isLineBreak (hlast c hc)) q,
      by rw [hstrip], fun j hj => absurd hj (not_wordsCut h.noWords)⟩

/-- **What is left of a text is a proper beginning of it, stripped, with the notice, that does not end within a word and
has the words before those that are cut out, or the text itself, if and only if the text is spaced so that the place of
the cut is the right one.** -/
theorem keepsBeginning_iff (lower : List Char → List Char) (promptTemplate : Option String) (text : List Char) :
    KeepsBeginning lower promptTemplate text ↔ SpacedForCut lower promptTemplate text := by
  constructor
  · intro h
    exact ⟨fun n hn => hn.keeps_iff.mp h, fun i hi => hi.keeps_iff.mp h,
      fun i hi => hi.keeps_iff.mp h, fun i hi => hi.keeps_iff.mp h⟩
  · intro h
    by_cases hcut : CutOut lower promptTemplate text
    · obtain ⟨n, hn⟩ | ⟨i, hi⟩ | ⟨i, hi⟩ | ⟨i, hi⟩ := exists_cut hcut
      · exact hn.keeps_iff.mpr (h.heading n hn)
      · exact hi.keeps_iff.mpr (h.words i hi)
      · exact hi.keeps_iff.mpr (h.line i hi)
      · exact hi.keeps_iff.mpr (h.sentence i hi)
    · exact .inl (truncateAtRepetition_of_none (keptText_eq_none_iff.mpr hcut))

/-- Three headings set in bold. -/
def boldHeadings : List Char := "**Goal:** a\n**Goal:** b\n**Goal:** c".toList

/-- A text is cut between the asterisks before a heading and the heading. -/
theorem bold_heading_cut : truncateAtRepetition lowerAscii none boldHeadings =
      "**Goal:** a\n**Goal:** b\n**".toList ++ truncationNotice ∧
    ¬ KeepsBeginning lowerAscii none boldHeadings := by
  have hcut : HeadingCut boldHeadings 26 := ⟨[], "Goal:".toList, _, rfl, by simp, by decide +kernel⟩
  refine ⟨by decide +kernel, fun h => ?_⟩
  have hlast := hcut.keeps_iff.mp h '*' (by decide +kernel)
  cases hlast

end LlmStore.Inference
