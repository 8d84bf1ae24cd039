import LlmStore.Inference.Repetition
import LlmStore.Lib.Recurring
import LlmStore.Lib.Words

/-!
# The rules for repetition loops

What the loops of `detect_repetition` and `truncate_at_repetition` come to: a text has a loop if some heading, line,
word, five words in a row or phrase recurs in it (`detectRepetition_iff`), and it is cut before the item with which the
first of these recurs that a rule looks for (`exists_cut`). Of the n-grams only those of five words matter: where a
longer one recurs, its first five words do. Nothing is cut out because of a long line, of a word, or of a phrase that
recurs with different punctuation.
-/

namespace LlmStore.Inference

open Lib (Rare LosesAt windows)

/-! ## Counting -/

section Counting

variable {α : Type} [DecidableEq α] {n : ℕ} {xs : List α}

theorem countedTo_cases {seen : List α} (h : Rare n seen.reverse) :
    (countedTo n seen xs = none ∧ Rare n (seen.reverse ++ xs)) ∨
      ∃ i, countedTo n seen xs = some i ∧ LosesAt (Rare n) (seen.reverse ++ xs) i := by
  induction xs generalizing seen with
  | nil => exact .inl ⟨rfl, by rwa [List.append_nil]⟩
  | cons x xs ih =>
    have hcount : (seen.reverse ++ [x]).count x = (x :: seen).count x := by
      rw [← List.reverse_cons, List.count_reverse]
    have hcons : (x :: seen).reverse ++ xs = seen.reverse ++ x :: xs := by simp
    rw [countedTo]
    by_cases hx : n ≤ (x :: seen).count x
    · refine .inr ⟨seen.length, if_pos hx, by simp, ?_, ?_⟩
      · rwa [← seen.length_reverse, List.take_left]
      · rw [← seen.length_reverse, List.take_length_add_append, List.take_succ_cons, List.take_zero,
          Lib.rare_concat_iff h, hcount]
        omega
    · have hnext : Rare n (x :: seen).reverse := by
        rw [List.reverse_cons, Lib.rare_concat_iff h, hcount]
        omega
      rw [if_neg hx, ← hcons]
      exact ih hnext

theorem countedTo_nil_cases (hn : 0 < n) (xs : List α) :
    (countedTo n [] xs = none ∧ Rare n xs) ∨ ∃ i, countedTo n [] xs = some i ∧ LosesAt (Rare n) xs i :=
  countedTo_cases (Lib.rare_nil hn)

theorem countedTo_eq_some_iff (hn : 0 < n) {i : ℕ} : countedTo n [] xs = some i ↔ LosesAt (Rare n) xs i := by
  rcases countedTo_nil_cases hn xs with ⟨h, hrare⟩ | ⟨j, h, hj⟩
  · rw [h]
    exact iff_of_false (by simp) fun hi => hi.not (Lib.rare_prefixClosed n) hrare
  · rw [h, Option.some_inj]
    exact ⟨fun hij => hij ▸ hj, fun hi => hj.unique (Lib.rare_prefixClosed n) hi⟩

theorem countedTo_eq_none_iff (hn : 0 < n) : countedTo n [] xs = none ↔ Rare n xs := by
  rcases countedTo_nil_cases hn xs with ⟨h, hrare⟩ | ⟨j, h, hj⟩
  · exact iff_of_true h hrare
  · exact iff_of_false (by simp [h]) (hj.not (Lib.rare_prefixClosed n))

theorem isSome_countedTo (hn : 0 < n) : (countedTo n [] xs).isSome = true ↔ ¬ Rare n xs := by
  rw [← countedTo_eq_none_iff hn, Option.isSome_iff_ne_none]

end Counting

variable (lower : List Char → List Char) (promptTemplate : Option String)

/-- The word is counted to the threshold, and is half of the words, when it is counted for the last time. -/
theorem detectSingleWord_iff {t total : ℕ} {seen words : List (List Char)} :
    detectSingleWord lower t total seen words = true ↔ ∃ w ∈ words.map lower,
      t ≤ (words.map lower ++ seen).count w ∧ total ≤ 2 * (words.map lower ++ seen).count w := by
  induction words generalizing seen with
  | nil => simp [detectSingleWord]
  | cons v words ih =>
    have hperm : ∀ w, (words.map lower ++ lower v :: seen).count w = (lower v :: (words.map lower ++ seen)).count w :=
      fun w => List.perm_middle.count_eq w
    simp only [detectSingleWord, Bool.or_eq_true, Bool.and_eq_true, decide_eq_true_eq, ih, hperm, List.map_cons,
      List.cons_append]
    constructor
    · rintro (⟨ht, htotal⟩ | ⟨w, hw, h⟩)
      · have hle : (lower v :: seen).count (lower v) ≤ (lower v :: (words.map lower ++ seen)).count (lower v) :=
          ((List.sublist_append_right _ _).cons_cons _).count_le _
        exact ⟨lower v, by simp, by omega, by omega⟩
      · exact ⟨w, by simp [hw], h⟩
    · rintro ⟨w, hw, h⟩
      by_cases hlater : w ∈ words.map lower
      · exact .inr ⟨w, hlater, h⟩
      · obtain rfl : w = lower v := by simpa [hlater] using hw
        rw [List.count_cons_self, List.count_append, List.count_eq_zero_of_not_mem hlater, Nat.zero_add,
          ← List.count_cons_self] at h
        exact .inl h

/-! ## What recurs -/

/-- The lines that the code takes as long, stripped. -/
def longLines (lines : List (List Char)) : List (List Char) :=
  (lines.map Text.strip).filter fun line => 40 < line.length

/-- The lines that the code takes as short, stripped. -/
def shortLines (lines : List (List Char)) : List (List Char) := (lines.map Text.strip).filter isShortLine

/-- The phrases that are counted to detect a loop: without their punctuation, the last one too. -/
def Sentences.phrases (s : Sentences) : List (List Char) :=
  (s.pieces.map Text.strip).filter fun s => 10 ≤ s.length && s.length ≤ 60

/-- The sentences that are counted to cut a loop out: with their punctuation. -/
def Sentences.full (s : Sentences) : List (List Char) := s.ended.map fun s => s.1 ++ s.2

/-- Some heading is there three times. -/
def HeadingLoop (text : List Char) : Prop := ∃ block ∈ blocks, 2 < (occurrences block text).length

/-- Some long line is there three times. -/
def LongLineLoop (text : List Char) : Prop := ¬ Rare 3 (longLines (splitlines text))

/-- A word is there eight times and is half of the words. -/
def WordLoop (words : List (List Char)) : Prop :=
  ∃ w, 8 ≤ (words.map lower).count w ∧ words.length ≤ 2 * (words.map lower).count w

/-- Some five words in a row are there so often as is not allowed. -/
def FiveWordLoop (words : List (List Char)) : Prop := ¬ Rare (ngramThreshold promptTemplate) (windows 5 words)

/-- The words repeat themselves: one of them, or, if there are so many of them, some five in a row. -/
def WordsLoop (words : List (List Char)) : Prop :=
  WordLoop lower words ∨ (5 * ngramThreshold promptTemplate ≤ words.length ∧ FiveWordLoop promptTemplate words)

/-- The words of a text of some length repeat themselves. -/
def TextWordsLoop (text : List Char) : Prop :=
  40 ≤ (Text.strip text).length ∧ WordsLoop lower promptTemplate (Text.split text)

/-- Some short line is there three times. -/
def ShortLineLoop (text : List Char) : Prop := ¬ Rare 3 (shortLines (splitlines text))

/-- Some phrase is there three times. -/
def PhraseLoop (text : List Char) : Prop := ¬ Rare 3 (sentences text).phrases

/-- Some sentence with its punctuation is there three times. -/
def SentenceLoop (text : List Char) : Prop := ¬ Rare 3 ((sentences text).full.map Text.strip)

variable {lower promptTemplate} {text : List Char} {words : List (List Char)}

theorem ngramThreshold_pos : 0 < ngramThreshold promptTemplate := by
  unfold ngramThreshold
  split <;> omega

/-! ### The words of a text -/

theorem split_eq (text : List Char) : Text.split text = Lib.words Text.isSpace text := rfl

theorem strip_eq (text : List Char) : Text.strip text = Lib.trim Text.isSpace text := rfl

theorem split_strip (text : List Char) : Text.split (Text.strip text) = Text.split text := Lib.words_trim text

theorem isWord_of_mem_split {w : List Char} (h : w ∈ Text.split text) : Lib.IsWord Text.isSpace w :=
  Lib.isWord_of_mem_words h

theorem ngrams_eq (words : List (List Char)) (ws : ℕ) :
    ngrams words ws = (windows ws words).map ([' '].intercalate ·) := by
  rw [ngrams, windows, List.map_map]
  rfl

/-- Windows of words are told apart when they are put together. -/
theorem intercalate_injOn (hwords : ∀ w ∈ words, Lib.IsWord Text.isSpace w) (n : ℕ) :
    ∀ x ∈ windows n words, ∀ y ∈ windows n words, [' '].intercalate x = [' '].intercalate y → x = y := by
  have hwindow : ∀ x ∈ windows n words, Lib.words Text.isSpace ([' '].intercalate x) = x := by
    intro x hx
    obtain ⟨i, -, rfl⟩ := List.mem_map.mp hx
    exact Lib.words_joined rfl fun w hw => hwords w (List.mem_of_mem_drop (List.mem_of_mem_take hw))
  intro x hx y hy h
  rw [← hwindow x hx, h, hwindow y hy]

theorem rare_ngrams_iff (hwords : ∀ w ∈ words, Lib.IsWord Text.isSpace w) {n : ℕ} (hn : 0 < n) (ws : ℕ) :
    Rare n (ngrams words ws) ↔ Rare n (windows ws words) := by
  rw [ngrams_eq]
  exact Lib.rare_map_iff hn (intercalate_injOn hwords ws)

/-- Only the n-grams of five words are needed to detect a loop. -/
theorem anyNgram_iff (hwords : ∀ w ∈ words, Lib.IsWord Text.isSpace w) {n : ℕ} (hn : 0 < n) :
    (windowSizes.any fun ws => ws * n ≤ words.length && (countedTo n [] (ngrams words ws)).isSome) = true ↔
      5 * n ≤ words.length ∧ ¬ Rare n (windows 5 words) := by
  simp only [windowSizes, List.any_eq_true, Bool.and_eq_true, decide_eq_true_eq, isSome_countedTo hn,
    rare_ngrams_iff hwords hn]
  constructor
  · rintro ⟨ws, hws, hle, hrecurs⟩
    have hfive : 5 ≤ ws := by
      simp only [List.mem_cons, List.not_mem_nil, or_false] at hws
      omega
    have hmul : 5 * n ≤ ws * n := Nat.mul_le_mul_right n hfive
    exact ⟨by omega, fun hrare => hrecurs (hrare.windows hfive)⟩
  · intro h
    exact ⟨5, by simp, h⟩

/-- Only the n-grams of five words are needed to cut a loop out. -/
theorem ngramCut_eq (text : List Char) {n : ℕ} (hn : 0 < n) : ngramCut text n =
    (countedTo n [] (ngrams (Text.split text) 5)).map fun i =>
      text.take ([' '].intercalate ((Text.split text).take i)).length := by
  rw [ngramCut, windowSizes]
  cases h : countedTo n [] (ngrams (Text.split text) 5) with
  | some i => simp [h]
  | none =>
    have hwords : ∀ w ∈ Text.split text, Lib.IsWord Text.isSpace w := fun w => isWord_of_mem_split
    have hrare := (rare_ngrams_iff hwords hn 5).mp ((countedTo_eq_none_iff hn).mp h)
    have hlonger : ∀ ws, 5 ≤ ws → countedTo n [] (ngrams (Text.split text) ws) = none := fun ws hws =>
      (countedTo_eq_none_iff hn).mpr ((rare_ngrams_iff hwords hn ws).mpr (hrare.windows hws))
    simp [h, hlonger 8, hlonger 12, hlonger 20]

/-! ## Detection -/

theorem detectBlockRepetition_iff : detectBlockRepetition text 2 = true ↔ HeadingLoop text := by
  simp [detectBlockRepetition, HeadingLoop]

theorem detectLongLineRepetition_iff : detectLongLineRepetition text 2 = true ↔ LongLineLoop text :=
  isSome_countedTo (by omega)

theorem detectNgramRepetition_iff :
    detectNgramRepetition lower text (ngramThreshold promptTemplate) = true ↔
      TextWordsLoop lower promptTemplate text := by
  have hpos : 0 < ngramThreshold promptTemplate := ngramThreshold_pos
  have hwords : ∀ w ∈ Text.split text, Lib.IsWord Text.isSpace w := fun w => isWord_of_mem_split
  have hngrams := anyNgram_iff hwords hpos
  have hword : (8 ≤ (Text.split text).length ∧
      detectSingleWord lower 8 (Text.split text).length [] (Text.split text) = true) ↔
        WordLoop lower (Text.split text) := by
    rw [detectSingleWord_iff, List.append_nil]
    constructor
    · rintro ⟨-, w, -, h⟩
      exact ⟨w, h⟩
    · rintro ⟨w, height, hhalf⟩
      have hle : ((Text.split text).map lower).count w ≤ (Text.split text).length := by
        rw [← List.length_map lower]
        exact List.count_le_length
      exact ⟨by omega, w, List.count_pos_iff.mp (by omega), height, hhalf⟩
  simp only [detectNgramRepetition, split_strip]
  by_cases hlength : (Text.strip text).length < 40
  · rw [if_pos hlength]
    exact iff_of_false (by simp) fun h => by have hle := h.1; omega
  · rw [if_neg hlength, Bool.or_eq_true, hngrams, Bool.and_eq_true, decide_eq_true_eq, hword]
    exact ⟨fun h => ⟨by omega, h⟩, fun h => h.2⟩

theorem detectShortPhraseRepetition_iff :
    detectShortPhraseRepetition text 2 = true ↔ ShortLineLoop text ∨ PhraseLoop text := by
  unfold detectShortPhraseRepetition
  rw [Bool.or_eq_true, isSome_countedTo (by omega), isSome_countedTo (by omega)]
  rfl

/-- A loop is detected in a text if some heading, line, word, five words in a row or phrase recurs in it. -/
theorem detectRepetition_iff : detectRepetition lower promptTemplate text = true ↔
    HeadingLoop text ∨ LongLineLoop text ∨ TextWordsLoop lower promptTemplate text ∨ ShortLineLoop text ∨
      PhraseLoop text := by
  rw [detectRepetition, Bool.or_eq_true, Bool.or_eq_true, Bool.or_eq_true, detectBlockRepetition_iff,
    detectLongLineRepetition_iff, detectNgramRepetition_iff, detectShortPhraseRepetition_iff, or_assoc, or_assoc]

/-! ## Truncation -/

variable (text)

/-- The third of a heading begins at `n`, and of no heading before it in the list there are three. -/
def HeadingCut (n : ℕ) : Prop :=
  ∃ before block after, blocks = before ++ block :: after ∧ (∀ b ∈ before, (occurrences b text).length ≤ 2) ∧
    (occurrences block text)[2]? = some n

variable (lower promptTemplate)

/-- The words repeat themselves, five of them in a row too. -/
def WordsCuttable : Prop := TextWordsLoop lower promptTemplate text ∧ FiveWordLoop promptTemplate (Text.split text)

/-- The five words from the `i`-th on are there for the last time that is not allowed, and no five before them are. -/
structure WordsCut (i : ℕ) : Prop where
  noHeading : ¬ HeadingLoop text
  loop : TextWordsLoop lower promptTemplate text
  lostAt : LosesAt (Rare (ngramThreshold promptTemplate)) (windows 5 (Text.split text)) i

/-- The `i`-th line is a short line that is there for the third time, the first one to be. -/
structure LineCut (i : ℕ) : Prop where
  noHeading : ¬ HeadingLoop text
  noWords : ¬ WordsCuttable lower promptTemplate text
  lostAt : LosesAt (fun lines => Rare 3 (shortLines lines)) (splitlines text) i

/-- The `i`-th sentence is there for the third time with its punctuation, the first one to be. -/
structure SentenceCut (i : ℕ) : Prop where
  noHeading : ¬ HeadingLoop text
  noWords : ¬ WordsCuttable lower promptTemplate text
  noLine : ¬ ShortLineLoop text
  loop : PhraseLoop text
  lostAt : LosesAt (Rare 3) ((sentences text).full.map Text.strip) i

/-- Something that recurs is cut out of the text. -/
def CutOut : Prop :=
  HeadingLoop text ∨ WordsCuttable lower promptTemplate text ∨ ShortLineLoop text ∨
    (PhraseLoop text ∧ SentenceLoop text)

variable {lower promptTemplate text}

/-- The words before the `i`-th, as long as they are when they are put together. -/
def wordsBefore (text : List Char) (i : ℕ) : List Char :=
  text.take ([' '].intercalate ((Text.split text).take i)).length

/-- The lines before the `i`-th. -/
def linesBefore (text : List Char) (i : ℕ) : List Char := ['\n'].intercalate ((splitlines text).take i)

/-- The sentences before the `i`-th. -/
def sentencesBefore (text : List Char) (i : ℕ) : List Char := ((sentences text).full.take i).flatten

theorem blockCut_eq_none_iff : blockCut text 2 = none ↔ ¬ HeadingLoop text := by
  simp [blockCut, HeadingLoop, List.findSome?_eq_none_iff]

theorem blockCut_eq_some {n : ℕ} (h : HeadingCut text n) : blockCut text 2 = some (text.take n) := by
  obtain ⟨before, block, after, hblocks, hbefore, hn⟩ := h
  rw [blockCut, List.findSome?_eq_some_iff]
  refine ⟨before, block, after, hblocks, by rw [hn]; rfl, fun b hb => ?_⟩
  rw [List.getElem?_eq_none (hbefore b hb), Option.map_none]

theorem exists_headingCut (h : HeadingLoop text) : ∃ n, HeadingCut text n := by
  cases hcut : blockCut text 2 with
  | none => exact absurd h (blockCut_eq_none_iff.mp hcut)
  | some kept =>
    obtain ⟨before, block, after, hblocks, hblock, hbefore⟩ := List.findSome?_eq_some_iff.mp hcut
    obtain ⟨n, hn, -⟩ := Option.map_eq_some_iff.mp hblock
    refine ⟨n, before, block, after, hblocks, fun b hb => ?_, hn⟩
    simpa using hbefore b hb

theorem HeadingCut.loop {n : ℕ} (h : HeadingCut text n) : HeadingLoop text := by
  by_contra hno
  rw [← blockCut_eq_none_iff, blockCut_eq_some h] at hno
  cases hno

theorem shortLines_prefixClosed : Lib.PrefixClosed fun lines => Rare 3 (shortLines lines) := by
  rintro a b ⟨t, rfl⟩ h
  refine h.sublist ?_
  rw [shortLines, shortLines, List.map_append, List.filter_append]
  exact List.sublist_append_left _ _

theorem shortLineLoop_of_losesAt {i : ℕ}
    (hi : LosesAt (fun lines => Rare 3 (shortLines lines)) (splitlines text) i) : ShortLineLoop text :=
  LosesAt.not (P := fun lines => Rare 3 (shortLines lines)) shortLines_prefixClosed hi

theorem lineCutFrom_cases {before counted lines : List (List Char)} (hcounted : counted.Perm (shortLines before))
    (h : Rare 3 (shortLines before)) :
    (lineCutFrom 2 before counted lines = none ∧ Rare 3 (shortLines (before ++ lines))) ∨
      ∃ i, lineCutFrom 2 before counted lines = some (['\n'].intercalate ((before ++ lines).take i)) ∧
        LosesAt (fun lines => Rare 3 (shortLines lines)) (before ++ lines) i := by
  induction lines generalizing before counted with
  | nil => exact .inl ⟨rfl, by rwa [List.append_nil]⟩
  | cons line lines ih =>
    have hassoc : before ++ [line] ++ lines = before ++ line :: lines := by simp
    have hshort : shortLines (before ++ [line]) =
        shortLines before ++ if isShortLine (Text.strip line) then [Text.strip line] else [] := by
      rw [shortLines, List.map_append, List.filter_append, shortLines, List.map_singleton, List.filter_singleton]
      cases isShortLine (Text.strip line) <;> rfl
    simp only [lineCutFrom]
    by_cases hline : isShortLine (Text.strip line) = true
    · rw [if_pos hline] at hshort ⊢
      have hcons : (Text.strip line :: counted).Perm (shortLines (before ++ [line])) := by
        rw [hshort]
        exact (hcounted.cons _).trans (List.perm_append_singleton _ _).symm
      have hthird : Rare 3 (shortLines (before ++ [line])) ↔
          (Text.strip line :: counted).count (Text.strip line) < 3 := by
        rw [hshort, Lib.rare_concat_iff h, ← hshort, hcons.count_eq]
      by_cases hlt : 2 < (Text.strip line :: counted).count (Text.strip line)
      · rw [if_pos hlt]
        refine .inr ⟨before.length, by rw [List.take_left], by simp, by rwa [List.take_left], ?_⟩
        rw [List.take_length_add_append, List.take_succ_cons, List.take_zero, hthird]
        omega
      · rw [if_neg hlt, ← hassoc]
        exact ih hcons (hthird.mpr (by omega))
    · rw [if_neg hline, List.append_nil] at hshort
      rw [if_neg hline, ← hassoc]
      exact ih (by rw [hshort]; exact hcounted) (by rw [hshort]; exact h)

theorem lineCut_cases (text : List Char) : (lineCutFrom 2 [] [] (splitlines text) = none ∧ ¬ ShortLineLoop text) ∨
    ∃ i, lineCutFrom 2 [] [] (splitlines text) = some (linesBefore text i) ∧
      LosesAt (fun lines => Rare 3 (shortLines lines)) (splitlines text) i := by
  have hnil : Rare 3 (shortLines []) := Lib.rare_nil (by omega)
  rcases lineCutFrom_cases (List.Perm.refl _) hnil with ⟨h, hrare⟩ | h
  · exact .inl ⟨h, not_not.mpr hrare⟩
  · exact .inr h

theorem lineCut_eq_none_iff : lineCutFrom 2 [] [] (splitlines text) = none ↔ ¬ ShortLineLoop text := by
  rcases lineCut_cases text with ⟨h, hno⟩ | ⟨i, h, hi⟩
  · exact iff_of_true h hno
  · exact iff_of_false (by simp [h]) (not_not.mpr (shortLineLoop_of_losesAt hi))

theorem lineCut_eq_some {i : ℕ} (hi : LosesAt (fun lines => Rare 3 (shortLines lines)) (splitlines text) i) :
    lineCutFrom 2 [] [] (splitlines text) = some (linesBefore text i) := by
  rcases lineCut_cases text with ⟨-, hno⟩ | ⟨j, h, hj⟩
  · exact absurd (shortLineLoop_of_losesAt hi) hno
  · rw [h, hj.unique shortLines_prefixClosed hi]

theorem phraseCut_eq_none_iff : phraseCut text 2 = none ↔ ¬ SentenceLoop text := by
  rw [phraseCut, Option.map_eq_none_iff, countedTo_eq_none_iff (by omega), SentenceLoop, not_not]
  rfl

theorem phraseCut_eq_some {i : ℕ} (hi : LosesAt (Rare 3) ((sentences text).full.map Text.strip) i) :
    phraseCut text 2 = some (sentencesBefore text i) :=
  Option.map_eq_some_iff.mpr ⟨i, (countedTo_eq_some_iff (by omega)).mpr hi, rfl⟩

theorem ngramCut_eq_none_iff :
    ngramCut text (ngramThreshold promptTemplate) = none ↔ ¬ FiveWordLoop promptTemplate (Text.split text) := by
  rw [ngramCut_eq text ngramThreshold_pos, Option.map_eq_none_iff, countedTo_eq_none_iff ngramThreshold_pos,
    rare_ngrams_iff (fun w => isWord_of_mem_split) ngramThreshold_pos, FiveWordLoop, not_not]

theorem ngramCut_eq_some {i : ℕ}
    (hi : LosesAt (Rare (ngramThreshold promptTemplate)) (windows 5 (Text.split text)) i) :
    ngramCut text (ngramThreshold promptTemplate) = some (wordsBefore text i) := by
  rw [ngramCut_eq text ngramThreshold_pos, Option.map_eq_some_iff]
  refine ⟨i, (countedTo_eq_some_iff ngramThreshold_pos).mpr ?_, rfl⟩
  rw [ngrams_eq]
  exact (Lib.losesAt_map_iff ngramThreshold_pos (intercalate_injOn (fun w => isWord_of_mem_split) 5)).mpr hi

/-! ### What is kept -/

theorem keptText_of_headingCut {n : ℕ} (h : HeadingCut text n) :
    keptText lower promptTemplate text 2 = some (text.take n) := by
  rw [keptText, blockCut_eq_some h]
  rfl

theorem keptText_of_wordsCut {i : ℕ} (h : WordsCut lower promptTemplate text i) :
    keptText lower promptTemplate text 2 = some (wordsBefore text i) := by
  rw [keptText, blockCut_eq_none_iff.mpr h.noHeading, if_pos (detectNgramRepetition_iff.mpr h.loop),
    ngramCut_eq_some h.lostAt]
  rfl

/-- What is kept where neither a heading nor words are cut out. -/
theorem keptText_of_not (hheading : ¬ HeadingLoop text) (hwords : ¬ WordsCuttable lower promptTemplate text) :
    keptText lower promptTemplate text 2 =
      if detectShortPhraseRepetition text 2 then lineCutFrom 2 [] [] (splitlines text) <|> phraseCut text 2
      else none := by
  have hngram : (if detectNgramRepetition lower text (ngramThreshold promptTemplate) then
      ngramCut text (ngramThreshold promptTemplate) else none) = none := by
    by_cases hloop : TextWordsLoop lower promptTemplate text
    · rw [if_pos (detectNgramRepetition_iff.mpr hloop), ngramCut_eq_none_iff]
      exact fun hfive => hwords ⟨hloop, hfive⟩
    · rw [if_neg (detectNgramRepetition_iff.not.mpr hloop)]
  rw [keptText, blockCut_eq_none_iff.mpr hheading, hngram]
  rfl

theorem keptText_of_lineCut {i : ℕ} (h : LineCut lower promptTemplate text i) :
    keptText lower promptTemplate text 2 = some (linesBefore text i) := by
  have hdetected := detectShortPhraseRepetition_iff.mpr (.inl (shortLineLoop_of_losesAt h.lostAt))
  rw [keptText_of_not h.noHeading h.noWords, if_pos hdetected, lineCut_eq_some h.lostAt]
  rfl

theorem keptText_of_sentenceCut {i : ℕ} (h : SentenceCut lower promptTemplate text i) :
    keptText lower promptTemplate text 2 = some (sentencesBefore text i) := by
  rw [keptText_of_not h.noHeading h.noWords, if_pos (detectShortPhraseRepetition_iff.mpr (.inr h.loop)),
    lineCut_eq_none_iff.mpr h.noLine, phraseCut_eq_some h.lostAt]
  rfl

/-- A text is cut by one of the rules exactly if something that recurs is cut out. -/
theorem exists_cut (h : CutOut lower promptTemplate text) : (∃ n, HeadingCut text n) ∨
    (∃ i, WordsCut lower promptTemplate text i) ∨ (∃ i, LineCut lower promptTemplate text i) ∨
      ∃ i, SentenceCut lower promptTemplate text i := by
  by_cases hheading : HeadingLoop text
  · exact .inl (exists_headingCut hheading)
  by_cases hwords : WordsCuttable lower promptTemplate text
  · obtain ⟨i, hi⟩ := Lib.exists_losesAt (Lib.rare_nil ngramThreshold_pos) hwords.2
    exact .inr (.inl ⟨i, hheading, hwords.1, hi⟩)
  by_cases hline : ShortLineLoop text
  · obtain ⟨i, hi⟩ := Lib.exists_losesAt (P := fun lines => Rare 3 (shortLines lines)) (Lib.rare_nil (by omega)) hline
    exact .inr (.inr (.inl ⟨i, hheading, hwords, hi⟩))
  · obtain h | h | h | h := h
    · exact absurd h hheading
    · exact absurd h hwords
    · exact absurd h hline
    · obtain ⟨i, hi⟩ := Lib.exists_losesAt (Lib.rare_nil (by omega)) h.2
      exact .inr (.inr (.inr ⟨i, hheading, hwords, hline, h.1, hi⟩))

theorem keptText_eq_none_iff : keptText lower promptTemplate text 2 = none ↔ ¬ CutOut lower promptTemplate text := by
  constructor
  · intro hnone hcut
    obtain ⟨n, h⟩ | ⟨i, h⟩ | ⟨i, h⟩ | ⟨i, h⟩ := exists_cut hcut
    · rw [keptText_of_headingCut h] at hnone
      cases hnone
    · rw [keptText_of_wordsCut h] at hnone
      cases hnone
    · rw [keptText_of_lineCut h] at hnone
      cases hnone
    · rw [keptText_of_sentenceCut h] at hnone
      cases hnone
  · intro hno
    rw [keptText_of_not (fun h => hno (.inl h)) fun h => hno (.inr (.inl h))]
    by_cases hphrase : PhraseLoop text
    · rw [lineCut_eq_none_iff.mpr fun h => hno (.inr (.inr (.inl h))),
        phraseCut_eq_none_iff.mpr fun h => hno (.inr (.inr (.inr ⟨hphrase, h⟩)))]
      exact ite_self _
    · rw [if_neg]
      rw [detectShortPhraseRepetition_iff]
      exact fun h => h.elim (fun h => hno (.inr (.inr (.inl h)))) hphrase

/-- What is cut out of a text is detected in it. -/
theorem CutOut.detected (h : CutOut lower promptTemplate text) : detectRepetition lower promptTemplate text = true := by
  rw [detectRepetition_iff]
  obtain h | h | h | h := h
  · exact .inl h
  · exact .inr (.inr (.inl h.1))
  · exact .inr (.inr (.inr (.inl h)))
  · exact .inr (.inr (.inr (.inr h.1)))

theorem truncateAtRepetition_of_some {kept : List Char} (h : keptText lower promptTemplate text 2 = some kept) :
    truncateAtRepetition lower promptTemplate text = Text.strip kept ++ truncationNotice := by
  simp only [truncateAtRepetition, h]

theorem truncateAtRepetition_of_none (h : keptText lower promptTemplate text 2 = none) :
    truncateAtRepetition lower promptTemplate text = text := by
  simp only [truncateAtRepetition, h]

end LlmStore.Inference
