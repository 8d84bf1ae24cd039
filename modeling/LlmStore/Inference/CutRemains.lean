import LlmStore.Inference.CutAgreement

/-!
# Loops that are left

A text that was cut has no loop exactly if, before the place of the cut, nothing else recurs
(`left_without_loop_iff`): the rules are tried in a fixed order, so that the cut need not be at the first loop of the
text, and long lines, single words and phrases with different punctuation are never cut out. The notice counts as five
words, a line and a part of the last phrase.
-/

namespace LlmStore.Inference

open Lib (Rare LosesAt windows)

variable (lower : List Char → List Char) (promptTemplate : Option String)

/-- The phrases that are counted when the notice comes after a text: it is a part of the last one. -/
def Sentences.phrasesWithNotice (s : Sentences) : List (List Char) :=
  (s.ended.map (fun s => Text.strip s.1) ++ [Text.strip (s.last ++ truncationNotice)]).filter fun s =>
    10 ≤ s.length && s.length ≤ 60

/-- Nothing but a heading recurs in a text with the notice after it. -/
structure Quiet (kept : List Char) : Prop where
  longLine : Rare 3 (longLines (splitlines kept))
  words : ¬ WordsLoop lower promptTemplate (Text.split kept ++ noticeWords)
  shortLine : Rare 3 (shortLines (splitlines kept) ++ [noticeLine])
  phrase : Rare 3 (sentences (Text.strip kept)).phrasesWithNotice

/-- Nothing but a short line recurs in the lines before the `i`-th and the notice after them, and the line of the notice
is there once at most. -/
structure QuietLines (text : List Char) (i : ℕ) : Prop where
  longLine : Rare 3 (longLines ((splitlines text).take i))
  words : ¬ WordsLoop lower promptTemplate (Text.split (linesBefore text i) ++ noticeWords)
  notice : (shortLines ((splitlines text).take i)).count noticeLine ≤ 1
  phrase : Rare 3 (sentences (Text.strip (linesBefore text i))).phrasesWithNotice

/-- Nothing else recurs before the place where the text is cut: no heading either where it is cut at one. -/
structure QuietBeforeCut (text : List Char) : Prop where
  heading : ∀ n, HeadingCut text n → ¬ HeadingLoop (Text.strip (text.take n)) ∧ Quiet lower promptTemplate (text.take n)
  words : ∀ i, WordsCut lower promptTemplate text i → Quiet lower promptTemplate (wordsBefore text i)
  line : ∀ i, LineCut lower promptTemplate text i → QuietLines lower promptTemplate text i
  sentence : ∀ i, SentenceCut lower promptTemplate text i → Quiet lower promptTemplate (sentencesBefore text i)

variable {lower promptTemplate} {s text : List Char}

/-! ## A text with the notice -/

theorem headingLoop_append_notice : HeadingLoop (s ++ truncationNotice) ↔ HeadingLoop s := by
  have hblocks : ∀ b ∈ blocks, '\n' ∉ b ∧ b ≠ [] ∧ ':' ∈ b := by decide
  have hlength : ∀ b ∈ blocks, (occurrences b (s ++ truncationNotice)).length = (occurrences b s).length := by
    intro b hb
    obtain ⟨hnewline, hne, hcolon⟩ := hblocks b hb
    have hnil : occurrences b ('\n' :: noticeLine) = [] := occurrences_eq_nil hcolon (by decide)
    rw [truncationNotice_eq, length_occurrences_append_cons hnewline hne, hnil, List.length_nil, Nat.add_zero]
  constructor
  · rintro ⟨b, hb, h⟩
    exact ⟨b, hb, hlength b hb ▸ h⟩
  · rintro ⟨b, hb, h⟩
    exact ⟨b, hb, (hlength b hb).symm ▸ h⟩

/-- The lines of a kind of a text with the notice are those of the text and those of the notice. -/
theorem filter_lines_append_notice (hs : Text.strip s = s) (kind : List Char → Bool) (hkind : kind [] = false) :
    ((splitlines (s ++ truncationNotice)).map Text.strip).filter kind =
      ((splitlines s).map Text.strip).filter kind ++ [noticeLine].filter kind := by
  have hstrip : Text.strip noticeLine = noticeLine := by decide +kernel
  have hnil : Text.strip [] = [] := rfl
  rcases eq_or_ne s [] with rfl | hne
  · have hnotice : splitlines ([] ++ truncationNotice) = [[], [], noticeLine] := by decide +kernel
    rw [hnotice]
    simp only [List.map_cons, List.map_nil, hstrip, hnil, List.filter_cons, hkind, splitlines_nil]
    rfl
  · rw [splitlines_append_notice hs hne, List.map_append, List.filter_append]
    simp only [List.map_cons, List.map_nil, hstrip, hnil, List.filter_cons, hkind]
    rfl

theorem longLineLoop_append_notice (hs : Text.strip s = s) :
    LongLineLoop (s ++ truncationNotice) ↔ ¬ Rare 3 (longLines (splitlines s)) := by
  have hlines := filter_lines_append_notice hs (fun line => 40 < line.length) (by decide)
  have hnotice : [noticeLine].filter (fun line => 40 < line.length) = [] := by decide
  rw [hnotice, List.append_nil] at hlines
  rw [LongLineLoop, longLines, hlines]
  rfl

theorem shortLineLoop_append_notice (hs : Text.strip s = s) :
    ShortLineLoop (s ++ truncationNotice) ↔ ¬ Rare 3 (shortLines (splitlines s) ++ [noticeLine]) := by
  have hlines := filter_lines_append_notice hs isShortLine rfl
  have hnotice : [noticeLine].filter isShortLine = [noticeLine] := by decide
  rw [hnotice] at hlines
  rw [ShortLineLoop, shortLines, hlines]
  rfl

theorem phraseLoop_append_notice : PhraseLoop (s ++ truncationNotice) ↔ ¬ Rare 3 (sentences s).phrasesWithNotice := by
  have hpieces := strip_pieces_append noEnd_noticeLine s blank_newlines trimmed_noticeLine.first
  have hnotice : ['\n', '\n'] ++ noticeLine = truncationNotice := rfl
  rw [hnotice] at hpieces
  rw [PhraseLoop, Sentences.phrases, hpieces]
  rfl

/-- The words of a text with the notice repeat themselves only in a text that is long enough for that to count. -/
theorem textWordsLoop_append_notice (hs : Text.strip s = s) :
    TextWordsLoop lower promptTemplate (s ++ truncationNotice) ↔
      WordsLoop lower promptTemplate (Text.split s ++ noticeWords) := by
  rw [TextWordsLoop, split_append_notice, and_iff_right_iff_imp]
  intro hloop
  have hfive : noticeWords.length = 5 := rfl
  have height : 8 ≤ (Text.split s ++ noticeWords).length := by
    rcases hloop with ⟨w, hcount, -⟩ | ⟨hlong, -⟩
    · have hle : ((Text.split s ++ noticeWords).map lower).count w ≤ (Text.split s ++ noticeWords).length := by
        rw [← List.length_map lower]
        exact List.count_le_length
      omega
    · have hthree : 3 ≤ ngramThreshold promptTemplate := by
        unfold ngramThreshold
        split <;> omega
      omega
  rw [List.length_append, hfive] at height
  have hwords := Lib.length_joined ' ' (Text.split s)
  have hle := Lib.length_joined_words_le (p := Text.isSpace) ' ' s
  have hsum := Lib.sum_take_le (fun w hw => (isWord_of_mem_split hw).1) (Nat.zero_le (Text.split s).length) le_rfl
  rw [← split_eq] at hle
  rw [List.take_length, List.take_zero, List.map_nil, List.sum_nil] at hsum
  have hne : s ≠ [] := by
    rintro rfl
    have hnil : (Text.split []).length = 0 := rfl
    omega
  have htrimmed : Lib.Trimmed Text.isSpace s := hs ▸ Lib.trimmed_trim s
  have hstrip : Text.strip (s ++ truncationNotice) = s ++ truncationNotice := by
    have hboth := Lib.trimmed_append htrimmed trimmed_noticeLine hne (by decide) ['\n', '\n']
    rw [List.append_assoc] at hboth
    have h := Lib.trim_eq (Lib.blank_nil (p := Text.isSpace)) hboth Lib.blank_nil
    rwa [List.append_nil, List.nil_append] at h
  have hlength : truncationNotice.length = 36 := rfl
  rw [hstrip, List.length_append, hlength]
  omega

theorem longLines_strip (s : List Char) : longLines (splitlines (Text.strip s)) = longLines (splitlines s) :=
  linesOf_strip (by decide) s

theorem shortLines_strip (s : List Char) : shortLines (splitlines (Text.strip s)) = shortLines (splitlines s) :=
  linesOf_strip rfl s

/-- What is detected in a text, stripped, with the notice. -/
theorem detectRepetition_append_notice (kept : List Char) :
    detectRepetition lower promptTemplate (Text.strip kept ++ truncationNotice) = false ↔
      ¬ HeadingLoop (Text.strip kept) ∧ Quiet lower promptTemplate kept := by
  have hs : Text.strip (Text.strip kept) = Text.strip kept := Lib.trim_trim kept
  rw [← Bool.not_eq_true, detectRepetition_iff, headingLoop_append_notice, longLineLoop_append_notice hs,
    textWordsLoop_append_notice hs, shortLineLoop_append_notice hs, phraseLoop_append_notice, longLines_strip,
    shortLines_strip, split_strip]
  constructor
  · intro h
    simp only [not_or, not_not] at h
    exact ⟨h.1, h.2.1, h.2.2.1, h.2.2.2.1, h.2.2.2.2⟩
  · rintro ⟨hheading, hquiet⟩
    simp only [not_or, not_not]
    exact ⟨hheading, hquiet.longLine, hquiet.words, hquiet.shortLine, hquiet.phrase⟩

/-- Where a short line recurs first, only the line of the notice can make one recur before it. -/
theorem LineCut.quiet_iff {i : ℕ} (h : LineCut lower promptTemplate text i) :
    Quiet lower promptTemplate (linesBefore text i) ↔ QuietLines lower promptTemplate text i := by
  have hone : ∀ line ∈ (splitlines text).take i, OneLine line := fun line hline =>
    oneLine_of_mem_splitlines (List.mem_of_mem_take hline)
  have hlong : longLines (splitlines (linesBefore text i)) = longLines ((splitlines text).take i) :=
    linesOf_joined (by decide) hone
  have hshort : shortLines (splitlines (linesBefore text i)) = shortLines ((splitlines text).take i) :=
    linesOf_joined rfl hone
  have hnotice : Rare 3 (shortLines ((splitlines text).take i) ++ [noticeLine]) ↔
      (shortLines ((splitlines text).take i)).count noticeLine ≤ 1 := by
    have hbefore : Rare 3 (shortLines ((splitlines text).take i)) := h.lostAt.before
    rw [Lib.rare_concat_iff hbefore, List.count_append, List.count_singleton_self]
    omega
  constructor
  · intro hquiet
    exact ⟨hlong ▸ hquiet.longLine, hquiet.words, hnotice.mp (hshort ▸ hquiet.shortLine), hquiet.phrase⟩
  · intro hquiet
    exact ⟨hlong.symm ▸ hquiet.longLine, hquiet.words, hshort.symm ▸ hnotice.mpr hquiet.notice, hquiet.phrase⟩

/-! ## Headings -/

theorem HeadingLoop.of_strip (h : HeadingLoop (Text.strip s)) : HeadingLoop s := by
  obtain ⟨b, hb, hlt⟩ := h
  exact ⟨b, hb, hlt.trans_le (length_occurrences_strip (exists_head_of_mem_blocks hb) s)⟩

theorem HeadingLoop.of_prefix (h : HeadingLoop s) (hpre : s <+: text) : HeadingLoop text := by
  obtain ⟨t, rfl⟩ := hpre
  obtain ⟨b, hb, hlt⟩ := h
  exact ⟨b, hb, hlt.trans_le (length_occurrences_le b s t)⟩

theorem HeadingLoop.of_lines {i : ℕ} (h : HeadingLoop (linesBefore text i)) : HeadingLoop text := by
  have hblocks : (blocks.all fun b => b.all fun c => !isLineBreak c) = true := by decide
  have hnonempty : ∀ b ∈ blocks, b ≠ [] := by decide
  obtain ⟨b, hb, hlt⟩ := h
  have hbreaks : ∀ c ∈ b, isLineBreak c = false := fun c hc => by
    simpa using List.all_eq_true.mp (List.all_eq_true.mp hblocks b hb) c hc
  exact ⟨b, hb, hlt.trans_le (length_occurrences_linesBefore hbreaks (hnonempty b hb) text i)⟩

/-! ## What is left of a text -/

theorem detectRepetition_kept {kept : List Char} (h : keptText lower promptTemplate text 2 = some kept) :
    detectRepetition lower promptTemplate (truncateAtRepetition lower promptTemplate text) = false ↔
      ¬ HeadingLoop (Text.strip kept) ∧ Quiet lower promptTemplate kept := by
  rw [truncateAtRepetition_of_some h]
  exact detectRepetition_append_notice kept

/-- Where no heading is cut out, none recurs in what is left. -/
theorem detectRepetition_kept_of_not {kept : List Char} (h : keptText lower promptTemplate text 2 = some kept)
    (hno : ¬ HeadingLoop text) (hkept : HeadingLoop kept → HeadingLoop text) :
    detectRepetition lower promptTemplate (truncateAtRepetition lower promptTemplate text) = false ↔
      Quiet lower promptTemplate kept := by
  rw [detectRepetition_kept h, and_iff_right fun hloop => hno (hkept hloop.of_strip)]

theorem WordsCut.settled_iff_quiet {i : ℕ} (h : WordsCut lower promptTemplate text i) :
    detectRepetition lower promptTemplate (truncateAtRepetition lower promptTemplate text) = false ↔
      Quiet lower promptTemplate (wordsBefore text i) :=
  detectRepetition_kept_of_not (keptText_of_wordsCut h) h.noHeading fun hloop =>
    hloop.of_prefix (List.take_prefix _ _)

theorem LineCut.settled_iff_quiet {i : ℕ} (h : LineCut lower promptTemplate text i) :
    detectRepetition lower promptTemplate (truncateAtRepetition lower promptTemplate text) = false ↔
      QuietLines lower promptTemplate text i :=
  (detectRepetition_kept_of_not (keptText_of_lineCut h) h.noHeading HeadingLoop.of_lines).trans h.quiet_iff

theorem SentenceCut.settled_iff_quiet {i : ℕ} (h : SentenceCut lower promptTemplate text i) :
    detectRepetition lower promptTemplate (truncateAtRepetition lower promptTemplate text) = false ↔
      Quiet lower promptTemplate (sentencesBefore text i) := by
  obtain ⟨q, hq, -, -⟩ := exists_sentencesBefore text (by simpa using h.lostAt.lt)
  exact detectRepetition_kept_of_not (keptText_of_sentenceCut h) h.noHeading fun hloop => hloop.of_prefix ⟨q, hq.symm⟩

/-- **No loop is detected in what is left of a text that is cut, if and only if nothing else recurs before the place of
the cut.** -/
theorem left_without_loop_iff (h : truncateAtRepetition lower promptTemplate text ≠ text) :
    detectRepetition lower promptTemplate (truncateAtRepetition lower promptTemplate text) = false ↔
      QuietBeforeCut lower promptTemplate text := by
  constructor
  · intro hno
    exact ⟨fun n hn => (detectRepetition_kept (keptText_of_headingCut hn)).mp hno,
      fun i hi => hi.settled_iff_quiet.mp hno, fun i hi => hi.settled_iff_quiet.mp hno,
      fun i hi => hi.settled_iff_quiet.mp hno⟩
  · intro hquiet
    have hcut : CutOut lower promptTemplate text := by
      by_contra hno
      exact h (truncateAtRepetition_of_none (keptText_eq_none_iff.mpr hno))
    obtain ⟨n, hn⟩ | ⟨i, hi⟩ | ⟨i, hi⟩ | ⟨i, hi⟩ := exists_cut hcut
    · exact (detectRepetition_kept (keptText_of_headingCut hn)).mpr (hquiet.heading n hn)
    · exact hi.settled_iff_quiet.mpr (hquiet.words i hi)
    · exact hi.settled_iff_quiet.mpr (hquiet.line i hi)
    · exact hi.settled_iff_quiet.mpr (hquiet.sentence i hi)

theorem left_without_loop_iff_headings :
    let text := "Header\nGoal: 1\nGoal: 2\nGoal: 3\nFooter".toList
    detectRepetition lowerAscii none (truncateAtRepetition lowerAscii none text) = false ↔
      QuietBeforeCut lowerAscii none text :=
  left_without_loop_iff (by decide +kernel)

/-- Before three headings a line of more than forty characters three times. -/
def linesAndHeadings : List Char := threeLongLines ++ "\nGoal: 1\nGoal: 2\nGoal: 3".toList

/-- The headings are cut out, and the long lines are left. -/
theorem long_lines_remain : truncateAtRepetition lowerAscii none linesAndHeadings ≠ linesAndHeadings ∧
    detectRepetition lowerAscii none (truncateAtRepetition lowerAscii none linesAndHeadings) = true := by
  decide +kernel

end LlmStore.Inference
