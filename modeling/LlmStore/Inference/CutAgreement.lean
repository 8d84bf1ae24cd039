import LlmStore.Inference.LoopAgreement
import LlmStore.Inference.TextPieces

/-!
# What is detected and what is cut out

A loop that is detected in a text is cut out of it, but for two kinds of texts (`detected_iff_cut_iff`): those in which
only a long line, a word or the wording of a sentence recurs, which no rule cuts out, and those that were cut before,
in which what recurs is the notice at their end, so that cutting them gives the same text again.
-/

namespace LlmStore.Inference

open Lib (Rare LosesAt windows)

variable (lower : List Char → List Char) (promptTemplate : Option String) (text : List Char)

/-- The content of a choice, as the repetition check reads it. -/
def contentOf (choice : List (String × Json)) : Except PyError Json :=
  ((choice.lookup "message").getD (.obj [])).get "content" (.str [])

/-- The repetition check marks a choice as cut that it leaves the whole text. -/
def MarkedWhole : Prop :=
  ∃ choice marked, contentOf choice = .ok (.str text) ∧
    choice.lookup "finish_reason" ≠ some (.str "length".toList) ∧ antiLoop lower promptTemplate choice = .ok marked ∧
    marked.lookup "finish_reason" = some (.str "length".toList) ∧ contentOf marked = .ok (.str text)

/-- What recurs is the notice at the end of the text: its five words, after words with one space between two of them, or
its line, after lines that end in `\n`. -/
def CutAtNotice : Prop :=
  ∃ s, text = s ++ truncationNotice ∧ Text.strip s = s ∧
    ((Lib.Tight Text.isSpace s ∧ WordsCut lower promptTemplate text (Text.split s).length) ∨
      ((∀ c ∈ s, isLineBreak c = true → c = '\n') ∧ LineCut lower promptTemplate text ((splitlines s).length + 1)))

/-- A long line, a word or the wording of a sentence recurs. -/
def OutOfReach : Prop :=
  LongLineLoop text ∨ (40 ≤ (Text.strip text).length ∧ WordLoop lower (Text.split text)) ∨ PhraseLoop text

variable {lower promptTemplate text} {s : List Char}

/-! ## The notice -/

/-- The line of the notice. -/
def noticeLine : List Char := "[Truncated due to repetition loop]".toList

/-- The words of the notice. -/
def noticeWords : List (List Char) := ["[Truncated", "due", "to", "repetition", "loop]"].map String.toList

theorem truncationNotice_eq : truncationNotice = '\n' :: '\n' :: noticeLine := rfl

theorem noEnd_noticeLine : NoEnd noticeLine := by
  have h : (noticeLine.all fun c => !endsSentence c) = true := by decide
  exact fun c hc => by simpa using List.all_eq_true.mp h c hc

theorem trimmed_noticeLine : Lib.Trimmed Text.isSpace noticeLine := by
  have hfirst : noticeLine.head? = some '[' := rfl
  have hlast : noticeLine.getLast? = some ']' := by decide
  refine ⟨fun c hc => ?_, fun c hc => ?_⟩
  · obtain rfl := Option.some.inj (hfirst.symm.trans hc)
    rfl
  · obtain rfl := Option.some.inj (hlast.symm.trans hc)
    rfl

theorem blank_newlines : Lib.Blank Text.isSpace ['\n', '\n'] := fun c hc => by
  obtain rfl : c = '\n' := by simpa using hc
  rfl

/-- No heading begins with a space. -/
theorem exists_head_of_mem_blocks {block : List Char} (h : block ∈ blocks) :
    ∃ c ∈ block.head?, Text.isSpace c = false := by
  have hall : (blocks.all fun block => block.head?.any fun c => !Text.isSpace c) = true := by decide
  obtain ⟨c, hc, hnot⟩ := (Option.any_eq_true _ _).mp (List.all_eq_true.mp hall block h)
  exact ⟨c, hc, by simpa using hnot⟩

theorem split_append_notice (s : List Char) : Text.split (s ++ truncationNotice) = Text.split s ++ noticeWords := by
  have hnotice : Text.split truncationNotice = noticeWords := by decide +kernel
  rw [split_eq, Lib.words_append_of_between (Lib.betweenWords_of_head _ _), ← split_eq, ← split_eq, hnotice]
  intro c hc
  obtain rfl : '\n' = c := Option.some.inj hc
  rfl

theorem splitlines_append_notice (hs : Text.strip s = s) (hne : s ≠ []) :
    splitlines (s ++ truncationNotice) = splitlines s ++ [[], noticeLine] := by
  have hnotice : splitlines ('\n' :: noticeLine) = [[], noticeLine] := by decide +kernel
  have hlast : ∀ c ∈ s.getLast?, isLineBreak c = false := fun c hc => by
    rw [← hs] at hc
    exact not_isLineBreak_of_not_isSpace ((Lib.trimmed_trim s).last c hc)
  rw [truncationNotice_eq, splitlines_append_newline hne hlast, hnotice]

theorem not_shortLineLoop_notice : ¬ ShortLineLoop truncationNotice := by
  have hlines : shortLines (splitlines truncationNotice) = [noticeLine] := by decide +kernel
  rw [ShortLineLoop, hlines, not_not, Lib.rare_iff]
  intro x
  exact Nat.lt_of_le_of_lt List.count_le_length (by decide)

theorem length_strip_le (s : List Char) : (Text.strip s).length ≤ s.length := by
  obtain ⟨l, r, -, -, hs⟩ := Lib.exists_trim Text.isSpace s
  conv_rhs => rw [hs]
  rw [strip_eq]
  simp only [List.length_append]
  omega

/-- A part of the text after what is kept is a part of the notice, where cutting the text gives it again. -/
theorem exists_notice_suffix {kept rest : List Char} (h : Text.strip kept ++ truncationNotice = kept ++ rest) :
    ∃ t, truncationNotice = t ++ rest := by
  rcases List.append_eq_append_iff.mp h with ⟨t, -, ht⟩ | ⟨t, ht, hrest⟩
  · exact ⟨t, ht⟩
  · have hle := length_strip_le kept
    have hlength := congrArg List.length ht
    rw [List.length_append] at hlength
    obtain rfl : t = [] := List.length_eq_zero_iff.mp (by omega)
    exact ⟨[], by rw [List.nil_append, hrest, List.nil_append]⟩

/-! ## Texts that cutting gives again -/

theorem HeadingCut.ne {n : ℕ} (h : HeadingCut text n) : Text.strip (text.take n) ++ truncationNotice ≠ text := by
  intro heq
  obtain ⟨before, block, after, hblocks, -, hn⟩ := h
  have hmem : block ∈ blocks := by simp [hblocks]
  have hcolon : ∀ b ∈ blocks, ':' ∈ b := by decide
  have hpre := prefix_of_mem_occurrences (List.mem_of_getElem? hn)
  obtain ⟨t, ht⟩ := exists_notice_suffix (heq.trans (List.take_append_drop n text).symm)
  have hnotice : ':' ∈ truncationNotice := by
    rw [ht]
    exact List.mem_append_right _ (hpre.subset (hcolon block hmem))
  exact absurd hnotice (by decide)

theorem SentenceCut.ne {i : ℕ} (h : SentenceCut lower promptTemplate text i) :
    Text.strip (sentencesBefore text i) ++ truncationNotice ≠ text := by
  intro heq
  obtain ⟨q, hq, ⟨c, hc, hend⟩, -⟩ := exists_sentencesBefore text (by simpa using h.lostAt.lt)
  obtain ⟨t, ht⟩ := exists_notice_suffix (heq.trans hq)
  have hmem : c ∈ '\n' :: '\n' :: noticeLine := by
    rw [← truncationNotice_eq, ht]
    exact List.mem_append_right _ hc
  rw [List.mem_cons, List.mem_cons] at hmem
  obtain rfl | rfl | hmem := hmem
  · cases hend
  · cases hend
  · rw [noEnd_noticeLine c hmem] at hend
    cases hend

/-- The words before those of the notice are all there is before it, if that is tight. -/
theorem wordsBefore_notice (hs : Text.strip s = s) (htight : Lib.Tight Text.isSpace s) :
    wordsBefore (s ++ truncationNotice) (Text.split s).length = s := by
  have hlength : s.length = ([' '].intercalate (Text.split s)).length := by
    rcases eq_or_ne s [] with rfl | hne
    · rfl
    · obtain ⟨x, hx⟩ : ∃ x, x ∈ s.getLast? := ⟨_, List.getLast?_eq_some_getLast hne⟩
      refine (Lib.length_of_tight ' ' htight).2 ⟨x, hx, (Lib.trimmed_trim s).last x ?_⟩
      rwa [← strip_eq, hs]
  rw [wordsBefore, split_append_notice, List.take_left, ← hlength, List.take_left]

/-- Words are cut out again exactly if they are those of the notice and the text before it is tight. -/
theorem WordsCut.eq_iff {i : ℕ} (h : WordsCut lower promptTemplate text i) :
    Text.strip (wordsBefore text i) ++ truncationNotice = text ↔ ∃ s, text = s ++ truncationNotice ∧
      Text.strip s = s ∧ Lib.Tight Text.isSpace s ∧ (Text.split s).length = i := by
  constructor
  · intro heq
    obtain ⟨s, hs⟩ : ∃ s, s = Text.strip (wordsBefore text i) := ⟨_, rfl⟩
    rw [← hs] at heq
    have hlt := h.lostAt.lt
    have hwords : Text.split text = Text.split s ++ noticeWords := by rw [← heq, split_append_notice]
    have hfive : noticeWords.length = 5 := rfl
    rw [Lib.length_windows, hwords, List.length_append, hfive] at hlt
    have htake : (Text.split text).take i = (Text.split s).take i := by
      rw [hwords, List.take_append_of_le_length (by omega)]
    have hkept : s.length ≤ ([' '].intercalate ((Text.split s).take i)).length := by
      calc s.length = (Text.strip (wordsBefore text i)).length := congrArg List.length hs
        _ ≤ (wordsBefore text i).length := length_strip_le _
        _ ≤ _ := by
          rw [wordsBefore, htake]
          exact List.length_take_le _ _
    have hjoined := Lib.length_joined ' ' ((Text.split s).take i)
    have hall := Lib.length_joined ' ' (Text.split s)
    have hle := Lib.length_joined_words_le (p := Text.isSpace) ' ' s
    have hne : ∀ w ∈ Text.split s, w ≠ [] := fun w hw => (isWord_of_mem_split hw).1
    have hi : i ≤ (Text.split s).length := by omega
    have hsum := Lib.sum_take_le hne hi le_rfl
    rw [← split_eq] at hle
    rw [List.take_length] at hsum
    rw [List.length_take, min_eq_left hi] at hjoined
    refine ⟨s, heq.symm, hs ▸ Lib.trim_trim _, Lib.tight_of_length ' ' ?_, by omega⟩
    rw [← split_eq]
    omega
  · rintro ⟨s, rfl, hs, htight, rfl⟩
    rw [wordsBefore_notice hs htight, hs]

/-- The line with which a short line recurs is a short line. -/
theorem exists_shortLine {lines : List (List Char)} {i : ℕ}
    (h : LosesAt (fun lines => Rare 3 (shortLines lines)) lines i) :
    ∃ line, lines[i]? = some line ∧ isShortLine (Text.strip line) = true := by
  have hlt := h.lt
  refine ⟨lines[i], List.getElem?_eq_getElem hlt, ?_⟩
  by_contra hnot
  refine h.after ?_
  rw [List.take_succ_eq_append_getElem hlt, shortLines, List.map_append, List.filter_append, List.map_singleton,
    List.filter_singleton, (Bool.not_eq_true _).mp hnot]
  simpa [shortLines] using h.before

theorem solid_joined (lines : List (List Char)) : solid (['\n'].intercalate lines) = (lines.map solid).flatten := by
  induction lines with
  | nil => rfl
  | cons line lines ih =>
    rcases eq_or_ne lines [] with rfl | hne
    · simp
    · rw [Lib.joined_cons hne, solid_append, List.map_cons, List.flatten_cons, ← ih]
      rfl

theorem solid_strip (s : List Char) : solid (Text.strip s) = solid s := by
  obtain ⟨l, r, hl, hr, hs⟩ := Lib.exists_trim Text.isSpace s
  conv_rhs =>
    rw [hs, solid_append, solid_append, solid_of_blank hl, solid_of_blank hr, List.nil_append, List.append_nil]
  rfl

theorem joined_concat_nil {lines : List (List Char)} (hne : lines ≠ []) :
    ['\n'].intercalate (lines ++ [[]]) = ['\n'].intercalate lines ++ ['\n'] := by
  induction lines with
  | nil => exact absurd rfl hne
  | cons line lines ih =>
    rcases eq_or_ne lines [] with rfl | hlines
    · simp
    · rw [List.cons_append, Lib.joined_cons (by simp), Lib.joined_cons hlines, ih hlines, List.append_assoc,
        List.cons_append]

/-- Before the line of the notice there are the lines of the text and an empty one. -/
theorem strip_linesBefore_notice (hs : Text.strip s = s) (hne : s ≠ []) :
    Text.strip (linesBefore (s ++ truncationNotice) ((splitlines s).length + 1)) = Text.strip (joinedLines s) := by
  have hnil : splitlines s ≠ [] := fun h => hne (splitlines_eq_nil_iff.mp h)
  have hblank : Lib.Blank Text.isSpace ['\n'] := fun c hc => by
    rw [List.mem_singleton.mp hc]
    rfl
  rw [linesBefore, splitlines_append_notice hs hne, List.take_length_add_append, List.take_succ_cons, List.take_zero,
    joined_concat_nil hnil]
  exact Lib.trim_append_of_blank_right _ hblank

/-- A line is blank if the lines before it have all that is in the lines. -/
theorem strip_eq_nil_of_solid {lines : List (List Char)} {line : List Char} {i : ℕ} (hline : lines[i]? = some line)
    (h : ((lines.take i).map solid).flatten = (lines.map solid).flatten) : Text.strip line = [] := by
  have hsplit : lines = lines.take i ++ line :: lines.drop (i + 1) := by
    obtain ⟨_, rfl⟩ := List.getElem?_eq_some_iff.mp hline
    rw [List.getElem_cons_drop, List.take_append_drop]
  conv_rhs at h => rw [hsplit]
  rw [List.map_append, List.flatten_append, List.map_cons, List.flatten_cons] at h
  have hnil := List.append_eq_nil_iff.mp (List.append_right_eq_self.mp h.symm)
  have hblank : Lib.Blank Text.isSpace line := fun c hc => by
    simpa using List.filter_eq_nil_iff.mp hnil.1 c hc
  exact Lib.trim_eq_nil_iff.mpr hblank

/-- A short line that is cut out again is that of the notice. -/
theorem index_of_noticeLine {i : ℕ} (hs : Text.strip s = s) (hne : s ≠ [])
    (hlost : LosesAt (fun lines => Rare 3 (shortLines lines)) (splitlines (s ++ truncationNotice)) i)
    (hkept : Text.strip (linesBefore (s ++ truncationNotice) i) = s) : i = (splitlines s).length + 1 := by
  have hlines := splitlines_append_notice hs hne
  obtain ⟨line, hline, hshort⟩ := exists_shortLine hlost
  have hempty : Text.strip line ≠ [] := by
    intro hempty
    rw [hempty] at hshort
    cases hshort
  rw [hlines] at hline
  rcases Nat.lt_trichotomy i (splitlines s).length with hlt | rfl | hgt
  · -- The line would be part of what is kept, but what is kept has only what is in the lines before it.
    rw [List.getElem?_append_left hlt] at hline
    refine absurd (strip_eq_nil_of_solid hline ?_) hempty
    rw [← solid_joined (splitlines s), ← joinedLines, solid_joinedLines]
    conv_rhs => rw [← hkept, solid_strip, linesBefore, solid_joined, hlines, List.take_append_of_le_length hlt.le]
  · rw [List.getElem?_append_right le_rfl, Nat.sub_self] at hline
    obtain rfl : [] = line := Option.some.inj hline
    exact absurd rfl hempty
  · have hlt := hlost.lt
    rw [hlines, List.length_append] at hlt
    have htwo : ([[], noticeLine] : List (List Char)).length = 2 := rfl
    omega

/-- A line is cut out again exactly if it is that of the notice and the lines before it end in `\n`. -/
theorem LineCut.eq_iff {i : ℕ} (h : LineCut lower promptTemplate text i) :
    Text.strip (linesBefore text i) ++ truncationNotice = text ↔ ∃ s, text = s ++ truncationNotice ∧
      Text.strip s = s ∧ (∀ c ∈ s, isLineBreak c = true → c = '\n') ∧ (splitlines s).length + 1 = i := by
  have hloop : ShortLineLoop text := shortLineLoop_of_losesAt h.lostAt
  have hne : ∀ {s}, text = s ++ truncationNotice → s ≠ [] := by
    rintro s hs rfl
    rw [hs] at hloop
    exact not_shortLineLoop_notice hloop
  constructor
  · intro heq
    obtain ⟨s, hkept⟩ : ∃ s, Text.strip (linesBefore text i) = s := ⟨_, rfl⟩
    have hs : Text.strip s = s := hkept ▸ Lib.trim_trim _
    rw [hkept] at heq
    have hlost := h.lostAt
    rw [← heq] at hlost hkept
    have hi := index_of_noticeLine hs (hne heq.symm) hlost hkept
    have hjoined := strip_linesBefore_notice hs (hne heq.symm)
    rw [← hi, hkept] at hjoined
    refine ⟨s, heq.symm, hs, fun c hc => ?_, hi.symm⟩
    exact (strip_joinedLines_iff s).mp (hjoined.symm.trans hs.symm) c (by rwa [hs])
  · rintro ⟨s, htext, hs, hbreaks, rfl⟩
    have hjoined : Text.strip (joinedLines s) = Text.strip s := (strip_joinedLines_iff s).mpr (by rwa [hs])
    rw [htext, strip_linesBefore_notice hs (hne htext), hjoined, hs]

/-! ## Agreement -/

theorem WordsCut.cutOut {i : ℕ} (h : WordsCut lower promptTemplate text i) : CutOut lower promptTemplate text :=
  .inr (.inl ⟨h.loop, h.lostAt.not (Lib.rare_prefixClosed _)⟩)

theorem CutAtNotice.cutOut (h : CutAtNotice lower promptTemplate text) : CutOut lower promptTemplate text := by
  obtain ⟨s, -, -, ⟨-, h⟩ | ⟨-, h⟩⟩ := h
  · exact h.cutOut
  · exact .inr (.inr (.inl (shortLineLoop_of_losesAt h.lostAt)))

/-- A text stays as it is where nothing is cut out of it and where the notice is cut out of it. -/
theorem truncateAtRepetition_eq_iff : truncateAtRepetition lower promptTemplate text = text ↔
    ¬ CutOut lower promptTemplate text ∨ CutAtNotice lower promptTemplate text := by
  by_cases hcut : CutOut lower promptTemplate text
  · rw [or_iff_right (not_not.mpr hcut)]
    constructor
    · intro heq
      obtain ⟨n, h⟩ | ⟨i, h⟩ | ⟨i, h⟩ | ⟨i, h⟩ := exists_cut hcut
      · rw [truncateAtRepetition_of_some (keptText_of_headingCut h)] at heq
        exact absurd heq h.ne
      · rw [truncateAtRepetition_of_some (keptText_of_wordsCut h), h.eq_iff] at heq
        obtain ⟨s, htext, hs, htight, rfl⟩ := heq
        exact ⟨s, htext, hs, .inl ⟨htight, h⟩⟩
      · rw [truncateAtRepetition_of_some (keptText_of_lineCut h), h.eq_iff] at heq
        obtain ⟨s, htext, hs, hbreaks, rfl⟩ := heq
        exact ⟨s, htext, hs, .inr ⟨hbreaks, h⟩⟩
      · rw [truncateAtRepetition_of_some (keptText_of_sentenceCut h)] at heq
        exact absurd heq h.ne
    · rintro ⟨s, htext, hs, ⟨htight, h⟩ | ⟨hbreaks, h⟩⟩
      · rw [truncateAtRepetition_of_some (keptText_of_wordsCut h), h.eq_iff]
        exact ⟨s, htext, hs, htight, rfl⟩
      · rw [truncateAtRepetition_of_some (keptText_of_lineCut h), h.eq_iff]
        exact ⟨s, htext, hs, hbreaks, rfl⟩
  · exact iff_of_true (truncateAtRepetition_of_none (keptText_eq_none_iff.mpr hcut)) (.inl hcut)

/-- What is detected is cut out or is out of reach of what cuts. -/
theorem detectRepetition_iff_cutOut : detectRepetition lower promptTemplate text = true ↔
    CutOut lower promptTemplate text ∨ OutOfReach lower text := by
  constructor
  · intro h
    obtain h | h | ⟨hlength, h | h⟩ | h | h := detectRepetition_iff.mp h
    · exact .inl (.inl h)
    · exact .inr (.inl h)
    · exact .inr (.inr (.inl ⟨hlength, h⟩))
    · exact .inl (.inr (.inl ⟨⟨hlength, .inr h⟩, h.2⟩))
    · exact .inl (.inr (.inr (.inl h)))
    · exact .inr (.inr (.inr h))
  · rintro (h | h | ⟨hlength, h⟩ | h)
    · exact h.detected
    · exact detectRepetition_iff.mpr (.inr (.inl h))
    · exact detectRepetition_iff.mpr (.inr (.inr (.inl ⟨hlength, .inl h⟩)))
    · exact detectRepetition_iff.mpr (.inr (.inr (.inr (.inr h))))

/-- A choice is marked as cut with its whole text where a loop is detected that is not cut out. -/
theorem markedWhole_iff : MarkedWhole lower promptTemplate text ↔
    detectRepetition lower promptTemplate text = true ∧ truncateAtRepetition lower promptTemplate text = text := by
  have hread : ∀ {choice}, contentOf choice = .ok (.str text) → antiLoop lower promptTemplate choice =
      .ok (if detectRepetition lower promptTemplate text then
        cutChoice (truncateAtRepetition lower promptTemplate text) choice else choice) := by
    intro choice h
    rw [antiLoop, ← contentOf, h]
    by_cases hloop : detectRepetition lower promptTemplate text = true
    · simp only [bind, Except.bind, repeatedText_str, if_pos hloop]
      rfl
    · simp only [bind, Except.bind, repeatedText_str, if_neg hloop]
      rfl
  have hcut : ∀ {cut : List Char} {choice}, (cutChoice cut choice).lookup "finish_reason" =
      some (.str "length".toList) ∧ contentOf (cutChoice cut choice) = .ok (.str cut) := by
    intro cut choice
    constructor
    · simp [cutChoice, Json.lookup_setItem]
    · simp [contentOf, cutChoice, Json.lookup_setItem, Json.get]
  constructor
  · rintro ⟨choice, marked, hcontent, hfinish, hmarked, hlength, hwhole⟩
    rw [hread hcontent] at hmarked
    by_cases hloop : detectRepetition lower promptTemplate text = true
    · rw [if_pos hloop] at hmarked
      obtain rfl := Except.ok.inj hmarked
      rw [hcut.2] at hwhole
      exact ⟨hloop, Json.str.inj (Except.ok.inj hwhole)⟩
    · rw [if_neg hloop] at hmarked
      obtain rfl := Except.ok.inj hmarked
      exact absurd hlength hfinish
  · rintro ⟨hloop, hwhole⟩
    let choice : List (String × Json) := [("message", .obj [("content", .str text)])]
    have hcontent : contentOf choice = .ok (.str text) := rfl
    refine ⟨choice, cutChoice text choice, hcontent, ?_, ?_, hcut.1, hcut.2⟩
    · simp [choice, List.lookup_cons]
    · rw [hread hcontent, if_pos hloop, hwhole]

/-- **A loop is detected in a text exactly if cutting changes it, and no choice is marked as cut with its whole text, if
and only if something that is cut out recurs where a long line, a word or the wording of a sentence does, and what
recurs first is not the notice at the end of the text.** -/
theorem detected_iff_cut_iff (lower : List Char → List Char) (promptTemplate : Option String) (text : List Char) :
    ((detectRepetition lower promptTemplate text = true ↔ truncateAtRepetition lower promptTemplate text ≠ text) ∧
        ¬ MarkedWhole lower promptTemplate text) ↔
      (OutOfReach lower text → CutOut lower promptTemplate text) ∧ ¬ CutAtNotice lower promptTemplate text := by
  have hnotice : CutAtNotice lower promptTemplate text → CutOut lower promptTemplate text := CutAtNotice.cutOut
  rw [markedWhole_iff, Ne, truncateAtRepetition_eq_iff, detectRepetition_iff_cutOut]
  by_cases hn : CutAtNotice lower promptTemplate text
  · simp [hn, hnotice hn]
  · by_cases hc : CutOut lower promptTemplate text
    · simp [hn, hc]
    · simp [hn, hc]

/-- A line of more than forty characters three times. -/
def threeLongLines : List Char :=
  ['\n'].intercalate (List.replicate 3
    "This is a very long line that should be detected if it repeats multiple times in the response.".toList)

/-- A long line three times is detected, and is the text that is left. -/
theorem long_lines_left : detectRepetition lowerAscii none threeLongLines = true ∧
    truncateAtRepetition lowerAscii none threeLongLines = threeLongLines ∧
    ¬ ((detectRepetition lowerAscii none threeLongLines = true ↔
        truncateAtRepetition lowerAscii none threeLongLines ≠ threeLongLines) ∧
      ¬ MarkedWhole lowerAscii none threeLongLines) := by
  have hboth : detectRepetition lowerAscii none threeLongLines = true ∧
      truncateAtRepetition lowerAscii none threeLongLines = threeLongLines := by decide +kernel
  obtain ⟨hdetected, hleft⟩ := hboth
  exact ⟨hdetected, hleft, fun h => h.1.mp hdetected hleft⟩

end LlmStore.Inference
