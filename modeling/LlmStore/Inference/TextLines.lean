import LlmStore.Inference.LoopRules

/-!
# The lines of a text

A text is read line by line (`lines_induction`). Its lines put together again are the text with each line break as
`\n`: the same characters that are no spaces (`solid_joinedLines`), and the same text if it has no other line break
inside (`strip_joinedLines_iff`). The lines of a kind are those of the stripped text (`linesOf_strip`).
-/

namespace LlmStore.Inference

/-- A text that is one line. -/
def OneLine (w : List Char) : Prop := ∀ c ∈ w, isLineBreak c = false

/-- What ends a line before `rest`: `\r\n`, or a character that is not the beginning of that. -/
def LineEnd (e rest : List Char) : Prop :=
  e = ['\r', '\n'] ∨ ∃ c, e = [c] ∧ isLineBreak c = true ∧ ¬ (c = '\r' ∧ rest.head? = some '\n')

/-- The lines of a text, with `\n` between two of them. -/
def joinedLines (text : List Char) : List Char := ['\n'].intercalate (splitlines text)

variable {w e s a b : List Char}

theorem isSpace_of_isLineBreak {c : Char} (h : isLineBreak c = true) : Text.isSpace c = true := by
  simp only [isLineBreak, Text.isSpace, Bool.or_eq_true, Bool.and_eq_true, decide_eq_true_eq, beq_iff_eq] at h ⊢
  omega

theorem not_isLineBreak_of_not_isSpace {c : Char} (h : Text.isSpace c = false) : isLineBreak c = false := by
  by_contra hbreak
  rw [isSpace_of_isLineBreak ((Bool.not_eq_false _).mp hbreak)] at h
  cases h

/-! ## Line by line -/

theorem splitlinesFrom_of_oneLine (hw : OneLine w) (line s : List Char) :
    splitlinesFrom line (w ++ s) = splitlinesFrom (line ++ w) s := by
  induction w generalizing line with
  | nil => rw [List.nil_append, List.append_nil]
  | cons c w ih =>
    have hc : isLineBreak c = false := hw c (by simp)
    have hr : c ≠ '\r' := by
      rintro rfl
      cases hc
    rw [List.cons_append, splitlinesFrom, hc, if_neg Bool.false_ne_true, ih fun d hd => hw d (by simp [hd])]
    · rw [List.append_assoc, List.singleton_append]
    · rintro - h -
      exact hr h

theorem splitlinesFrom_lineEnd (he : LineEnd e s) (line : List Char) :
    splitlinesFrom line (e ++ s) = line :: splitlines s := by
  obtain rfl | ⟨c, rfl, hc, hnot⟩ := he
  · cases line <;> rfl
  · rw [List.singleton_append, splitlinesFrom, if_pos hc]
    · rfl
    · rintro t rfl rfl
      exact hnot ⟨rfl, rfl⟩

theorem splitlines_nil : splitlines [] = [] := rfl

theorem splitlines_oneLine (hw : OneLine w) (hne : w ≠ []) : splitlines w = [w] := by
  have h := splitlinesFrom_of_oneLine hw [] []
  rw [List.append_nil, List.nil_append] at h
  obtain ⟨c, w, rfl⟩ := List.exists_cons_of_ne_nil hne
  exact h

theorem splitlines_line (hw : OneLine w) (he : LineEnd e s) : splitlines (w ++ (e ++ s)) = w :: splitlines s := by
  rw [splitlines, splitlinesFrom_of_oneLine hw, List.nil_append, splitlinesFrom_lineEnd he]

theorem LineEnd.ne_nil (he : LineEnd e s) : e ≠ [] := by
  obtain rfl | ⟨c, rfl, -, -⟩ := he <;> exact List.cons_ne_nil _ _

theorem LineEnd.breaks (he : LineEnd e s) {c : Char} (hc : c ∈ e) : isLineBreak c = true := by
  obtain rfl | ⟨d, rfl, hd, -⟩ := he
  · obtain rfl | rfl : c = '\r' ∨ c = '\n' := by simpa using hc
    · rfl
    · rfl
  · rwa [List.mem_singleton.mp hc]

/-- A text that does not end in a line break goes on after the end of its first line. -/
theorem LineEnd.rest (he : LineEnd e s) (hlast : ∀ c ∈ (w ++ (e ++ s)).getLast?, isLineBreak c = false) :
    s ≠ [] ∧ (w ++ (e ++ s)).getLast? = s.getLast? := by
  have hs : s ≠ [] := by
    rintro rfl
    rw [List.append_nil, List.getLast?_append_of_ne_nil _ he.ne_nil, List.getLast?_eq_some_getLast he.ne_nil] at hlast
    have h := hlast _ rfl
    rw [he.breaks (List.getLast_mem he.ne_nil)] at h
    cases h
  refine ⟨hs, ?_⟩
  rw [List.getLast?_append_of_ne_nil _ (List.append_ne_nil_of_right_ne_nil _ hs), List.getLast?_append_of_ne_nil _ hs]

/-- A text is empty, or one line, or begins with a line and its end. -/
theorem lines_induction {motive : List Char → Prop} (nil : motive []) (last : ∀ w, OneLine w → w ≠ [] → motive w)
    (line : ∀ w e s, OneLine w → LineEnd e s → motive s → motive (w ++ (e ++ s))) (text : List Char) : motive text := by
  induction hn : text.length using Nat.strong_induction_on generalizing text with
  | _ n ih =>
    have hsplit := List.takeWhile_append_dropWhile (p := (! isLineBreak ·)) (l := text)
    have hline : OneLine (text.takeWhile (! isLineBreak ·)) := fun c hc => by simpa using List.mem_takeWhile_imp hc
    cases hrest : text.dropWhile (! isLineBreak ·) with
    | nil =>
      rw [hrest, List.append_nil] at hsplit
      rcases eq_or_ne text [] with rfl | hne
      · exact nil
      · exact last text (hsplit ▸ hline) hne
    | cons c s =>
      have hc : isLineBreak c = true := by
        simpa using Lib.not_of_head_dropWhile (p := (! isLineBreak ·)) (s := text) (x := c) (by rw [hrest]; rfl)
      have hlength : s.length < n := by
        have h := congrArg List.length hsplit
        rw [hrest, List.length_append, List.length_cons] at h
        omega
      rw [hrest] at hsplit
      rw [← hsplit]
      by_cases hcrlf : c = '\r' ∧ s.head? = some '\n'
      · obtain ⟨rfl, hs⟩ := hcrlf
        obtain ⟨s, rfl⟩ := List.head?_eq_some_iff.mp hs
        rw [List.length_cons] at hlength
        exact line _ ['\r', '\n'] s hline (.inl rfl) (ih s.length (by omega) s rfl)
      · exact line _ [c] s hline (.inr ⟨c, rfl, hc, hcrlf⟩) (ih s.length hlength s rfl)

theorem oneLine_of_mem_splitlines {text : List Char} (h : w ∈ splitlines text) : OneLine w := by
  induction text using lines_induction with
  | nil => cases h
  | last v hv hne =>
    rw [splitlines_oneLine hv hne, List.mem_singleton] at h
    exact h ▸ hv
  | line v e s hv he ih =>
    rw [splitlines_line hv he, List.mem_cons] at h
    rcases h with rfl | h
    · exact hv
    · exact ih h

theorem splitlines_eq_nil_iff {text : List Char} : splitlines text = [] ↔ text = [] := by
  constructor
  · intro h
    induction text using lines_induction with
    | nil => rfl
    | last v hv hne =>
      rw [splitlines_oneLine hv hne] at h
      cases h
    | line v e s hv he ih =>
      rw [splitlines_line hv he] at h
      cases h
  · rintro rfl
    rfl

/-! ## The lines put together -/

theorem joinedLines_oneLine (hw : OneLine w) : joinedLines w = w := by
  rcases eq_or_ne w [] with rfl | hne
  · rfl
  · rw [joinedLines, splitlines_oneLine hw hne, List.intercalate_singleton]

theorem joinedLines_line (hw : OneLine w) (he : LineEnd e s) (hs : s ≠ []) :
    joinedLines (w ++ (e ++ s)) = w ++ '\n' :: joinedLines s := by
  rw [joinedLines, splitlines_line hw he, Lib.joined_cons fun h => hs (splitlines_eq_nil_iff.mp h), joinedLines]

theorem joinedLines_line_nil (hw : OneLine w) (he : LineEnd e []) : joinedLines (w ++ (e ++ [])) = w := by
  rw [joinedLines, splitlines_line hw he, splitlines_nil, List.intercalate_singleton]

/-- The characters that are no spaces. -/
def solid (s : List Char) : List Char := s.filter (! Text.isSpace ·)

theorem solid_append (a b : List Char) : solid (a ++ b) = solid a ++ solid b := List.filter_append _ _

theorem solid_of_blank (h : Lib.Blank Text.isSpace s) : solid s = [] :=
  List.filter_eq_nil_iff.mpr fun c hc => by simp [h c hc]

theorem solid_lineEnd (he : LineEnd e s) : solid e = [] :=
  solid_of_blank fun _ hc => isSpace_of_isLineBreak (he.breaks hc)

/-- Putting the lines together keeps the characters that are no spaces. -/
theorem solid_joinedLines (text : List Char) : solid (joinedLines text) = solid text := by
  induction text using lines_induction with
  | nil => rfl
  | last w hw hne => rw [joinedLines_oneLine hw]
  | line w e s hw he ih =>
    rcases eq_or_ne s [] with rfl | hs
    · rw [joinedLines_line_nil hw he, solid_append, solid_append, solid_lineEnd he]
      exact (List.append_nil _).symm
    · rw [joinedLines_line hw he hs, solid_append, solid_append, solid_append, solid_lineEnd he, ← ih]
      rfl

theorem isLineBreak_joinedLines {text : List Char} {c : Char} (hc : c ∈ joinedLines text)
    (hbreak : isLineBreak c = true) : c = '\n' := by
  have hline : ∀ {w : List Char}, OneLine w → c ∉ w := fun hw hmem => by
    rw [hw c hmem] at hbreak
    cases hbreak
  induction text using lines_induction with
  | nil => cases hc
  | last w hw hne =>
    rw [joinedLines_oneLine hw] at hc
    exact absurd hc (hline hw)
  | line w e s hw he ih =>
    rcases eq_or_ne s [] with rfl | hs
    · rw [joinedLines_line_nil hw he] at hc
      exact absurd hc (hline hw)
    · rw [joinedLines_line hw he hs, List.mem_append, List.mem_cons] at hc
      rcases hc with hc | hc | hc
      · exact absurd hc (hline hw)
      · exact hc
      · exact ih hc

/-- A text that does not end in a line break is its lines put together if it has no line break other than `\n`. -/
theorem joinedLines_eq_self {text : List Char} (hbreaks : ∀ c ∈ text, isLineBreak c = true → c = '\n')
    (hlast : ∀ c ∈ text.getLast?, isLineBreak c = false) : joinedLines text = text := by
  induction text using lines_induction with
  | nil => rfl
  | last w hw hne => exact joinedLines_oneLine hw
  | line w e s hw he ih =>
    have hnewline : ∀ c ∈ e, c = '\n' := fun c hc => hbreaks c (by simp [hc]) (he.breaks hc)
    obtain ⟨hs, hrest⟩ := he.rest hlast
    have hone : e = ['\n'] := by
      obtain rfl | ⟨c, rfl, -, -⟩ := he
      · cases hnewline '\r' (by simp)
      · rw [hnewline c (by simp)]
    rw [joinedLines_line hw he hs, ih, hone, List.singleton_append]
    · exact fun c hc => hbreaks c (by simp [hc])
    · rwa [hrest] at hlast

/-! ## Lines of a part of a text -/

theorem LineEnd.of_append (he : LineEnd e (a ++ b)) : LineEnd e a := by
  obtain rfl | ⟨c, rfl, hc, hnot⟩ := he
  · exact .inl rfl
  · refine .inr ⟨c, rfl, hc, fun h => hnot ⟨h.1, ?_⟩⟩
    rw [List.head?_append, h.2]
    rfl

theorem LineEnd.append (he : LineEnd e a) (hhead : b.head? ≠ some '\n' ∨ a ≠ []) : LineEnd e (a ++ b) := by
  obtain rfl | ⟨c, rfl, hc, hnot⟩ := he
  · exact .inl rfl
  · refine .inr ⟨c, rfl, hc, fun h => ?_⟩
    cases a with
    | nil => exact hhead.elim (fun hb => hb h.2) fun ha => ha rfl
    | cons d a => exact hnot h

/-- The first lines of a text are the lines of what is before the next one. -/
theorem exists_linesBefore (text : List Char) {i : ℕ} (hi : i < (splitlines text).length) : ∃ p q, text = p ++ q ∧
    q ≠ [] ∧ splitlines p = (splitlines text).take i ∧ ∀ c ∈ p.getLast?, isLineBreak c = true := by
  have hzero : text ≠ [] → ∃ p q, text = p ++ q ∧ q ≠ [] ∧ splitlines p = (splitlines text).take 0 ∧
      ∀ c ∈ p.getLast?, isLineBreak c = true := fun hne => ⟨[], text, rfl, hne, rfl, by simp⟩
  induction text using lines_induction generalizing i with
  | nil => simp [splitlines_nil] at hi
  | last w hw hne =>
    rw [splitlines_oneLine hw hne, List.length_singleton] at hi
    obtain rfl : i = 0 := by omega
    exact hzero hne
  | line w e s hw he ih =>
    cases i with
    | zero => exact hzero (by simp [he.ne_nil])
    | succ i =>
      rw [splitlines_line hw he] at hi ⊢
      obtain ⟨p, q, rfl, hq, hp, hlast⟩ := ih (by simpa using hi) fun hne => ⟨[], s, rfl, hne, rfl, by simp⟩
      refine ⟨w ++ (e ++ p), q, by simp, hq, ?_, ?_⟩
      · rw [splitlines_line hw he.of_append, hp, List.take_succ_cons]
      · intro c hc
        rw [List.getLast?_append_of_ne_nil _ (by simp [he.ne_nil])] at hc
        rcases eq_or_ne p [] with rfl | hpne
        · rw [List.append_nil] at hc
          exact he.breaks (List.mem_of_getLast? hc)
        · rw [List.getLast?_append_of_ne_nil _ hpne] at hc
          exact hlast c hc

theorem splitlines_append_newline (ha : a ≠ []) (hlast : ∀ c ∈ a.getLast?, isLineBreak c = false) (b : List Char) :
    splitlines (a ++ '\n' :: b) = splitlines a ++ splitlines b := by
  have hend : LineEnd ['\n'] b := .inr ⟨'\n', rfl, rfl, by simp⟩
  induction a using lines_induction with
  | nil => exact absurd rfl ha
  | last w hw hne => exact (splitlines_line hw hend).trans (by rw [splitlines_oneLine hw hne, List.singleton_append])
  | line w e s hw he ih =>
    obtain ⟨hs, hrest⟩ := he.rest hlast
    rw [hrest] at hlast
    rw [List.append_assoc, List.append_assoc, splitlines_line hw (he.append (.inr hs)), splitlines_line hw he,
      ih hs hlast, List.cons_append]

/-- A text without a line break goes to the first line of what follows it. -/
theorem splitlines_oneLine_append (hw : OneLine w) (hs : s ≠ []) :
    ∃ v rest, splitlines s = v :: rest ∧ splitlines (w ++ s) = (w ++ v) :: rest := by
  induction s using lines_induction with
  | nil => exact absurd rfl hs
  | last v hv hne =>
    have hboth : OneLine (w ++ v) := fun c hc => (List.mem_append.mp hc).elim (hw c) (hv c)
    exact ⟨v, [], splitlines_oneLine hv hne, splitlines_oneLine hboth (List.append_ne_nil_of_right_ne_nil w hne)⟩
  | line v e s hv he ih =>
    have hboth : OneLine (w ++ v) := fun c hc => (List.mem_append.mp hc).elim (hw c) (hv c)
    refine ⟨v, splitlines s, splitlines_line hv he, ?_⟩
    rw [← List.append_assoc, splitlines_line hboth he]

theorem joinedLines_oneLine_append (hw : OneLine w) (hs : s ≠ []) : joinedLines (w ++ s) = w ++ joinedLines s := by
  obtain ⟨v, rest, hv, hboth⟩ := splitlines_oneLine_append hw hs
  rw [joinedLines, joinedLines, hv, hboth]
  rcases eq_or_ne rest [] with rfl | hne
  · rw [List.intercalate_singleton, List.intercalate_singleton]
  · rw [Lib.joined_cons hne, Lib.joined_cons hne, List.append_assoc]

theorem blank_joinedLines (h : Lib.Blank Text.isSpace s) : Lib.Blank Text.isSpace (joinedLines s) := by
  have hsolid := solid_joinedLines s
  rw [solid_of_blank h] at hsolid
  intro c hc
  simpa using List.filter_eq_nil_iff.mp hsolid c hc

/-- Spaces before a text stay spaces. -/
theorem joinedLines_blank_append (ha : Lib.Blank Text.isSpace a) (hb : ∃ c ∈ b.head?, Text.isSpace c = false) :
    ∃ l, Lib.Blank Text.isSpace l ∧ joinedLines (a ++ b) = l ++ joinedLines b := by
  obtain ⟨d, hd, hdnot⟩ := hb
  have hne : b ≠ [] := by
    rintro rfl
    cases hd
  have hhead : b.head? ≠ some '\n' := by
    intro h
    rw [h] at hd
    obtain rfl := Option.some.inj hd
    cases hdnot
  induction a using lines_induction with
  | nil => exact ⟨[], Lib.blank_nil, rfl⟩
  | last w hw _ => exact ⟨w, ha, joinedLines_oneLine_append hw hne⟩
  | line w e s hw he ih =>
    obtain ⟨l, hl, h⟩ := ih fun c hc => ha c (by simp [hc])
    refine ⟨w ++ '\n' :: l, ?_, ?_⟩
    · intro c hc
      rw [List.mem_append, List.mem_cons] at hc
      rcases hc with hc | rfl | hc
      · exact ha c (by simp [hc])
      · rfl
      · exact hl c hc
    · rw [List.append_assoc, List.append_assoc, joinedLines_line hw (he.append (.inl hhead)) (by simp [hne]), h,
        List.append_assoc, List.cons_append]

/-- Spaces after a text stay spaces. -/
theorem joinedLines_append_blank (ha : ∀ c ∈ a.getLast?, Text.isSpace c = false) (hb : Lib.Blank Text.isSpace b) :
    ∃ r, Lib.Blank Text.isSpace r ∧ joinedLines (a ++ b) = joinedLines a ++ r := by
  rcases eq_or_ne b [] with rfl | hne
  · exact ⟨[], Lib.blank_nil, by rw [List.append_nil, List.append_nil]⟩
  induction a using lines_induction with
  | nil => exact ⟨joinedLines b, blank_joinedLines hb, rfl⟩
  | last w hw _ =>
    exact ⟨joinedLines b, blank_joinedLines hb, by rw [joinedLines_oneLine_append hw hne, joinedLines_oneLine hw]⟩
  | line w e s hw he ih =>
    obtain ⟨hs, hrest⟩ := he.rest fun c hc => not_isLineBreak_of_not_isSpace (ha c hc)
    rw [hrest] at ha
    obtain ⟨r, hr, h⟩ := ih ha
    refine ⟨r, hr, ?_⟩
    rw [List.append_assoc, List.append_assoc, joinedLines_line hw (he.append (.inr hs)) (by simp [hs]), h,
      joinedLines_line hw he hs, List.append_assoc, List.cons_append]

/-- The lines of a text put together are the text, stripped, if there is no line break other than `\n` inside. -/
theorem strip_joinedLines_iff (text : List Char) : Text.strip (joinedLines text) = Text.strip text ↔
    ∀ c ∈ Text.strip text, isLineBreak c = true → c = '\n' := by
  constructor
  · intro h c hc hbreak
    rw [← h] at hc
    obtain ⟨l, r, -, -, hjoined⟩ := Lib.exists_trim Text.isSpace (joinedLines text)
    have hmem : c ∈ joinedLines text := by
      rw [hjoined]
      exact List.mem_append_left _ (List.mem_append_right _ hc)
    exact isLineBreak_joinedLines hmem hbreak
  · intro hbreaks
    obtain ⟨l, r, hl, hr, htext⟩ := Lib.exists_trim Text.isSpace text
    have htrimmed := Lib.trimmed_trim (p := Text.isSpace) text
    rw [← strip_eq] at htext htrimmed
    rcases eq_or_ne (Text.strip text) [] with hnil | hne
    · have hblank : Lib.Blank Text.isSpace text := Lib.trim_eq_nil_iff.mp hnil
      rw [hnil]
      exact Lib.trim_eq_nil_iff.mpr (blank_joinedLines hblank)
    · have hself : joinedLines (Text.strip text) = Text.strip text :=
        joinedLines_eq_self hbreaks fun c hc => not_isLineBreak_of_not_isSpace (htrimmed.last c hc)
      obtain ⟨r', hr', hright⟩ := joinedLines_append_blank htrimmed.last hr
      have hhead : ∃ c ∈ (Text.strip text ++ r).head?, Text.isSpace c = false := by
        obtain ⟨c, s, hs⟩ := List.exists_cons_of_ne_nil hne
        exact ⟨c, by rw [hs]; rfl, htrimmed.first c (by rw [hs]; rfl)⟩
      obtain ⟨l', hl', hleft⟩ := joinedLines_blank_append hl hhead
      conv_lhs => rw [htext, List.append_assoc, hleft, hright, hself, ← List.append_assoc]
      exact Lib.trim_eq hl' htrimmed hr'

/-! ## Lines of a kind -/

/-- The lines of a text that are of a kind when they are stripped. -/
def linesOf (kind : List Char → Bool) (text : List Char) : List (List Char) :=
  ((splitlines text).map Text.strip).filter kind

section LinesOf

variable {kind : List Char → Bool}

theorem linesOf_oneLine (hkind : kind [] = false) (hw : OneLine w) : linesOf kind w = [Text.strip w].filter kind := by
  rcases eq_or_ne w [] with rfl | hne
  · exact (List.filter_cons_of_neg (by simp [Text.strip, hkind])).symm
  · rw [linesOf, splitlines_oneLine hw hne, List.map_singleton]

theorem linesOf_line (hw : OneLine w) (he : LineEnd e s) :
    linesOf kind (w ++ (e ++ s)) = [Text.strip w].filter kind ++ linesOf kind s := by
  rw [linesOf, splitlines_line hw he, List.map_cons, ← List.singleton_append, List.filter_append, linesOf]

theorem filter_strip_of_blank (hkind : kind [] = false) (h : Lib.Blank Text.isSpace s) :
    [Text.strip s].filter kind = [] := by
  have hnil : Text.strip s = [] := Lib.trim_eq_nil_iff.mpr h
  rw [hnil]
  exact List.filter_cons_of_neg (by simp [hkind])

theorem linesOf_blank (hkind : kind [] = false) (h : Lib.Blank Text.isSpace s) : linesOf kind s = [] := by
  induction s using lines_induction with
  | nil => rfl
  | last w hw hne => rw [linesOf_oneLine hkind hw, filter_strip_of_blank hkind h]
  | line w e s hw he ih =>
    rw [linesOf_line hw he, ih fun c hc => h c (by simp [hc]),
      filter_strip_of_blank hkind fun c hc => h c (by simp [hc])]
    rfl

theorem linesOf_blank_append (hkind : kind [] = false) (ha : Lib.Blank Text.isSpace a)
    (hb : ∃ c ∈ b.head?, Text.isSpace c = false) : linesOf kind (a ++ b) = linesOf kind b := by
  obtain ⟨d, hd, hdnot⟩ := hb
  have hne : b ≠ [] := by
    rintro rfl
    cases hd
  have hhead : b.head? ≠ some '\n' := by
    intro h
    rw [h] at hd
    obtain rfl := Option.some.inj hd
    cases hdnot
  induction a using lines_induction with
  | nil => rfl
  | last w hw _ =>
    obtain ⟨v, rest, hv, hboth⟩ := splitlines_oneLine_append hw hne
    have hstrip : Text.strip (w ++ v) = Text.strip v := Lib.trim_append_of_blank_left ha v
    rw [linesOf, linesOf, hv, hboth, List.map_cons, List.map_cons, hstrip]
  | line w e s hw he ih =>
    rw [List.append_assoc, List.append_assoc, linesOf_line hw (he.append (.inl hhead)),
      ih fun c hc => ha c (by simp [hc]), filter_strip_of_blank hkind fun c hc => ha c (by simp [hc]), List.nil_append]

theorem linesOf_append_blank (hkind : kind [] = false) (ha : ∀ c ∈ a.getLast?, Text.isSpace c = false)
    (hb : Lib.Blank Text.isSpace b) : linesOf kind (a ++ b) = linesOf kind a := by
  have hfirst : ∀ {w}, OneLine w → linesOf kind (w ++ b) = [Text.strip w].filter kind := by
    intro w hw
    have hstrip : ∀ v, Lib.Blank Text.isSpace v → Text.strip (w ++ v) = Text.strip w := fun v hv =>
      Lib.trim_append_of_blank_right w hv
    induction b using lines_induction with
    | nil => rw [List.append_nil, linesOf_oneLine hkind hw]
    | last v hv _ =>
      have hboth : OneLine (w ++ v) := fun c hc => (List.mem_append.mp hc).elim (hw c) (hv c)
      rw [linesOf_oneLine hkind hboth, hstrip v hb]
    | line v e s hv he _ =>
      have hboth : OneLine (w ++ v) := fun c hc => (List.mem_append.mp hc).elim (hw c) (hv c)
      rw [← List.append_assoc, linesOf_line hboth he, hstrip v fun c hc => hb c (by simp [hc]),
        linesOf_blank hkind fun c hc => hb c (by simp [hc]), List.append_nil]
  induction a using lines_induction with
  | nil => exact linesOf_blank hkind hb
  | last w hw _ => rw [hfirst hw, linesOf_oneLine hkind hw]
  | line w e s hw he ih =>
    obtain ⟨hs, hrest⟩ := he.rest fun c hc => not_isLineBreak_of_not_isSpace (ha c hc)
    rw [hrest] at ha
    rw [List.append_assoc, List.append_assoc, linesOf_line hw (he.append (.inr hs)), linesOf_line hw he, ih ha]

/-- Stripping a text leaves the lines of a kind to which the empty line does not belong. -/
theorem linesOf_strip (hkind : kind [] = false) (text : List Char) :
    linesOf kind (Text.strip text) = linesOf kind text := by
  obtain ⟨l, r, hl, hr, htext⟩ := Lib.exists_trim Text.isSpace text
  have htrimmed := Lib.trimmed_trim (p := Text.isSpace) text
  rw [← strip_eq] at htext htrimmed
  rcases eq_or_ne (Text.strip text) [] with hnil | hne
  · have hblank : Lib.Blank Text.isSpace text := Lib.trim_eq_nil_iff.mp hnil
    rw [hnil, linesOf_blank hkind hblank]
    rfl
  · have hhead : ∃ c ∈ (Text.strip text ++ r).head?, Text.isSpace c = false := by
      obtain ⟨c, s, hs⟩ := List.exists_cons_of_ne_nil hne
      exact ⟨c, by rw [hs]; rfl, htrimmed.first c (by rw [hs]; rfl)⟩
    conv_rhs => rw [htext, List.append_assoc, linesOf_blank_append hkind hl hhead,
      linesOf_append_blank hkind htrimmed.last hr]

/-- The lines of a kind of the lines put together are those among the lines. -/
theorem linesOf_joined (hkind : kind [] = false) {lines : List (List Char)} (hlines : ∀ line ∈ lines, OneLine line) :
    linesOf kind (['\n'].intercalate lines) = (lines.map Text.strip).filter kind := by
  induction lines with
  | nil => rfl
  | cons line lines ih =>
    have hline : OneLine line := hlines line (by simp)
    rcases eq_or_ne lines [] with rfl | hne
    · rw [List.intercalate_singleton, linesOf_oneLine hkind hline, List.map_singleton]
    · have hend : LineEnd ['\n'] (['\n'].intercalate lines) := .inr ⟨'\n', rfl, rfl, by simp⟩
      rw [Lib.joined_cons hne, ← List.singleton_append, linesOf_line hline hend, ih fun l hl => hlines l (by simp [hl]),
        ← List.filter_append]
      rfl

end LinesOf

end LlmStore.Inference
