import LlmStore.Inference.JsonAnswer
import LlmStore.Inference.StreamErrors

/-!
# Repetition loops in streams and in whole answers

A stream is cut if what it has sent by the fifth, tenth, … fragment repeats itself, and a whole answer if the whole text
does, as the sanitiser leaves it. So the two agree just if these checks come to the same (`loops_agree_iff`): an answer of
three fragments that repeats itself is cut as a whole and streamed to its end.
-/

namespace LlmStore.Inference

/-- A stream at the chat endpoint, with the repetition check of the code. -/
def checkedStream (lower : List Char → List Char) (includeReasoning : Bool) (promptTemplate : Option String) :
    StreamSettings :=
  { chat := true, includeReasoning, promptTemplate, detectRepetition := (detectRepetition lower promptTemplate ·) }

/-- The stream is cut: the client gets the chunk whose `finish_reason` is `length` and whose delta is the notice. -/
def Received.IsCut (r : Received) : Prop := truncationChunk ∈ r.events

/-- The whole answer is cut: its text is not what the sanitiser leaves of the text of the backend. -/
def IsTruncated (lower : List Char → List Char) (o : Origin) (includeReasoning : Bool) (promptTemplate : Option String)
    (payload : Json) (text : List Char) : Prop :=
  ∃ answer s, jsonAnswer lower o true includeReasoning promptTemplate payload = .ok answer ∧
    firstContent answer = .ok (.str s) ∧ s ≠ assistantText includeReasoning promptTemplate text

/-! ## Streams -/

/-- A normalised completion names its id first. -/
theorem head?_normalizeChatCompletion {includeReasoning : Bool} {promptTemplate : Option String} {payload : Json}
    {fields : List (String × Json)} {choices : List (List (String × Json))}
    (h : normalizeChatCompletion includeReasoning promptTemplate payload = .ok (fields, choices)) :
    ∃ id, fields.head? = some ("id", id) := by
  unfold normalizeChatCompletion at h
  obtain ⟨id, -, h⟩ := bind_eq_ok_iff.mp h
  obtain ⟨object, -, h⟩ := bind_eq_ok_iff.mp h
  obtain ⟨created, -, h⟩ := bind_eq_ok_iff.mp h
  obtain ⟨model, -, h⟩ := bind_eq_ok_iff.mp h
  obtain ⟨value, -, h⟩ := bind_eq_ok_iff.mp h
  obtain ⟨items, -, h⟩ := bind_eq_ok_iff.mp h
  obtain ⟨normalized, -, h⟩ := bind_eq_ok_iff.mp h
  obtain ⟨usage, -, h⟩ := bind_eq_ok_iff.mp h
  obtain ⟨fingerprint, -, h⟩ := bind_eq_ok_iff.mp h
  obtain ⟨rfl, -⟩ := Prod.mk.inj (Except.ok.inj h)
  exact ⟨id, rfl⟩

namespace StreamSettings

variable {c : StreamSettings} {o : Origin} {line : BackendLine}

/-- What is passed on at the chat endpoint is not the chunk of a cut. -/
theorem passOn_ne (hchat : c.chat = true) {l : Line} {event : Option Line} (h : c.passOn l = .ok event) :
    truncationChunk ∉ event.toList := by
  rw [passOn, if_pos hchat] at h
  cases l with
  | data payload =>
    obtain ⟨⟨fields, choices⟩, hn, h⟩ := bind_eq_ok_iff.mp h
    obtain ⟨id, hid⟩ := head?_normalizeChatCompletion hn
    simp only at h
    split at h
    · obtain rfl := Except.ok.inj h
      simp
    · obtain rfl := Except.ok.inj h
      intro hmem
      simp only [truncationChunk, Option.toList_some, List.mem_singleton, Line.data.injEq, Json.obj.injEq] at hmem
      rw [← hmem] at hid
      simp at hid
  | other text =>
    obtain rfl := Except.ok.inj h
    simp [truncationChunk]
  | done =>
    obtain rfl := Except.ok.inj h
    simp [truncationChunk]
  | malformed text error => cases h

theorem not_mem_of_pass (hchat : c.chat = true) {left : ℕ} {fragments : List (List Char)} {s : Option (List Char)}
    {events : List Line} (h : c.turn o left fragments line = .pass s events) : truncationChunk ∉ events := by
  unfold turn at h
  split at h
  · cases h
  · cases h
    simp
  · unfold lineTurn at h
    split at h
    · split at h
      · cases h
      · split at h
        · cases h
        · split at h
          · cases h
          · cases h
            exact passOn_ne hchat ‹_›
    · split at h
      · split at h
        · cases h
        · cases h
          exact passOn_ne hchat ‹_›
      · cases h
    · split at h
      · cases h
      · cases h
        exact passOn_ne hchat ‹_›

/-- A stream of lines that are tolerated is cut just if a repetition is detected after one of its fragments. -/
theorem isCut_iff (hchat : c.chat = true) (broken : Option String) {lines : List BackendLine}
    (hformat : ∀ line ∈ lines, line.InFormat) (htolerates : ∀ line ∈ lines, c.Tolerates o line) :
    ∀ fragments, (c.stream o broken fragments lines).IsCut ↔ c.Cuts fragments (fragmentsOf o c.chat lines) := by
  induction lines with
  | nil =>
    intro fragments
    rw [stream]
    refine iff_of_false ?_ (not_cuts_nil _)
    cases broken <;> simp [Received.IsCut, errorEvent, truncationChunk]
  | cons line lines ih =>
    intro fragments
    have hi := ih (fun l hl => hformat l (by simp [hl])) fun l hl => htolerates l (by simp [hl])
    obtain ⟨events, hevents⟩ :=
      turn_of_tolerates (hformat line (by simp)) (htolerates line (by simp)) lines.length
    have hturn := hevents fragments
    have hafter : ∀ r : Received, truncationChunk ∉ events → ((r.after events).IsCut ↔ r.IsCut) := fun r hno => by
      simp [Received.IsCut, Received.after, hno]
    rw [stream]
    cases hs : o.fragment? c.chat line with
    | none =>
      rw [hs] at hturn
      simp only [hturn]
      rw [hafter _ (not_mem_of_pass hchat hturn), hi, fragmentsOf_cons_none hs, Option.toList_none, List.append_nil]
    | some s =>
      rw [hs] at hturn
      rw [fragmentsOf_cons_some hs, cuts_cons_iff]
      by_cases hloop : c.loopDetected (fragments ++ [s]) = true
      · simp only [hloop, if_true] at hturn
        simp only [hturn]
        exact iff_of_true (by simp [Received.IsCut]) (.inl hloop)
      · simp only [hloop, if_false, Bool.false_eq_true] at hturn
        simp only [hturn]
        rw [hafter _ (not_mem_of_pass hchat hturn), hi, or_iff_right hloop, Option.toList_some]

/-- The check is made after five fragments, ten, and so on. -/
theorem cuts_iff {new : List (List Char)} : c.Cuts [] new ↔
    ∃ k, 0 < k ∧ 5 * k ≤ new.length ∧ c.detectRepetition (new.take (5 * k)).flatten = true := by
  constructor
  · rintro ⟨n, hn, h⟩
    simp only [loopDetected, List.nil_append, List.length_take, Bool.and_eq_true, beq_iff_eq] at h
    have hmin : min (n + 1) new.length = n + 1 := by omega
    rw [hmin] at h
    have hfive : 5 * ((n + 1) / 5) = n + 1 := by omega
    refine ⟨(n + 1) / 5, by omega, by omega, ?_⟩
    rw [hfive]
    exact h.2
  · rintro ⟨k, hk, hle, h⟩
    have hpred : 5 * k - 1 + 1 = 5 * k := by omega
    refine ⟨5 * k - 1, by omega, ?_⟩
    simp only [loopDetected, List.nil_append, List.length_take, Bool.and_eq_true, beq_iff_eq, hpred]
    exact ⟨by omega, h⟩

end StreamSettings

/-! ## Whole answers -/

/-- A whole answer is cut just if its text repeats itself and there is something to cut. -/
theorem isTruncated_iff {lower : List Char → List Char} {o : Origin} {includeReasoning : Bool}
    {promptTemplate : Option String} {payload : Json} {f : Completion} {text : List Char}
    (h : o.translated true payload = .ok (f.fill text)) :
    let seen := assistantText includeReasoning promptTemplate text
    IsTruncated lower o includeReasoning promptTemplate payload text ↔
      detectRepetition lower promptTemplate seen = true ∧ truncateAtRepetition lower promptTemplate seen ≠ seen := by
  intro seen
  obtain ⟨answer, hanswer, hcontent⟩ := firstContent_jsonAnswer lower o includeReasoning promptTemplate f text h
  have hread : IsTruncated lower o includeReasoning promptTemplate payload text ↔
      answeredText lower includeReasoning promptTemplate text ≠ seen := by
    constructor
    · rintro ⟨answer', s, hanswer', hcontent', hne⟩
      obtain rfl := Except.ok.inj (hanswer.symm.trans hanswer')
      obtain rfl := Json.str.inj (Except.ok.inj (hcontent.symm.trans hcontent'))
      exact hne
    · intro hne
      exact ⟨answer, _, hanswer, hcontent, hne⟩
  rw [hread, answeredText]
  by_cases hloop : detectRepetition lower promptTemplate seen = true
  · rw [if_pos hloop, and_iff_right hloop]
  · rw [if_neg hloop]
    exact iff_of_false (fun h => h rfl) fun h => hloop h.1

/-! ## Agreement -/

section Agreement

variable (lower : List Char → List Char) (promptTemplate : Option String)

/-- A check of a stream finds a repetition: the one after five fragments, after ten, and so on. -/
def Noticed (fragments : List (List Char)) : Prop :=
  ∃ k, 0 < k ∧ 5 * k ≤ fragments.length ∧ detectRepetition lower promptTemplate (fragments.take (5 * k)).flatten = true

/-- The text has a repetition that is cut out of it. -/
def Cuttable (text : List Char) : Prop :=
  detectRepetition lower promptTemplate text = true ∧ truncateAtRepetition lower promptTemplate text ≠ text

/-- No check of the stream notices what is cut out of the whole text: it is complete after the last of them only, or is
there only when the text has been sanitised. -/
def Missed (fragments : List (List Char)) (whole : List Char) : Prop :=
  Cuttable lower promptTemplate whole ∧ ¬ Noticed lower promptTemplate fragments

/-- A check notices a repetition, but the whole text no longer has it, or it is not one that is cut out. -/
def Premature (fragments : List (List Char)) (whole : List Char) : Prop :=
  Noticed lower promptTemplate fragments ∧ ¬ Cuttable lower promptTemplate whole

end Agreement

/-- **A stream and a whole answer with the same text are both cut or both not cut, if and only if the checks of the
stream neither miss what is cut out of the whole text nor notice what is not**: the checks are made after five
fragments, ten, and so on, and the whole text is the one that the sanitiser leaves. -/
theorem loops_agree_iff (lower : List Char → List Char) (includeReasoning : Bool) (promptTemplate : Option String)
    (o : Origin) (broken : Option String) {lines : List BackendLine} (hformat : ∀ line ∈ lines, line.InFormat)
    (htolerates : ∀ line ∈ lines, (checkedStream lower includeReasoning promptTemplate).Tolerates o line)
    (f : Completion) {payload : Json}
    (hpayload : o.translated true payload = .ok (f.fill (StreamSettings.fragmentsOf o true lines).flatten)) :
    let fragments := StreamSettings.fragmentsOf o true lines
    let whole := assistantText includeReasoning promptTemplate fragments.flatten
    (((checkedStream lower includeReasoning promptTemplate).stream o broken [] lines).IsCut ↔
        IsTruncated lower o includeReasoning promptTemplate payload fragments.flatten) ↔
      ¬ Missed lower promptTemplate fragments whole ∧ ¬ Premature lower promptTemplate fragments whole := by
  intro fragments whole
  have hcut := StreamSettings.isCut_iff rfl broken hformat htolerates []
  rw [StreamSettings.cuts_iff] at hcut
  have hstream : ((checkedStream lower includeReasoning promptTemplate).stream o broken [] lines).IsCut ↔
      Noticed lower promptTemplate fragments := hcut
  have hwhole : IsTruncated lower o includeReasoning promptTemplate payload fragments.flatten ↔
      Cuttable lower promptTemplate whole := isTruncated_iff hpayload
  rw [hstream, hwhole, Missed, Premature, not_and_not_right, not_and_not_right]
  exact ⟨fun h => ⟨h.mpr, h.mp⟩, fun h => ⟨h.2, h.1⟩⟩

/-! ### Three fragments -/

/-- A chunk with its index and a text only. -/
def plainChunk (text : List Char) : BackendLine :=
  .data (plainEnvelope.payload.fill (.arr [plainEnvelope.item (.text text)]))

theorem plainChunk_inFormat (text : List Char) : (plainChunk text).InFormat := by
  refine ⟨_, [plainEnvelope.item (.text text)], rfl, Hole.lookup_fill _ _, fun item hm => ?_⟩
  obtain rfl := List.mem_singleton.mp hm
  refine ⟨_, rfl, rfl, fun v hv => ?_, fun v hv => by simp [plainEnvelope, List.lookup_cons] at hv⟩
  obtain rfl : plainEnvelope.message (.text text) = v := by simpa [plainEnvelope, List.lookup_cons] using hv
  refine ⟨_, rfl, fun v hv => .inr ⟨text, ?_⟩, fun v hv => by simp [plainEnvelope, List.lookup_cons] at hv⟩
  simpa [plainEnvelope, List.lookup_cons, eq_comm] using hv

theorem plainChunk_tolerated (c : StreamSettings) (text : List Char) :
    c.Tolerates StreamSettings.llamaCpp (plainChunk text) := by
  simp [StreamSettings.Tolerates, StreamSettings.llamaCpp, plainChunk]

theorem fragment?_plainChunk (text : List Char) :
    StreamSettings.llamaCpp.fragment? true (plainChunk text) = some text := by
  have h := plainEnvelope.fragment_payload (.text text)
  simp only [Origin.fragment?, Origin.read, StreamSettings.llamaCpp, plainChunk, BackendLine.isEmpty, BackendLine.line,
    Bool.false_eq_true, if_false, h]
  rfl

/-- An assistant's answer. -/
def plainCompletion : Completion where
  payload := ⟨[("object", .str "chat.completion".toList)], [], by decide⟩
  choice := ⟨[("index", .int 0)], [("finish_reason", .str "stop".toList)], by decide⟩
  message := ⟨[("role", .str "assistant".toList)], [], by decide⟩
  plainChoice := by decide

/-- Three headings, a chunk for each. -/
def threeGoals : List BackendLine := List.replicate 3 (plainChunk "Goal:".toList)

theorem fragmentsOf_threeGoals :
    StreamSettings.fragmentsOf StreamSettings.llamaCpp true threeGoals = List.replicate 3 "Goal:".toList := by
  simp [StreamSettings.fragmentsOf, threeGoals, fragment?_plainChunk]

theorem threeGoals_inFormat : ∀ line ∈ threeGoals, line.InFormat := by
  intro line hline
  rw [List.eq_of_mem_replicate hline]
  exact plainChunk_inFormat _

theorem threeGoals_tolerated (c : StreamSettings) : ∀ line ∈ threeGoals, c.Tolerates StreamSettings.llamaCpp line := by
  intro line hline
  rw [List.eq_of_mem_replicate hline]
  exact plainChunk_tolerated c _

/-- `str.lower` of ASCII texts. -/
def lowerAscii : List Char → List Char := List.map Char.toLower

theorem loops_agree_iff_goals :
    let fragments := StreamSettings.fragmentsOf StreamSettings.llamaCpp true threeGoals
    let whole := assistantText false none fragments.flatten
    (((checkedStream lowerAscii false none).stream StreamSettings.llamaCpp none [] threeGoals).IsCut ↔
        IsTruncated lowerAscii StreamSettings.llamaCpp false none (plainCompletion.fill fragments.flatten)
          fragments.flatten) ↔
      ¬ Missed lowerAscii none fragments whole ∧ ¬ Premature lowerAscii none fragments whole :=
  loops_agree_iff lowerAscii false none StreamSettings.llamaCpp none threeGoals_inFormat (threeGoals_tolerated _)
    plainCompletion rfl

/-- Three headings in three chunks are streamed to the end, and as a whole they are cut before the third. -/
theorem three_goals_streamed :
    let text := "Goal:Goal:Goal:".toList
    (StreamSettings.fragmentsOf StreamSettings.llamaCpp true threeGoals).flatten = text ∧
      (∀ line ∈ threeGoals, line.InFormat) ∧
      (∀ line ∈ threeGoals, (checkedStream lowerAscii false none).Tolerates StreamSettings.llamaCpp line) ∧
      ¬ (((checkedStream lowerAscii false none).stream StreamSettings.llamaCpp none [] threeGoals).IsCut ↔
        IsTruncated lowerAscii StreamSettings.llamaCpp false none (plainCompletion.fill text) text) := by
  intro text
  have htext : (StreamSettings.fragmentsOf StreamSettings.llamaCpp true threeGoals).flatten = text := by
    rw [fragmentsOf_threeGoals]
    rfl
  have hstreamed : ¬ ((checkedStream lowerAscii false none).stream StreamSettings.llamaCpp none [] threeGoals).IsCut := by
    rw [StreamSettings.isCut_iff rfl none threeGoals_inFormat (threeGoals_tolerated _), StreamSettings.cuts_iff]
    rintro ⟨k, hk, hle, -⟩
    have hlength : (StreamSettings.fragmentsOf StreamSettings.llamaCpp true threeGoals).length = 3 := by
      rw [fragmentsOf_threeGoals, List.length_replicate]
    have hthree : 5 * k ≤ 3 := hlength ▸ hle
    omega
  have htruncated : IsTruncated lowerAscii StreamSettings.llamaCpp false none (plainCompletion.fill text) text := by
    refine (isTruncated_iff (f := plainCompletion) rfl).mpr ⟨?_, ?_⟩
    · decide +kernel
    · decide +kernel
  exact ⟨htext, threeGoals_inFormat, threeGoals_tolerated _, fun h => hstreamed (h.mpr htruncated)⟩

end LlmStore.Inference
