import LlmStore.Inference.StreamErrors

/-!
# How a stream ends

Whether the events of a complete stream end with `data: [DONE]`. The mark of a backend that speaks the OpenAI protocol is
passed on, and a stream that is cut gets one of its own; the translation of an Ollama stream makes none, so there the only
streams with an end mark are those that a repetition cuts (`ends_once_iff`).
-/

namespace LlmStore.Inference

/-- The end mark is among the events exactly once, as the last. -/
def EndsOnce (events : List Line) : Prop := ∃ before, events = before ++ [.done] ∧ .done ∉ before

theorem not_endsOnce_nil : ¬ EndsOnce [] := by
  rintro ⟨before, h, -⟩
  simp at h

/-- Events that are no end marks do not matter. -/
theorem endsOnce_append_iff {front events : List Line} (hfront : .done ∉ front) :
    EndsOnce (front ++ events) ↔ EndsOnce events := by
  constructor
  · rintro ⟨before, h, hbefore⟩
    rcases List.eq_nil_or_concat events with rfl | ⟨events, e, rfl⟩
    · rw [List.append_nil] at h
      exact absurd (by simp [h]) hfront
    · rw [List.concat_eq_append, ← List.append_assoc] at h
      obtain ⟨rfl, he⟩ := List.append_inj' h rfl
      obtain rfl : e = .done := by simpa using he
      exact ⟨events, by simp, fun hm => hbefore (by simp [hm])⟩
  · rintro ⟨before, rfl, hbefore⟩
    refine ⟨front ++ before, by simp, ?_⟩
    simp [hfront, hbefore]

/-! ## Complete streams -/

/-- A line between the end marks of a stream of the OpenAI protocol: a blank one or a chunk. -/
inductive ChunkLine : BackendLine → Prop
  | blank : ChunkLine (.text [] (.error .jsonDecodeError))
  | chunk {payload : Json} (h : InChunk payload) : ChunkLine (.data payload)

/-- A line of Ollama: a JSON object. -/
def ObjectLine (fields : List (String × Json)) (line : BackendLine) : Prop :=
  ∃ s, s ≠ [] ∧ line = .text s (.ok (.obj fields))

/-- A stream that a backend has ended itself: chunks and the end mark, or JSON objects of which the last is `done`. -/
def Complete (o : Origin) (lines : List BackendLine) : Prop :=
  if o.ollama then
    ∃ objects last fields, lines = objects ++ [last] ∧ (∀ line ∈ objects, ∃ fields, ObjectLine fields line) ∧
      ObjectLine fields last ∧ fields.lookup "done" = some (.bool true)
  else
    ∃ chunks blanks, lines = chunks ++ .done :: blanks ∧ (∀ line ∈ chunks, ChunkLine line) ∧
      ∀ line ∈ blanks, line = .text [] (.error .jsonDecodeError)

namespace StreamSettings

variable {c : StreamSettings} {o : Origin} {line : BackendLine}

/-! ## End marks of one line -/

/-- Only the end mark is passed on as an end mark. -/
theorem passOn_ne_done {l : Line} {event : Option Line} (hl : l ≠ .done) (h : c.passOn l = .ok event) :
    .done ∉ event.toList := by
  unfold passOn at h
  split at h
  · cases l with
    | other s =>
      obtain rfl : some (Line.other s) = event := by simpa [normalizeChatStreamLine] using h
      simp
    | done => exact absurd rfl hl
    | malformed s error => simp [normalizeChatStreamLine] at h
    | data payload =>
      cases hn : normalizeChatCompletion c.includeReasoning c.promptTemplate payload with
      | error e => simp [normalizeChatStreamLine, hn, bind, Except.bind] at h
      | ok r =>
        simp only [normalizeChatStreamLine, hn, bind, Except.bind] at h
        split at h
        · obtain rfl : none = event := by simpa [pure, Except.pure] using h
          simp
        · obtain rfl : some (Line.data (.obj r.1)) = event := by simpa [pure, Except.pure] using h
          simp
  · obtain rfl : some l = event := by simpa using h
    simpa using hl.symm

theorem lineTurn_marks {fragments : List (List Char)} {l : Line} {s : Option (List Char)} {events : List Line}
    (hl : l ≠ .done) (h : c.lineTurn fragments l = .pass s events) : .done ∉ events := by
  have hpass : ∀ event, c.passOn l = .ok event → events = event.toList → .done ∉ events := by
    rintro event hevent rfl
    exact passOn_ne_done hl hevent
  cases l with
  | data parsed =>
    simp only [lineTurn] at h
    split at h
    · cases h
    · split at h
      · cases h
      · split at h
        · cases h
        · rename_i event hevent
          exact hpass event hevent (by injection h with _ he; exact he.symm)
  | malformed text error =>
    simp only [lineTurn] at h
    split at h
    · split at h
      · cases h
      · rename_i event hevent
        exact hpass event hevent (by injection h with _ he; exact he.symm)
    · cases h
  | _ =>
    simp only [lineTurn] at h
    split at h
    · cases h
    · rename_i event hevent
      exact hpass event hevent (by injection h with _ he; exact he.symm)

/-- A line of Ollama, or one that is not the end mark, is not read as the end mark. -/
theorem read_ne_done (h : o.ollama = true ∨ line ≠ .done) {left : ℕ} : o.read c.chat left line ≠ .ok (some .done) := by
  intro hread
  unfold Origin.read at hread
  split at hread
  · cases hread
  · split at hread
    · unfold translateOllamaStreamLine at hread
      split at hread
      · cases hread
      · cases hread
      · rename_i payload _
        cases hchat : c.chat with
        | true =>
          rw [hchat, if_pos rfl] at hread
          cases hm : payload.get "message" .null with
          | error e => simp [hm, bind, Except.bind] at hread
          | ok m =>
            cases hc : (if m.truthy then m else .obj []).get "content" .null with
            | error e => simp [hm, hc, bind, Except.bind] at hread
            | ok v => simp [hm, hc, bind, Except.bind, pure, Except.pure] at hread
        | false =>
          rw [hchat, if_neg Bool.false_ne_true] at hread
          cases ht : payload.get "response" (.str []) with
          | error e => simp [ht, bind, Except.bind] at hread
          | ok v => simp [ht, bind, Except.bind, pure, Except.pure] at hread
    · rename_i ho
      rcases h with h | h
      · exact ho h
      · cases line with
        | done => exact h rfl
        | _ => simp [BackendLine.line] at hread

theorem turn_marks (hline : o.ollama = true ∨ line ≠ .done) {left : ℕ} {fragments : List (List Char)}
    {s : Option (List Char)} {events : List Line} (h : c.turn o left fragments line = .pass s events) :
    .done ∉ events := by
  unfold turn at h
  split at h
  · cases h
  · obtain rfl : [] = events := by injection h
    simp
  · rename_i l hread
    exact lineTurn_marks (fun hl => read_ne_done hline (by rw [hread, hl])) h

/-! ## Whole streams -/

/-- What some lines, none of them the end mark, leave to the lines after them. By induction on these lines, with the
fragments before them. -/
theorem endsOnce_stream_append {lines rest : List BackendLine} (hformat : ∀ line ∈ lines, line.InFormat)
    (hmark : o.ollama = true ∨ .done ∉ lines) : ∀ fragments,
    EndsOnce (c.stream o none fragments (lines ++ rest)).events ↔ c.ToleratesAll o fragments lines ∧
      (c.Cuts fragments (fragmentsOf o c.chat lines) ∨
        EndsOnce (c.stream o none (fragments ++ fragmentsOf o c.chat lines) rest).events) := by
  induction lines with
  | nil =>
    intro fragments
    have hall : c.ToleratesAll o fragments [] := fun before line after heq => by simp at heq
    simp [fragmentsOf, hall, not_cuts_nil]
  | cons line lines ih =>
    intro fragments
    have hline := hformat line (by simp)
    have hmark' : o.ollama = true ∨ line ≠ .done := hmark.imp_right fun h heq => h (by simp [heq])
    have ih := ih (fun l hl => hformat l (by simp [hl])) (hmark.imp_right fun h hm => h (by simp [hm]))
    by_cases ht : c.Tolerates o line
    · obtain ⟨events, hturn⟩ := turn_of_tolerates hline ht (lines ++ rest).length
      cases hs : o.fragment? c.chat line with
      | none =>
        simp only [hs] at hturn
        have hevents := turn_marks hmark' (hturn fragments)
        have hstream : (c.stream o none fragments (line :: lines ++ rest)).events =
            events ++ (c.stream o none fragments (lines ++ rest)).events := by
          rw [List.cons_append, stream, hturn]
          simp [Received.after]
        rw [hstream, endsOnce_append_iff hevents, ih fragments, toleratesAll_skip hs ht, fragmentsOf_cons_none hs]
      | some s =>
        simp only [hs] at hturn
        rw [toleratesAll_text hs ht, fragmentsOf_cons_some hs, cuts_cons_iff]
        cases hloop : c.loopDetected (fragments ++ [s]) with
        | true =>
          have hstream : (c.stream o none fragments (line :: lines ++ rest)).events = [truncationChunk, .done] := by
            rw [List.cons_append, stream, hturn, if_pos hloop]
          rw [hstream]
          refine iff_of_true ⟨[truncationChunk], rfl, ?_⟩ ⟨by simp, .inl (.inl rfl)⟩
          simp [truncationChunk]
        | false =>
          have hpass : c.turn o (lines ++ rest).length fragments line = .pass (some s) events := by
            rw [hturn, hloop, if_neg Bool.false_ne_true]
          have hstream : (c.stream o none fragments (line :: lines ++ rest)).events =
              events ++ (c.stream o none (fragments ++ [s]) (lines ++ rest)).events := by
            rw [List.cons_append, stream, hpass]
            simp [Received.after]
          rw [hstream, endsOnce_append_iff (turn_marks hmark' hpass), ih (fragments ++ [s])]
          simp
    · obtain ⟨e, hraise⟩ := turn_of_not_tolerates hline ht (lines ++ rest).length fragments
      have hstream : (c.stream o none fragments (line :: lines ++ rest)).events = [] := by
        rw [List.cons_append, stream, hraise]
      rw [hstream]
      exact iff_of_false not_endsOnce_nil fun hall => ht hall.1.head

/-- Lines at the end that are tolerated do not matter. -/
theorem toleratesAll_append_iff {fragments : List (List Char)} {lines rest : List BackendLine}
    (hrest : ∀ line ∈ rest, c.Tolerates o line) :
    c.ToleratesAll o fragments (lines ++ rest) ↔ c.ToleratesAll o fragments lines := by
  constructor
  · rintro h before line after rfl
    exact h before line (after ++ rest) (by simp)
  · intro h before line after heq hcut
    rcases List.append_eq_append_iff.mp heq with ⟨more, hbefore, hmore⟩ | ⟨more, hlines, hmore⟩
    · exact hrest line (by rw [hmore]; simp)
    · cases more with
      | nil =>
        rw [List.nil_append] at hmore
        exact hrest line (by rw [← hmore]; simp)
      | cons l more =>
        obtain ⟨rfl, rfl⟩ := List.cons.inj hmore
        exact h before line more hlines hcut

/-- After the end mark only blank lines are read. -/
theorem stream_done {blanks : List BackendLine} (ho : o.ollama = false)
    (hblanks : ∀ line ∈ blanks, line = .text [] (.error .jsonDecodeError)) (fragments : List (List Char)) : (c.stream o none fragments (.done :: blanks)).events = [.done] := by
  have hnil : ∀ fragments, (c.stream o none fragments blanks).events = [] := by
    clear fragments
    induction blanks with
    | nil => intro fragments; rw [stream]; rfl
    | cons line blanks ih =>
      intro fragments
      obtain rfl := hblanks line (by simp)
      have hturn : c.turn o blanks.length fragments (.text [] (.error .jsonDecodeError)) = .pass none [] := rfl
      rw [stream, hturn]
      simpa [Received.after] using ih (fun l hl => hblanks l (by simp [hl])) fragments
  have hpass : c.passOn .done = .ok (some .done) := by
    unfold passOn
    split <;> rfl
  have hturn : c.turn o blanks.length fragments .done = .pass none [.done] := by
    have hread := read_openai (c := c) (rfl : BackendLine.done.isEmpty = false) ho blanks.length
    simp [turn, hread, BackendLine.line, lineTurn, hpass]
  rw [stream, hturn]
  simp [Received.after, hnil]

theorem endsOnce_openai (ho : o.ollama = false) {chunks blanks : List BackendLine}
    (hchunks : ∀ line ∈ chunks, ChunkLine line) (hblanks : ∀ line ∈ blanks, line = .text [] (.error .jsonDecodeError)) :
    EndsOnce (c.stream o none [] (chunks ++ .done :: blanks)).events ↔
      c.ToleratesAll o [] (chunks ++ .done :: blanks) := by
  have hformat : ∀ line ∈ chunks, line.InFormat := fun line hm => by
    cases hchunks line hm with
    | blank => trivial
    | chunk h => exact h
  have hmark : .done ∉ chunks := fun hm => by cases hchunks _ hm
  have hend : ∀ fragments, EndsOnce (c.stream o none fragments (.done :: blanks)).events := fun fragments => by
    rw [stream_done ho hblanks]
    exact ⟨[], rfl, by simp⟩
  have hrest : ∀ line ∈ BackendLine.done :: blanks, c.Tolerates o line := fun line hm => by
    rcases List.mem_cons.mp hm with rfl | hm
    · simp [Tolerates, ho]
    · obtain rfl := hblanks line hm
      simp [Tolerates, ho]
  rw [endsOnce_stream_append hformat (.inr hmark), toleratesAll_append_iff hrest]
  exact and_iff_left (.inr (hend _))

theorem endsOnce_ollama (ho : o.ollama = true) {lines : List BackendLine} (hformat : ∀ line ∈ lines, line.InFormat) :
    EndsOnce (c.stream o none [] lines).events ↔
      c.ToleratesAll o [] lines ∧ c.Cuts [] (fragmentsOf o c.chat lines) := by
  have h := @endsOnce_stream_append c o lines [] hformat (.inl ho) []
  have hnil : ¬ EndsOnce (c.stream o none ([] ++ fragmentsOf o c.chat lines) []).events := by
    rw [stream]
    exact not_endsOnce_nil
  rw [List.append_nil] at h
  rw [h, or_iff_left hnil]

/-- **A complete stream reaches the client with exactly one end mark, at the end, if and only if nothing in it raises
before it is cut and, for an Ollama backend, a repetition cuts it**, for every endpoint, template and repetition check. -/
theorem ends_once_iff (c : StreamSettings) (o : Origin) {lines : List BackendLine} (h : Complete o lines) :
    EndsOnce (c.run o none lines).1.events ↔
      c.ToleratesAll o [] lines ∧ (o.ollama = true → c.Cuts [] (fragmentsOf o c.chat lines)) := by
  rcases ho : o.ollama with _ | _
  · simp only [Complete, ho, Bool.false_eq_true, if_false] at h
    obtain ⟨chunks, blanks, rfl, hchunks, hblanks⟩ := h
    have hends := endsOnce_openai (c := c) ho hchunks hblanks
    simpa [run_eq] using hends
  · simp only [Complete, ho, if_true] at h
    obtain ⟨objects, last, fields, rfl, hobjects, ⟨s, -, rfl⟩, -⟩ := h
    have hformat : ∀ line ∈ objects ++ [.text s (.ok (.obj fields))], line.InFormat := fun line hm => by
      rcases List.mem_append.mp hm with hm | hm
      · obtain ⟨fields, s, -, rfl⟩ := hobjects line hm
        trivial
      · obtain rfl := List.mem_singleton.mp hm
        trivial
    have hends := endsOnce_ollama (c := c) ho hformat
    simpa [run_eq] using hends

/-- The last line of an answer of Ollama. -/
def lastObject : BackendLine :=
  .text "\x7b\"message\": \x7b\"content\": \"Hi\"\x7d, \"done\": true\x7d".toList
    (.ok (.obj [("message", .obj [("content", .str "Hi".toList)]), ("done", .bool true)]))

def ollama : Origin := ⟨true, "llama3", fun _ => 0⟩

theorem complete_lastObject : Complete ollama [lastObject] :=
  ⟨[], lastObject, _, rfl, by simp, ⟨_, by simp, rfl⟩, rfl⟩

theorem ends_once_iff_ollama : EndsOnce (plainChat.run ollama none [lastObject]).1.events ↔
    plainChat.ToleratesAll ollama [] [lastObject] ∧
      (ollama.ollama = true → plainChat.Cuts [] (fragmentsOf ollama plainChat.chat [lastObject])) :=
  ends_once_iff plainChat ollama complete_lastObject

/-- An answer of Ollama without a repetition ends without the end mark. -/
theorem ollama_stream_has_no_end : ¬ ∀ (c : StreamSettings) (o : Origin) (lines : List BackendLine), Complete o lines →
    EndsOnce (c.run o none lines).1.events := by
  intro h
  obtain ⟨before, hevents, -⟩ := h plainChat ollama [lastObject] complete_lastObject
  have hlast : (plainChat.run ollama none [lastObject]).1.events.getLast? = some .done := by rw [hevents]; simp
  have hevents : ∃ p, (plainChat.run ollama none [lastObject]).1.events = [.data p] := ⟨_, rfl⟩
  obtain ⟨p, hp⟩ := hevents
  rw [hp] at hlast
  simp at hlast

end StreamSettings

end LlmStore.Inference
