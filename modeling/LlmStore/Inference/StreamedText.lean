import LlmStore.Inference.LoopAgreement
import LlmStore.Lib.Trim

/-!
# The text of a streamed `qwen` answer

Without reasoning in it, the text of a `qwen` answer is streamed with each chunk stripped by itself. What the client can
put together is the text of the backend, but for the spaces at its ends, exactly if no space stands next to a seam
between two chunks that has text on both sides (`streamed_text_iff`).
-/

namespace LlmStore.Inference

open Blocks LlmStore.Lib

/-! ## What is sent and what arrives -/

/-- The lines of a backend are read as pieces of a chat stream; some are skipped. -/
inductive Reads (o : Origin) : List BackendLine → List Piece → Prop
  | nil : Reads o [] []
  | skip {line lines stream} : o.read true lines.length line = .ok none → Reads o lines stream →
      Reads o (line :: lines) stream
  | piece {line lines stream} (piece : Piece) : o.read true lines.length line = .ok (some piece.line) →
      Reads o lines stream → Reads o (line :: lines) (piece :: stream)

/-- The content of the delta of an event. -/
def deltaContent : Line → List Char
  | .data payload =>
    match (do
      let choice ← (← payload.get "choices" (.arr [])).head
      (← choice.get "delta" (.obj [])).get "content" .null : Except PyError Json) with
    | .ok (.str s) => s
    | _ => []
  | _ => []

/-- The contents of the delta events that a client receives, one after the other. -/
def deliveredText (r : Received) : List Char := r.events.flatMap deltaContent

/-- There is no `<think>` and no `</think>` in the text, in any letter case. -/
def TagFree (s : List Char) : Prop :=
  ∀ t, t <:+ s → startsWith thinkBlock.opening t = false ∧ startsWith thinkBlock.closing t = false

/-! ## The sanitiser -/

theorem TagFree.of_append_left {s t : List Char} (h : TagFree (s ++ t)) : TagFree s := by
  rintro u ⟨v, rfl⟩
  have hu := h (u ++ t) ⟨v, by simp⟩
  constructor
  · by_contra hopen
    have hmono := startsWith_mono t ((Bool.not_eq_false _).mp hopen)
    rw [hu.1] at hmono
    cases hmono
  · by_contra hclose
    have hmono := startsWith_mono t ((Bool.not_eq_false _).mp hclose)
    rw [hu.2] at hmono
    cases hmono

theorem TagFree.of_append_right {s t : List Char} (h : TagFree (s ++ t)) : TagFree t := fun u hu =>
  h u (hu.trans (List.suffix_append s t))

theorem TagFree.of_mem_flatten {cs : List (List Char)} (h : TagFree cs.flatten) {c : List Char} (hc : c ∈ cs) :
    TagFree c := by
  obtain ⟨pre, post, rfl⟩ := List.append_of_mem hc
  rw [List.flatten_append, List.flatten_cons] at h
  exact h.of_append_right.of_append_left

theorem removeBlocks_of_tagFree {s : List Char} (h : TagFree s) : thinkBlock.removeBlocks s = s := by
  refine thinkBlock.removeBlocks_eq_self fun t ht => ?_
  rw [Delimiters.block, (h t ht).1]
  rfl

/-- A text that does not occur is not deleted. -/
theorem delete_of_not_occurs {old s : List Char} (h : ∀ t, t <:+ s → old.isPrefixOf t = false) :
    Text.delete old s = s := by
  unfold Text.delete
  induction s with
  | nil => rfl
  | cons c s ih =>
    rw [Text.deleteFrom, if_neg (by simp [h _ (List.suffix_refl _)])]
    exact congrArg (c :: ·) (ih fun t ht => h t (ht.trans (List.suffix_cons c s)))

/-- A tag in lower case is a tag. -/
theorem not_isPrefixOf_tag {tag t : List Char} {qs : List (Char → Bool)} (htag : startsWith qs tag = true)
    (h : startsWith qs t = false) : tag.isPrefixOf t = false := by
  by_contra hprefix
  obtain ⟨r, rfl⟩ := List.isPrefixOf_iff_prefix.mp ((Bool.not_eq_false _).mp hprefix)
  rw [startsWith_mono r htag] at h
  cases h

/-- A text without tags is only stripped. -/
theorem sanitizeText_of_tagFree {s : List Char} (h : TagFree s) : sanitizeText s = Text.strip s := by
  have hopen : startsWith thinkBlock.opening thinkTag = true := by decide
  have hclose : startsWith thinkBlock.closing endThinkTag = true := by decide
  rw [sanitizeText, removeBlocks_of_tagFree h,
    delete_of_not_occurs fun t ht => not_isPrefixOf_tag hopen (h t ht).1,
    delete_of_not_occurs fun t ht => not_isPrefixOf_tag hclose (h t ht).2]

/-! ## Streams -/

theorem read_ne_empty {o : Origin} {left : ℕ} {line : BackendLine} :
    o.read true left line ≠ .ok (some (.other [])) := by
  intro h
  unfold Origin.read at h
  split at h
  · cases h
  · split at h
    · cases hjson : line.json with
      | error e =>
        rw [hjson] at h
        cases e <;> cases h
      | ok payload =>
        rw [hjson] at h
        obtain ⟨message, -, h⟩ := bind_eq_ok_iff.mp h
        obtain ⟨content, -, h⟩ := bind_eq_ok_iff.mp h
        cases h
    · cases line with
      | text s json =>
        cases s with
        | nil => contradiction
        | cons c s => cases h
      | _ => cases h

/-- What is sent for lines that are read as pieces is what is sent for the pieces. -/
theorem stream_reads {c : StreamSettings} (hchat : c.chat = true) {o : Origin} (broken : Option String)
    {lines : List BackendLine} {stream : List Piece} (h : Reads o lines stream) :
    ∀ fragments, c.stream o broken fragments lines = c.eventStream broken fragments (stream.map Piece.line) := by
  induction h with
  | nil =>
    intro fragments
    rw [List.map_nil, StreamSettings.eventStream, StreamSettings.stream]
  | skip hread _ ih =>
    intro fragments
    rw [StreamSettings.stream, StreamSettings.turn, hchat, hread]
    simp [ih, Received.after]
  | piece piece hread _ ih =>
    intro fragments
    rw [StreamSettings.stream, StreamSettings.turn, hchat, hread, List.map_cons]
    simp only
    cases piece with
    | other text =>
      cases text with
      | nil => exact absurd hread read_ne_empty
      | cons d text =>
        simp only [Piece.line, StreamSettings.lineTurn, StreamSettings.eventStream]
        cases c.passOn (.other (d :: text)) with
        | error e => rfl
        | ok event => simp [ih]
    | done =>
      simp only [Piece.line, StreamSettings.lineTurn, StreamSettings.eventStream]
      cases c.passOn .done with
      | error e => rfl
      | ok event => simp [ih]
    | chunk f content =>
      simp only [Piece.line, StreamSettings.lineTurn, StreamSettings.eventStream, f.fragment_payload]
      by_cases hloop : c.loopDetected (fragments ++ [(Piece.chunk f content).fragment?.getD []]) = true
      · simp [hloop]
      · simp only [hloop, if_false, Bool.false_eq_true]
        cases c.passOn (.data (f.payload.fill (.arr [f.item content]))) with
        | error e => rfl
        | ok event => simp [ih]

/-- What a client reads in the events for a piece. -/
theorem flatMap_deltaContent_events (piece : Piece) :
    piece.events.flatMap deltaContent = (piece.text?.map sanitizeText).getD [] := by
  have hentry : ∀ (key : String) (fields : List (String × Json)), key ≠ "content" →
      (entry key fields).lookup "content" = none := by
    intro key fields hkey
    have hne : ("content" == key) = false := beq_eq_false_iff_ne.mpr hkey.symm
    cases h : fields.lookup key <;> simp [entry, h, List.lookup_cons, hne]
  have hdelta : ∀ (f : Envelope) (content : Content), deltaContent (.data (.obj (f.shownPayload content))) =
      ((Piece.chunk f content).text?.map sanitizeText).getD [] := by
    intro f content
    have hlookup : (entry "role" (f.delta.before ++ f.delta.after) ++ Envelope.shownContent content ++ [] ++
        entry "tool_calls" (f.delta.before ++ f.delta.after)).lookup "content" =
          (Envelope.shownContent content).lookup "content" := by
      simp [Hole.lookup_append, hentry]
    have hchoices : (Json.obj (f.shownPayload content)).get "choices" (.arr []) =
        .ok (.arr [.obj (f.shownItem content)]) := by
      simp [Envelope.shownPayload, Json.get, List.lookup_cons]
    have hmessage : (Json.obj (f.shownItem content)).get "delta" (.obj []) = .ok (f.shownMessage content) := by
      simp [Envelope.shownItem, Json.get, List.lookup_cons]
    have hcontent : (f.shownMessage content).get "content" .null =
        .ok (((Envelope.shownContent content).lookup "content").getD .null) := by
      rw [Envelope.shownMessage, Json.get, hlookup]
    simp only [deltaContent, hchoices, hmessage, hcontent, Json.head, bind, Except.bind]
    cases content <;> rfl
  cases piece with
  | other text => cases text <;> rfl
  | done => rfl
  | chunk f content =>
    rw [Piece.events]
    cases content with
    | text s => rw [f.event_text, List.flatMap_singleton, hdelta]
    | absent =>
      rw [Envelope.event]
      split
      · rfl
      · rw [List.flatMap_singleton, hdelta]
    | null =>
      rw [Envelope.event]
      split
      · rfl
      · rw [List.flatMap_singleton, hdelta]

/-- Where no loop is detected, the client reads the chunks as the sanitiser leaves each of them. -/
theorem deliveredText_received {check : List Char → Bool} {stream : List Piece} (h : LoopFree check stream)
    (broken : Option String) : deliveredText (received check broken stream) = ((texts stream).map sanitizeText).flatten := by
  have hbroken : (broken.map errorEvent).toList.flatMap deltaContent = [] := by cases broken <;> rfl
  have hstream : ∀ stream : List Piece,
      (stream.flatMap Piece.events).flatMap deltaContent = ((texts stream).map sanitizeText).flatten := by
    intro stream
    induction stream with
    | nil => rfl
    | cons piece stream ih =>
      rw [List.flatMap_cons, List.flatMap_append, ih, flatMap_deltaContent_events]
      cases ht : piece.text? with
      | none => simp [texts, List.filterMap_cons_none ht]
      | some s => simp [texts, List.filterMap_cons_some ht]
  rw [deliveredText, received_eq h, List.flatMap_append, hbroken, List.append_nil, hstream]

/-- **The text of a streamed `qwen` answer without tags and loops arrives as it is, but for the spaces at its very
beginning and end, if and only if no space stands next to a seam between two chunks that has text on both sides**, for
every provider, every way of splitting the text and every other field of the chunks. -/
theorem streamed_text_iff (lower : List Char → List Char) (o : Origin) (broken : Option String)
    {lines : List BackendLine} {stream : List Piece} (hreads : Reads o lines stream)
    (htags : TagFree (texts stream).flatten) (hloop : LoopFree (detectRepetition lower (some "qwen") ·) stream) :
    Text.strip (deliveredText ((checkedStream lower false (some "qwen")).stream o broken [] lines)) =
      Text.strip (texts stream).flatten ↔ CleanSeams Text.isSpace (texts stream) := by
  have hstripped : (texts stream).map sanitizeText = (texts stream).map (trim Text.isSpace) :=
    List.map_congr_left fun c hc => sanitizeText_of_tagFree (htags.of_mem_flatten hc)
  have hdelivered : deliveredText ((checkedStream lower false (some "qwen")).stream o broken [] lines) =
      ((texts stream).map sanitizeText).flatten := by
    rw [stream_reads rfl broken hreads]
    exact deliveredText_received hloop broken
  rw [hdelivered, hstripped]
  exact trim_flatten_map_trim_iff (texts stream)

/-! ### Two words -/

/-- A text as a stream of chunks, with the end mark. -/
def chunked (chunks : List (List Char)) : List Piece :=
  chunks.map (fun text => .chunk plainEnvelope (.text text)) ++ [.done]

/-- The lines of the backend. -/
def chunkedLines (chunks : List (List Char)) : List BackendLine := chunks.map plainChunk ++ [.done]

theorem reads_chunked (chunks : List (List Char)) :
    Reads StreamSettings.llamaCpp (chunkedLines chunks) (chunked chunks) := by
  induction chunks with
  | nil => exact .piece .done rfl .nil
  | cons text chunks ih => exact .piece (.chunk plainEnvelope (.text text)) rfl ih

theorem texts_chunked (chunks : List (List Char)) : texts (chunked chunks) = chunks := by
  induction chunks with
  | nil => rfl
  | cons text chunks ih => exact congrArg (text :: ·) ih

theorem tagFree_of_tails {s : List Char} (h : s.tails.all (fun t =>
    !startsWith thinkBlock.opening t && !startsWith thinkBlock.closing t) = true) : TagFree s := fun t ht => by
  have hall := List.all_eq_true.mp h t ((List.mem_tails t s).mpr ht)
  simpa using hall

/-- Nothing is checked in a stream of fewer than five chunks. -/
theorem loopFree_of_short (check : List Char → Bool) {stream : List Piece} (h : (fragments stream).length < 5) :
    LoopFree check stream := by
  intro n hn
  have hlength : ((fragments stream).take (n + 1)).length = n + 1 := by
    rw [List.length_take]
    omega
  have hmod : (n + 1) % 5 ≠ 0 := by omega
  simp [StreamSettings.loopDetected, hlength, hmod]

/-- Two words, the first with the space after it. -/
def twoWords : List (List Char) := ["Two ".toList, "words".toList]

theorem twoWords_tagFree : TagFree (texts (chunked twoWords)).flatten := by
  rw [texts_chunked]
  exact tagFree_of_tails (by decide)

theorem twoWords_loopFree (check : List Char → Bool) : LoopFree check (chunked twoWords) :=
  loopFree_of_short check (by decide)

theorem streamed_text_iff_words :
    Text.strip (deliveredText ((checkedStream lowerAscii false (some "qwen")).stream StreamSettings.llamaCpp none []
      (chunkedLines twoWords))) = Text.strip (texts (chunked twoWords)).flatten ↔
        CleanSeams Text.isSpace (texts (chunked twoWords)) :=
  streamed_text_iff lowerAscii StreamSettings.llamaCpp none (reads_chunked twoWords) twoWords_tagFree
    (twoWords_loopFree _)

/-- The space between two words is lost where a chunk ends with it. -/
theorem words_run_together :
    Reads StreamSettings.llamaCpp (chunkedLines twoWords) (chunked twoWords) ∧
      TagFree (texts (chunked twoWords)).flatten ∧
      LoopFree (detectRepetition lowerAscii (some "qwen") ·) (chunked twoWords) ∧
      deliveredText ((checkedStream lowerAscii false (some "qwen")).stream StreamSettings.llamaCpp none []
        (chunkedLines twoWords)) = "Twowords".toList ∧
      Text.strip "Twowords".toList ≠ Text.strip (texts (chunked twoWords)).flatten := by
  refine ⟨reads_chunked twoWords, twoWords_tagFree, twoWords_loopFree _, ?_, ?_⟩
  · rw [stream_reads rfl none (reads_chunked twoWords)]
    refine (deliveredText_received (twoWords_loopFree _) none).trans ?_
    rw [texts_chunked]
    decide
  · rw [texts_chunked]
    decide

end LlmStore.Inference
