import Mathlib.Data.List.Basic

/-!
# Comma-separated values

The writer and the reader of `csv`: minimal quoting, quotes doubled, and records that end in `"\r\n"`. The reader is the
state machine that takes one line at a time, each up to and with its line break; it does not accept a field longer than
its limit. It gives back every record that the writer was given, as long as the fields keep to the limit
(`readText_writeRows`).
-/

namespace LlmStore.Csv

/-- A delimiter and a quote, which are different characters and no line breaks, and the longest field that is read. -/
structure Dialect where
  delimiter : Char
  quote : Char
  limit : ℕ
  delimiter_ne_quote : delimiter ≠ quote
  delimiter_stays : delimiter ≠ '\r' ∧ delimiter ≠ '\n'
  quote_stays : quote ≠ '\r' ∧ quote ≠ '\n'

abbrev Record := List (List Char)

/-! ## The writer -/

section Writer

variable (d : Dialect)

/-- Characters for which a field is quoted. -/
def Dialect.special (c : Char) : Bool := c = d.delimiter || c = d.quote || c = '\r' || c = '\n'

def Dialect.double (c : Char) : List Char := if c = d.quote then [c, c] else [c]

def Dialect.quoted (field : List Char) : List Char := d.quote :: field.flatMap d.double ++ [d.quote]

/-- A field, which is the only one of its record or not. -/
def Dialect.writeField (only : Bool) (field : List Char) : List Char :=
  if field.any d.special || (only && field.isEmpty) then d.quoted field else field

def Dialect.writeFields : Record → List Char
  | [] => []
  | [field] => d.writeField false field
  | field :: fields => d.writeField false field ++ d.delimiter :: Dialect.writeFields fields

/-- `writerow`: a field that is alone in its record is quoted where it is empty. -/
def Dialect.writeRow : Record → List Char
  | [field] => d.writeField true field ++ ['\r', '\n']
  | fields => d.writeFields fields ++ ['\r', '\n']

/-- `writerows`. -/
def Dialect.writeRows (rows : List Record) : List Char := rows.flatMap d.writeRow

end Writer

/-! ## The reader -/

inductive State
  | startRecord
  | startField
  | inField
  | inQuotedField
  | quoteInQuotedField
  | eatCrnl
  deriving DecidableEq, Repr

inductive ReadError
  | fieldLimit
  | newLineInField
  deriving DecidableEq, Repr

/-- The parser: its state, the field that it is in, and the fields before. -/
structure Parser where
  state : State
  field : List Char
  fields : Record
  deriving DecidableEq, Repr

/-- `parse_reset`. -/
def Parser.start : Parser := ⟨.startRecord, [], []⟩

/-- `parse_save_field`. -/
def Parser.save (p : Parser) (state : State) : Parser := ⟨state, [], p.fields ++ [p.field]⟩

section Reader

variable (d : Dialect)

/-- `parse_add_char`. -/
def Parser.add (p : Parser) (c : Char) (state : State) : Except ReadError Parser :=
  if d.limit ≤ p.field.length then .error .fieldLimit else .ok { p with state := state, field := p.field ++ [c] }

/-- A character at the start of a field. -/
def Parser.atStart (p : Parser) (c : Char) : Except ReadError Parser :=
  if c = '\n' ∨ c = '\r' then .ok (p.save .eatCrnl)
  else if c = d.quote then .ok { p with state := .inQuotedField }
  else if c = d.delimiter then .ok (p.save .startField)
  else p.add d c .inField

/-- `parse_process_char`. -/
def Parser.step (p : Parser) (c : Char) : Except ReadError Parser :=
  match p.state with
  | .startRecord => if c = '\n' ∨ c = '\r' then .ok { p with state := .eatCrnl } else p.atStart d c
  | .startField => p.atStart d c
  | .inField =>
    if c = '\n' ∨ c = '\r' then .ok (p.save .eatCrnl)
    else if c = d.delimiter then .ok (p.save .startField)
    else p.add d c .inField
  | .inQuotedField => if c = d.quote then .ok { p with state := .quoteInQuotedField } else p.add d c .inQuotedField
  | .quoteInQuotedField =>
    if c = d.quote then p.add d c .inQuotedField
    else if c = d.delimiter then .ok (p.save .startField)
    else if c = '\n' ∨ c = '\r' then .ok (p.save .eatCrnl)
    else p.add d c .inField
  | .eatCrnl => if c = '\n' ∨ c = '\r' then .ok p else .error .newLineInField

/-- `parse_process_char` at the end of a line. -/
def Parser.endLine (p : Parser) : Parser :=
  match p.state with
  | .startRecord | .inQuotedField => p
  | .startField | .inField | .quoteInQuotedField => p.save .startRecord
  | .eatCrnl => { p with state := .startRecord }

def Parser.line (p : Parser) (line : List Char) : Except ReadError Parser :=
  (line.foldlM (Parser.step d) p).map Parser.endLine

/-- The records of the lines that are left: `Reader_iternext` until there are no more. -/
def readLines : Parser → List (List Char) → Except ReadError (List Record)
  | p, [] => .ok (if p.field ≠ [] ∨ p.state = .inQuotedField then [p.fields ++ [p.field]] else [])
  | p, line :: lines => do
    let p ← p.line d line
    if p.state = .startRecord then return p.fields :: (← readLines .start lines) else readLines p lines

end Reader

/-- Whether a line ends with a character: a line break is `"\n"`, `"\r"` or both. -/
def endsLine (c : Char) (s : List Char) : Bool := c = '\n' || (c = '\r' && s.head? ≠ some '\n')

/-- The lines of a text with their line breaks, of which the first has begun. -/
def linesFrom (line : List Char) : List Char → List (List Char)
  | [] => if line.isEmpty then [] else [line]
  | c :: s => if endsLine c s then (line ++ [c]) :: linesFrom [] s else linesFrom (line ++ [c]) s

/-- `list(csv.reader(StringIO(text, newline="")))`. -/
def Dialect.readText (d : Dialect) (text : List Char) : Except ReadError (List Record) :=
  readLines d .start (linesFrom [] text)

/-! ## Reading on in a line -/

section Reads

variable {d : Dialect} {p p' : Parser} {c : Char} {s : List Char} {rows : List Record}

/-- The parser has read a part of a line, which goes on with the text, and reads these records to the end of the text. -/
def Reads (d : Dialect) (p : Parser) (s : List Char) (rows : List Record) : Prop :=
  ∀ p₀ line, line.foldlM (Parser.step d) p₀ = .ok p → readLines d p₀ (linesFrom line s) = .ok rows

theorem foldlM_concat {p₀ : Parser} {line : List Char} (hline : line.foldlM (Parser.step d) p₀ = .ok p)
    (hstep : p.step d c = .ok p') : (line ++ [c]).foldlM (Parser.step d) p₀ = .ok p' := by
  rw [List.foldlM_append, hline]
  simp [bind, Except.bind, hstep, pure, Except.pure]

/-- A character that does not end the line. -/
theorem reads_step (hstep : p.step d c = .ok p') (hc : endsLine c s = false) (h : Reads d p' s rows) :
    Reads d p (c :: s) rows := by
  intro p₀ line hline
  rw [linesFrom, hc]
  exact h p₀ (line ++ [c]) (foldlM_concat hline hstep)

theorem readLines_line {p₀ : Parser} {line : List Char} (hline : line.foldlM (Parser.step d) p₀ = .ok p)
    (lines : List (List Char)) : readLines d p₀ (line :: lines) =
      if p.endLine.state = .startRecord then (readLines d .start lines).map (p.endLine.fields :: ·)
      else readLines d p.endLine lines := by
  rw [readLines, Parser.line, hline]
  simp only [Except.map, bind, Except.bind]
  split
  · cases readLines d .start lines <;> rfl
  · rfl

/-- In a quoted field the lines do not matter. -/
theorem reads_quoted (hstep : p.step d c = .ok p') (hp : p'.state = .inQuotedField) (h : Reads d p' s rows) :
    Reads d p (c :: s) rows := by
  cases hc : endsLine c s with
  | false => exact reads_step hstep hc h
  | true =>
    intro p₀ line hline
    have hend : p'.endLine = p' := by rw [Parser.endLine, hp]
    rw [linesFrom, hc, if_pos rfl, readLines_line (foldlM_concat hline hstep), hend, hp, if_neg (by decide)]
    exact h p' [] rfl

/-- The end of a record, behind its `"\r"`. -/
theorem reads_break (hp : p.state = .eatCrnl) (h : d.readText s = .ok rows) :
    Reads d p ('\n' :: s) (p.fields :: rows) := by
  intro p₀ line hline
  have hstep : p.step d '\n' = .ok p := by rw [Parser.step, hp]; rfl
  have hend : p.endLine = { p with state := .startRecord } := by rw [Parser.endLine, hp]
  have hrest : readLines d .start (linesFrom [] s) = .ok rows := h
  rw [linesFrom, if_pos (by simp [endsLine]), readLines_line (foldlM_concat hline hstep), hend, if_pos rfl, hrest]
  rfl

/-! ## Fields -/

/-- What stands behind a field: a delimiter or the end of the record. -/
inductive Stops (d : Dialect) : Char → List Char → State → Prop
  | delimiter (rest : List Char) : Stops d d.delimiter rest .startField
  | record (rest : List Char) : Stops d '\r' ('\n' :: rest) .eatCrnl

variable {t : Char} {rest field : List Char} {fields : Record} {state : State}

theorem Stops.endsLine (h : Stops d t rest state) : endsLine t rest = false := by
  cases h with
  | delimiter => simp [Csv.endsLine, d.delimiter_stays.1, d.delimiter_stays.2]
  | record => rfl

theorem Dialect.special_eq_false : d.special c = false ↔ c ≠ d.delimiter ∧ c ≠ d.quote ∧ c ≠ '\r' ∧ c ≠ '\n' := by
  simp [Dialect.special, and_assoc]

theorem endsLine_of_not_special (h : d.special c = false) (s : List Char) : Csv.endsLine c s = false := by
  have hc := Dialect.special_eq_false.mp h
  simp [Csv.endsLine, hc.2.2.1, hc.2.2.2]

theorem step_inField (h : Stops d t rest state) (p : Parser) (hp : p.state = .inField) :
    p.step d t = .ok (p.save state) := by
  rw [Parser.step, hp]
  cases h with
  | delimiter => simp [d.delimiter_stays.1, d.delimiter_stays.2]
  | record => simp

theorem step_quoteInQuotedField (h : Stops d t rest state) (p : Parser) (hp : p.state = .quoteInQuotedField) :
    p.step d t = .ok (p.save state) := by
  rw [Parser.step, hp]
  cases h with
  | delimiter => simp [d.delimiter_ne_quote]
  | record => simp [d.quote_stays.1.symm, d.delimiter_stays.1.symm]

/-- The rest of a field without quotes. -/
theorem reads_inField (hs : ∀ c ∈ s, d.special c = false) (ht : Stops d t rest state) :
    ∀ {field : List Char}, (field ++ s).length ≤ d.limit → Reads d ⟨state, [], fields ++ [field ++ s]⟩ rest rows →
      Reads d ⟨.inField, field, fields⟩ (s ++ t :: rest) rows := by
  induction s with
  | nil =>
    intro field _ h
    rw [List.append_nil] at h
    exact reads_step (step_inField ht _ rfl) ht.endsLine h
  | cons c s ih =>
    intro field hlen h
    have hc := Dialect.special_eq_false.mp (hs c (by simp))
    have hroom : ¬ d.limit ≤ field.length := by
      simp only [List.length_append, List.length_cons] at hlen
      omega
    have hstep : Parser.step d ⟨.inField, field, fields⟩ c = .ok ⟨.inField, field ++ [c], fields⟩ := by
      simp [Parser.step, Parser.add, hc.1, hc.2.2.1, hc.2.2.2, hroom]
    refine reads_step hstep (endsLine_of_not_special (hs c (by simp)) _) ?_
    exact ih (fun x hx => hs x (by simp [hx])) (by simpa using hlen) (by simpa using h)

/-- The rest of a quoted field. -/
theorem reads_inQuotedField (ht : Stops d t rest state) :
    ∀ {field : List Char}, (field ++ s).length ≤ d.limit → Reads d ⟨state, [], fields ++ [field ++ s]⟩ rest rows →
      Reads d ⟨.inQuotedField, field, fields⟩ (s.flatMap d.double ++ d.quote :: t :: rest) rows := by
  have hquote : ∀ s, Csv.endsLine d.quote s = false := fun s => by
    simp [Csv.endsLine, d.quote_stays.1, d.quote_stays.2]
  have hopen : ∀ field : List Char, Parser.step d ⟨.inQuotedField, field, fields⟩ d.quote =
      .ok ⟨.quoteInQuotedField, field, fields⟩ := fun field => by simp [Parser.step]
  induction s with
  | nil =>
    intro field _ h
    rw [List.append_nil] at h
    exact reads_step (hopen field) (hquote _) (reads_step (step_quoteInQuotedField ht _ rfl) ht.endsLine h)
  | cons c s ih =>
    intro field hlen h
    have hroom : ¬ d.limit ≤ field.length := by
      simp only [List.length_append, List.length_cons] at hlen
      omega
    have hrest : Reads d ⟨.inQuotedField, field ++ [c], fields⟩ (s.flatMap d.double ++ d.quote :: t :: rest) rows :=
      ih (by simpa using hlen) (by simpa using h)
    rw [List.flatMap_cons, List.append_assoc]
    by_cases hc : c = d.quote
    · subst hc
      rw [Dialect.double, if_pos rfl]
      refine reads_step (hopen field) (hquote _) (reads_quoted ?_ rfl hrest)
      simp [Parser.step, Parser.add, hroom]
    · rw [Dialect.double, if_neg hc]
      refine reads_quoted ?_ rfl hrest
      simp [Parser.step, Parser.add, hc, hroom]

theorem step_atStart {p : Parser} (hp : p.state = .startRecord ∧ c ≠ '\n' ∧ c ≠ '\r' ∨ p.state = .startField) :
    p.step d c = p.atStart d c := by
  rcases hp with ⟨hp, hn, hr⟩ | hp
  · rw [Parser.step, hp]
    simp [hn, hr]
  · rw [Parser.step, hp]

/-- A whole field, at the start of the record or behind a delimiter. -/
theorem reads_writeField (only : Bool) (hlen : s.length ≤ d.limit) (ht : Stops d t rest state)
    {p : Parser} (hp : p.state = .startRecord ∧ (s ≠ [] ∨ only = true ∨ t = d.delimiter) ∨ p.state = .startField)
    (hfield : p.field = []) (h : Reads d ⟨state, [], p.fields ++ [s]⟩ rest rows) :
    Reads d p (d.writeField only s ++ t :: rest) rows := by
  unfold Dialect.writeField
  split
  · have hstart : p.step d d.quote = .ok ⟨.inQuotedField, [], p.fields⟩ := by
      rw [step_atStart (hp.imp (fun hp => ⟨hp.1, d.quote_stays.2, d.quote_stays.1⟩) id), Parser.atStart]
      simp [d.quote_stays.1, d.quote_stays.2, hfield]
    rw [Dialect.quoted, List.append_assoc, List.cons_append]
    refine reads_step hstart (by simp [Csv.endsLine, d.quote_stays.1, d.quote_stays.2]) ?_
    exact reads_inQuotedField ht hlen h
  · rename_i hplain
    rw [Bool.not_eq_true, Bool.or_eq_false_iff, List.any_eq_false] at hplain
    cases s with
    | nil =>
      have honly : only = false := by simpa using hplain.2
      have hstep : p.step d t = .ok (p.save state) := by
        cases ht with
        | delimiter =>
          rw [step_atStart (hp.imp (fun hp => ⟨hp.1, d.delimiter_stays.2, d.delimiter_stays.1⟩) id), Parser.atStart]
          simp [d.delimiter_stays.1, d.delimiter_stays.2, d.delimiter_ne_quote]
        | record =>
          rcases hp with ⟨-, hp | hp | hp⟩ | hp
          · exact absurd rfl hp
          · rw [honly] at hp
            cases hp
          · exact absurd hp.symm d.delimiter_stays.1
          · rw [step_atStart (.inr hp), Parser.atStart]
            simp
      refine reads_step hstep ht.endsLine ?_
      rw [Parser.save, hfield]
      exact h
    | cons c s =>
      have hspecial : ∀ x ∈ c :: s, d.special x = false := fun x hx => by simpa using hplain.1 x hx
      have hc := Dialect.special_eq_false.mp (hspecial c (by simp))
      have hroom : d.limit ≠ 0 := by
        simp only [List.length_cons] at hlen
        omega
      have hstep : p.step d c = .ok ⟨.inField, [c], p.fields⟩ := by
        rw [step_atStart (hp.imp (fun hp => ⟨hp.1, hc.2.2.2, hc.2.2.1⟩) id), Parser.atStart]
        simp [hc.1, hc.2.1, hc.2.2.1, hc.2.2.2, Parser.add, hroom, hfield]
      refine reads_step hstep (endsLine_of_not_special (hspecial c (by simp)) _) ?_
      exact reads_inField (fun x hx => hspecial x (by simp [hx])) ht (by simpa using hlen) (by simpa using h)

/-! ## Records -/

/-- No field of the record is longer than the reader accepts. -/
def Dialect.Fits (d : Dialect) (row : Record) : Prop := ∀ field ∈ row, field.length ≤ d.limit

/-- The fields from the second on, or from the first on where there are more. -/
theorem reads_writeFields (hrest : d.readText rest = .ok rows) : ∀ {fs : Record} {p : Parser}, d.Fits (field :: fs) →
    p.state = .startRecord ∧ fs ≠ [] ∨ p.state = .startField → p.field = [] →
    Reads d p (d.writeFields (field :: fs) ++ '\r' :: '\n' :: rest) ((p.fields ++ field :: fs) :: rows) := by
  intro fs
  induction fs generalizing field with
  | nil =>
    intro p hfits hp hfield
    have hstate : p.state = .startField := by simpa using hp
    have hlen : field.length ≤ d.limit := hfits field (by simp)
    exact reads_writeField false hlen (.record rest) (.inr hstate) hfield (reads_break rfl hrest)
  | cons next fs ih =>
    intro p hfits hp hfield
    have hlen : field.length ≤ d.limit := hfits field (by simp)
    have htext : d.writeFields (field :: next :: fs) =
        d.writeField false field ++ d.delimiter :: d.writeFields (next :: fs) := rfl
    rw [htext, List.append_assoc, List.cons_append]
    refine reads_writeField false hlen (.delimiter _) (hp.imp (fun hp => ⟨hp.1, .inr (.inr rfl)⟩) id) hfield ?_
    have hrestFits : d.Fits (next :: fs) := fun f hf => hfits f (List.mem_cons_of_mem _ hf)
    simpa using ih (p := ⟨.startField, [], p.fields ++ [field]⟩) hrestFits (.inr rfl) rfl

theorem readText_writeRow {row : Record} (hfits : d.Fits row) (hrest : d.readText rest = .ok rows) :
    d.readText (d.writeRow row ++ rest) = .ok (row :: rows) := by
  have hread : Reads d .start (d.writeRow row ++ rest) (row :: rows) := by
    match row, hfits with
    | [], _ =>
      have hstep : Parser.start.step d '\r' = .ok ⟨.eatCrnl, [], []⟩ := rfl
      exact reads_step hstep rfl (reads_break rfl hrest)
    | [field], hfits =>
      rw [Dialect.writeRow, List.append_assoc]
      have hlen : field.length ≤ d.limit := hfits field (by simp)
      exact reads_writeField true hlen (.record rest) (.inl ⟨rfl, .inr (.inl rfl)⟩) rfl (reads_break rfl hrest)
    | field :: next :: fs, hfits =>
      rw [Dialect.writeRow, List.append_assoc]
      · exact reads_writeFields hrest hfits (.inl ⟨rfl, by simp⟩) rfl
      · simp
  exact hread .start [] rfl

end Reads

/-- The reader gives back what the writer was given. -/
theorem readText_writeRows {d : Dialect} {rows : List Record} (hfits : ∀ row ∈ rows, d.Fits row) :
    d.readText (d.writeRows rows) = .ok rows := by
  induction rows with
  | nil => rfl
  | cons row rows ih =>
    rw [Dialect.writeRows, List.flatMap_cons]
    exact readText_writeRow (hfits row (by simp)) (ih fun row hrow => hfits row (by simp [hrow]))

end LlmStore.Csv
