import LlmStore.Core.Text

/-!
# Repetition loops

`app/utils/anti_loop.py`. `str.lower` is a parameter of it: the words of a text are counted without regard to case.
-/

namespace LlmStore.Inference

/-! ## Counting -/

/-- The loop `counts[x] = counts.get(x, 0) + 1`, left at the first item that is counted up to `n`: its index, after the
items seen so far. -/
def countedTo {α : Type} [DecidableEq α] (n : ℕ) : List α → List α → Option ℕ
  | _, [] => none
  | seen, x :: xs => if n ≤ (x :: seen).count x then some seen.length else countedTo n (x :: seen) xs

/-- The positions that `re.finditer(re.escape(block), text)` finds, from a position on, after `skip` characters. -/
def occurrencesFrom (block : List Char) : ℕ → ℕ → List Char → List ℕ
  | _, _, [] => []
  | pos, skip + 1, _ :: text => occurrencesFrom block (pos + 1) skip text
  | pos, 0, c :: text =>
    if block.isPrefixOf (c :: text) then pos :: occurrencesFrom block (pos + 1) (block.length - 1) text
    else occurrencesFrom block (pos + 1) 0 text

/-- `re.finditer(re.escape(block), text)` by the starts of the matches; `text.count(block)` is their number. -/
def occurrences (block text : List Char) : List ℕ := occurrencesFrom block 0 0 text

/-! ## Lines and sentences -/

/-- A character at which `splitlines` ends a line. -/
def isLineBreak (c : Char) : Bool :=
  let n := c.toNat
  (10 ≤ n && n ≤ 13) || (28 ≤ n && n ≤ 30) || n == 0x85 || n == 0x2028 || n == 0x2029

/-- `text.splitlines()`, with the line so far; `\r\n` is one break, and a break at the end starts no line. -/
def splitlinesFrom : List Char → List Char → List (List Char)
  | [], [] => []
  | line, [] => [line]
  | line, '\r' :: '\n' :: text => line :: splitlinesFrom [] text
  | line, c :: text => if isLineBreak c then line :: splitlinesFrom [] text else splitlinesFrom (line ++ [c]) text

/-- `text.splitlines()`. -/
def splitlines (text : List Char) : List (List Char) := splitlinesFrom [] text

/-- `[.!?]`. -/
def endsSentence (c : Char) : Bool := c == '.' || c == '!' || c == '?'

/-- Text by what `[.!?]\s*` matches in it: the pieces that a match follows, each with its match, and the last piece. -/
structure Sentences where
  ended : List (List Char × List Char)
  last : List Char

/-- What is cut off before the first piece. -/
def Sentences.cons (piece separator : List Char) (s : Sentences) : Sentences :=
  { s with ended := (piece, separator) :: s.ended }

/-- The matches of `[.!?]\s*`, with the piece so far and, inside of a match, the match so far. -/
def sentencesFrom : List Char → Option (List Char) → List Char → Sentences
  | piece, none, [] => ⟨[], piece⟩
  | piece, some separator, [] => ⟨[(piece, separator)], []⟩
  | piece, none, c :: text =>
    if endsSentence c then sentencesFrom piece (some [c]) text else sentencesFrom (piece ++ [c]) none text
  | piece, some separator, c :: text =>
    if Text.isSpace c then sentencesFrom piece (some (separator ++ [c])) text
    else if endsSentence c then (sentencesFrom [] (some [c]) text).cons piece separator
    else (sentencesFrom [c] none text).cons piece separator

/-- `re.split(r"([.!?]\s*)", text)`: the pieces and what separates them. -/
def sentences (text : List Char) : Sentences := sentencesFrom [] none text

/-- `re.split(r"[.!?]\s*", text)`. -/
def Sentences.pieces (s : Sentences) : List (List Char) := s.ended.map Prod.fst ++ [s.last]

/-! ## Detection -/

/-- The headings that `_detect_block_repetition` counts. -/
def blocks : List (List Char) :=
  ["Goal:", "Progress:", "Done:", "In Progress:", "Next Steps:", "Relevant Files:"].map String.toList

/-- `_detect_block_repetition`. -/
def detectBlockRepetition (text : List Char) (maxRepeats : ℕ) : Bool :=
  blocks.any fun block => maxRepeats < (occurrences block text).length

/-- `_detect_long_line_repetition`. -/
def detectLongLineRepetition (text : List Char) (maxRepeats : ℕ) : Bool :=
  let lines := ((splitlines text).map Text.strip).filter fun line => 40 < line.length
  (countedTo (maxRepeats + 1) [] lines).isSome

/-- The sizes of the n-grams. -/
def windowSizes : List ℕ := [5, 8, 12, 20]

/-- `" ".join(words[i : i + ws]) for i in range(len(words) - ws + 1)`. -/
def ngrams (words : List (List Char)) (ws : ℕ) : List (List Char) :=
  (List.range (words.length + 1 - ws)).map fun i => [' '].intercalate ((words.drop i).take ws)

variable (lower : List Char → List Char)

/-- The loop over the words of a text: a word is counted to the threshold and is at least half of them by then. -/
def detectSingleWord (singleWordThreshold total : ℕ) : List (List Char) → List (List Char) → Bool
  | _, [] => false
  | seen, w :: words =>
    let count := (lower w :: seen).count (lower w)
    (singleWordThreshold ≤ count && total ≤ 2 * count) ||
      detectSingleWord singleWordThreshold total (lower w :: seen) words

/-- `_detect_ngram_repetition`. -/
def detectNgramRepetition (text : List Char) (threshold : ℕ) (singleWordThreshold : ℕ := 8) : Bool :=
  let stripped := Text.strip text
  if stripped.length < 40 then false
  else
    let words := Text.split stripped
    (singleWordThreshold ≤ words.length && detectSingleWord lower singleWordThreshold words.length [] words) ||
      windowSizes.any fun ws => ws * threshold ≤ words.length && (countedTo threshold [] (ngrams words ws)).isSome

/-- A stripped line that `_detect_short_phrase_repetition` counts. -/
def isShortLine (line : List Char) : Bool := 10 ≤ line.length && line.length ≤ 40

/-- `_detect_short_phrase_repetition`. -/
def detectShortPhraseRepetition (text : List Char) (maxRepeats : ℕ) : Bool :=
  let lines := ((splitlines text).map Text.strip).filter isShortLine
  let phrases := ((sentences text).pieces.map Text.strip).filter fun s => 10 ≤ s.length && s.length ≤ 60
  (countedTo (maxRepeats + 1) [] lines).isSome || (countedTo (maxRepeats + 1) [] phrases).isSome

/-- How often an n-gram may not occur. -/
def ngramThreshold (promptTemplate : Option String) : ℕ := if promptTemplate = some "gemma" then 3 else 4

/-- `detect_repetition`. -/
def detectRepetition (promptTemplate : Option String) (text : List Char) (maxRepeats : ℕ := 2) : Bool :=
  detectBlockRepetition text maxRepeats || detectLongLineRepetition text maxRepeats ||
    detectNgramRepetition lower text (ngramThreshold promptTemplate) || detectShortPhraseRepetition text maxRepeats

/-! ## Truncation -/

/-- The text that is put for what repeats itself. -/
def truncationNotice : List Char := "\n\n[Truncated due to repetition loop]".toList

/-- Where the third of a heading starts, for the first heading that there are three of. -/
def blockCut (text : List Char) (maxRepeats : ℕ) : Option (List Char) :=
  blocks.findSome? fun block => ((occurrences block text)[maxRepeats]?).map text.take

/-- What comes before the repeated n-gram; its position is taken from the words joined by single spaces. -/
def ngramCut (text : List Char) (threshold : ℕ) : Option (List Char) :=
  let words := Text.split text
  windowSizes.findSome? fun ws =>
    (countedTo threshold [] (ngrams words ws)).map fun i => text.take ([' '].intercalate (words.take i)).length

/-- The lines before the repeated one, among those that are counted: with the lines seen so far and what is counted of
them. -/
def lineCutFrom (maxRepeats : ℕ) : List (List Char) → List (List Char) → List (List Char) → Option (List Char)
  | _, _, [] => none
  | before, counted, line :: lines =>
    let stripped := Text.strip line
    if isShortLine stripped then
      if maxRepeats < (stripped :: counted).count stripped then some (['\n'].intercalate before)
      else lineCutFrom maxRepeats (before ++ [line]) (stripped :: counted) lines
    else lineCutFrom maxRepeats (before ++ [line]) counted lines

/-- The sentences before the repeated one; here a phrase has its punctuation and any length. -/
def phraseCut (text : List Char) (maxRepeats : ℕ) : Option (List Char) :=
  let ended := (sentences text).ended.map fun s => s.1 ++ s.2
  (countedTo (maxRepeats + 1) [] (ended.map Text.strip)).map fun i => (ended.take i).flatten

/-- What `truncate_at_repetition` keeps of a text, where it finds something to cut. -/
def keptText (promptTemplate : Option String) (text : List Char) (maxRepeats : ℕ) : Option (List Char) :=
  let threshold := ngramThreshold promptTemplate
  blockCut text maxRepeats <|>
    (if detectNgramRepetition lower text threshold then ngramCut text threshold else none) <|>
    if detectShortPhraseRepetition text maxRepeats then
      lineCutFrom maxRepeats [] [] (splitlines text) <|> phraseCut text maxRepeats
    else none

/-- `truncate_at_repetition`. -/
def truncateAtRepetition (promptTemplate : Option String) (text : List Char) (maxRepeats : ℕ := 2) : List Char :=
  match keptText lower promptTemplate text maxRepeats with
  | some kept => Text.strip kept ++ truncationNotice
  | none => text

end LlmStore.Inference
