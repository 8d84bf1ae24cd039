import LlmStore.Core.Decimal
import LlmStore.Core.Json
import Mathlib.Data.List.Sort
import Mathlib.Data.String.Basic

/-!
# `json.dumps` and `json.loads`

The texts that the encoder of `json` makes, with sorted keys or not, and the decoder. Where the keys of every object are
distinct and every finite float is a decimal in their range, decoding gives back the encoded value (`loads_dumps`).
-/

namespace LlmStore.JsonText

open LlmStore.Decimal

/-! ## The encoder -/

/-- The arguments of `json.dumps`; `ensure_ascii` is true throughout. -/
structure Style where
  sortKeys : Bool
  itemSeparator : List Char
  keySeparator : List Char

/-- The style without arguments. -/
def Style.default : Style := ⟨false, [',', ' '], [':', ' ']⟩

/-- `sort_keys=True, separators=(",", ":")`. -/
def Style.canonical : Style := ⟨true, [','], [':']⟩

def hexDigit (n : ℕ) : Char := (n % 16).digitChar

def unicodeEscape (n : ℕ) : List Char :=
  ['\\', 'u', hexDigit (n / 4096), hexDigit (n / 256), hexDigit (n / 16), hexDigit n]

/-- The code points that a character is escaped as: itself, or a pair of surrogates. -/
def codeUnits (c : Char) : List ℕ :=
  if c.toNat < 0x10000 then [c.toNat]
  else [0xD800 + (c.toNat - 0x10000) / 0x400, 0xDC00 + (c.toNat - 0x10000) % 0x400]

def escapeChar (c : Char) : List Char :=
  if c = '"' then ['\\', '"']
  else if c = '\\' then ['\\', '\\']
  else if c = '\n' then ['\\', 'n']
  else if c = '\r' then ['\\', 'r']
  else if c = '\t' then ['\\', 't']
  else if c.toNat = 12 then ['\\', 'f']
  else if c.toNat = 8 then ['\\', 'b']
  else if 32 ≤ c.toNat ∧ c.toNat ≤ 126 then [c]
  else (codeUnits c).flatMap unicodeEscape

/-- `py_encode_basestring_ascii`. -/
def encodeString (s : List Char) : List Char := '"' :: s.flatMap escapeChar ++ ['"']

/-- `separator.join(parts)`. -/
def join (separator : List Char) : List (List Char) → List Char
  | [] => []
  | [part] => part
  | part :: parts => part ++ separator ++ join separator parts

/-- `sorted(items)`, for distinct keys. -/
def sortFields {α : Type*} (fields : List (String × α)) : List (String × α) :=
  fields.insertionSort fun a b => a.1 ≤ b.1

/-- `floatstr`, with `allow_nan`. -/
def floatstr : PyFloat → List Char
  | .finite q => reprFloat q
  | .negZero => '-' :: reprFloat 0
  | .posInf => "Infinity".toList
  | .negInf => "-Infinity".toList
  | .nan => "NaN".toList

mutual

/-- `json.dumps`. -/
def dumps (style : Style) : Json → List Char
  | .null => "null".toList
  | .bool b => if b then "true".toList else "false".toList
  | .int n => reprInt n
  | .float x => floatstr x
  | .str s => encodeString s
  | .arr items => '[' :: join style.itemSeparator (dumpsItems style items) ++ [']']
  | .obj fields =>
    let parts := dumpsFields style fields
    let parts := if style.sortKeys then sortFields parts else parts
    let entries := parts.map fun part => encodeString part.1.toList ++ style.keySeparator ++ part.2
    '{' :: join style.itemSeparator entries ++ ['}']

def dumpsItems (style : Style) : List Json → List (List Char)
  | [] => []
  | item :: items => dumps style item :: dumpsItems style items

def dumpsFields (style : Style) : List (String × Json) → List (String × List Char)
  | [] => []
  | (key, value) :: fields => (key, dumps style value) :: dumpsFields style fields

end

/-! ## The decoder -/

/-- The white space of JSON. -/
def isWhite (c : Char) : Bool := c = ' ' || c = '\t' || c = '\n' || c = '\r'

def skip (s : List Char) : List Char := s.dropWhile isWhite

def hexValue (c : Char) : Option ℕ :=
  if '0' ≤ c ∧ c ≤ '9' then some (c.toNat - 48)
  else if 'a' ≤ c ∧ c ≤ 'f' then some (c.toNat - 87)
  else if 'A' ≤ c ∧ c ≤ 'F' then some (c.toNat - 55)
  else none

/-- `_decode_uXXXX`. -/
def hex4 (a b c d : Char) : Option ℕ := do
  some ((← hexValue a) * 4096 + (← hexValue b) * 256 + (← hexValue c) * 16 + (← hexValue d))

/-- `BACKSLASH`. -/
def backslash (c : Char) : Option ℕ :=
  if c = '"' ∨ c = '\\' ∨ c = '/' then some c.toNat
  else if c = 'b' then some 8
  else if c = 'f' then some 12
  else if c = 'n' then some 10
  else if c = 'r' then some 13
  else if c = 't' then some 9
  else none

/-- The code points up to the closing quote, each escape as one, and the text behind it. -/
def scanUnits : List Char → Option (List ℕ × List Char)
  | [] => none
  | c :: s =>
    if c = '"' then some ([], s)
    else if c = '\\' then
      match s with
      | [] => none
      | e :: s =>
        if e = 'u' then
          match s with
          | x :: y :: z :: w :: s => do
            let n ← hex4 x y z w
            let (units, rest) ← scanUnits s
            some (n :: units, rest)
          | _ => none
        else do
          let n ← backslash e
          let (units, rest) ← scanUnits s
          some (n :: units, rest)
    else if c.toNat < 32 then none
    else do
      let (units, rest) ← scanUnits s
      some (c.toNat :: units, rest)

/-- A high surrogate and the low one behind it are one character. A surrogate alone, which is no `Char`, is refused. -/
def joinSurrogates : List ℕ → Option (List Char)
  | [] => some []
  | h :: units =>
    if 0xD800 ≤ h ∧ h < 0xDC00 then
      match units with
      | [] => none
      | l :: units =>
        if 0xDC00 ≤ l ∧ l < 0xE000 then
          (joinSurrogates units).map (Char.ofNat (0x10000 + (h - 0xD800) * 0x400 + (l - 0xDC00)) :: ·)
        else none
    else if 0xDC00 ≤ h ∧ h < 0xE000 then none
    else (joinSurrogates units).map (Char.ofNat h :: ·)

/-- `scanstring`, behind the opening quote. -/
def scanString (s : List Char) : Option (List Char × List Char) := do
  let (units, rest) ← scanUnits s
  let chars ← joinSurrogates units
  some (chars, rest)

def scanKeyword (s : List Char) : Option (Json × List Char) :=
  if "null".toList.isPrefixOf s then some (.null, s.drop 4)
  else if "true".toList.isPrefixOf s then some (.bool true, s.drop 4)
  else if "false".toList.isPrefixOf s then some (.bool false, s.drop 5)
  else none

/-- The least magnitude that is rounded to an infinite float. -/
def overflow : ℚ := 2 ^ 1024 - 2 ^ 970

/-- The greatest one that is rounded to zero. -/
def underflow : ℚ := 1 / 2 ^ 1075

/-- `float(text)`, for the sign and the magnitude in the text. -/
def readFloat (negative : Bool) (q : ℚ) : PyFloat :=
  if overflow ≤ q then if negative then .negInf else .posInf
  else if q ≤ underflow then if negative then .negZero else .finite 0
  else .finite (if negative then -q else q)

/-- `int(text)` or `float(text)`, for a literal with its sign. -/
def number (negative : Bool) (l : Literal) : Json :=
  if l.isFloat then .float (readFloat negative l.value)
  else .int (if negative then -Nat.ofDigitChars 10 l.whole 0 else Nat.ofDigitChars 10 l.whole 0)

/-- The numbers that are no JSON. -/
def scanNonFinite (s : List Char) : Option (Json × List Char) :=
  if "NaN".toList.isPrefixOf s then some (.float .nan, s.drop 3)
  else if "Infinity".toList.isPrefixOf s then some (.float .posInf, s.drop 8)
  else if "-Infinity".toList.isPrefixOf s then some (.float .negInf, s.drop 9)
  else none

/-- `dict(pairs)`. -/
def toDict (pairs : List (String × Json)) : List (String × Json) :=
  pairs.foldl (fun fields pair => Json.setItem pair.1 pair.2 fields) []

mutual

/-- `scan_once`, with fuel for the nesting and the items. -/
def scanValue : ℕ → List Char → Option (Json × List Char)
  | 0, _ => none
  | _ + 1, [] => none
  | fuel + 1, c :: s =>
    if c = '"' then (scanString s).map fun (chars, rest) => (.str chars, rest)
    else if c = '[' then
      match skip s with
      | [] => none
      | d :: rest =>
        if d = ']' then some (.arr [], rest)
        else (scanItems fuel (d :: rest)).map fun (items, rest) => (.arr items, rest)
    else if c = '{' then
      match skip s with
      | [] => none
      | d :: rest =>
        if d = '}' then some (.obj [], rest)
        else (scanFields fuel (d :: rest)).map fun (pairs, rest) => (.obj (toDict pairs), rest)
    else
      match scanKeyword (c :: s) with
      | some found => some found
      | none =>
        match scanNumber (c :: s) with
        | some ((negative, l), rest) => some (number negative l, rest)
        | none => scanNonFinite (c :: s)

/-- The items of an array up to its end, at the first of them. -/
def scanItems : ℕ → List Char → Option (List Json × List Char)
  | 0, _ => none
  | fuel + 1, s => do
    let (item, s) ← scanValue fuel s
    match skip s with
    | [] => none
    | d :: s =>
      if d = ']' then some ([item], s)
      else if d = ',' then do
        let (items, s) ← scanItems fuel (skip s)
        some (item :: items, s)
      else none

/-- The pairs of an object up to its end, at the first key. -/
def scanFields : ℕ → List Char → Option (List (String × Json) × List Char)
  | 0, _ => none
  | _ + 1, [] => none
  | fuel + 1, q :: s =>
    if q = '"' then do
      let (key, s) ← scanString s
      match skip s with
      | [] => none
      | d :: s =>
        if d = ':' then do
          let (value, s) ← scanValue fuel (skip s)
          match skip s with
          | [] => none
          | e :: s =>
            if e = '}' then some ([(String.ofList key, value)], s)
            else if e = ',' then do
              let (pairs, s) ← scanFields fuel (skip s)
              some ((String.ofList key, value) :: pairs, s)
            else none
        else none
    else none

end

/-- `json.loads`. -/
def loads (s : List Char) : Except PyError Json :=
  match scanValue (2 * s.length + 2) (skip s) with
  | some (value, rest) => if skip rest = [] then .ok value else .error .jsonDecodeError
  | none => .error .jsonDecodeError

/-! ## Strings -/

theorem hexValue_digitChar : ∀ d < 16, hexValue d.digitChar = some d := by decide

theorem hexValue_hexDigit (n : ℕ) : hexValue (hexDigit n) = some (n % 16) :=
  hexValue_digitChar _ (Nat.mod_lt _ (by omega))

theorem hex4_unicodeEscape {n : ℕ} (hn : n < 0x10000) :
    hex4 (hexDigit (n / 4096)) (hexDigit (n / 256)) (hexDigit (n / 16)) (hexDigit n) = some n := by
  simp only [hex4, hexValue_hexDigit, Option.bind_eq_bind, Option.bind_some, Option.some.injEq]
  omega

theorem scanUnits_unicodeEscape {n : ℕ} (hn : n < 0x10000) (s : List Char) :
    scanUnits (unicodeEscape n ++ s) = (scanUnits s).map fun found => (n :: found.1, found.2) := by
  simp only [unicodeEscape, List.cons_append, List.nil_append]
  rw [scanUnits]
  simp only [Char.reduceEq, if_false, if_true, hex4_unicodeEscape hn]
  cases scanUnits s <;> rfl

theorem codeUnits_lt (c : Char) : ∀ n ∈ codeUnits c, n < 0x10000 := by
  have hc : c.toNat < 0x110000 := by
    have := c.valid
    rcases this with h | h <;> simp only [Char.toNat] <;> omega
  intro n hn
  unfold codeUnits at hn
  split at hn
  · obtain rfl := List.mem_singleton.mp hn
    assumption
  · simp only [List.mem_cons, List.not_mem_nil, or_false] at hn
    omega

theorem scanUnits_flatMap {ns : List ℕ} (hns : ∀ n ∈ ns, n < 0x10000) (s : List Char) :
    scanUnits (ns.flatMap unicodeEscape ++ s) = (scanUnits s).map fun found => (ns ++ found.1, found.2) := by
  induction ns with
  | nil => simp
  | cons n ns ih =>
    rw [List.flatMap_cons, List.append_assoc, scanUnits_unicodeEscape (hns n (by simp)),
      ih fun m hm => hns m (by simp [hm]), Option.map_map]
    rfl

/-- An escape of two characters stands for the character `c`. -/
theorem scanUnits_backslash {c e : Char} (he : e ≠ 'u') (hb : backslash e = some c.toNat) (hc : c.toNat < 0x10000)
    (s : List Char) :
    scanUnits (['\\', e] ++ s) = (scanUnits s).map fun found => (codeUnits c ++ found.1, found.2) := by
  simp only [List.cons_append, List.nil_append, codeUnits, hc, if_true]
  rw [scanUnits.eq_def]
  simp only [Char.reduceEq, if_false, if_true, he, hb]
  cases scanUnits s <;> rfl

theorem scanUnits_escapeChar (c : Char) (s : List Char) :
    scanUnits (escapeChar c ++ s) = (scanUnits s).map fun found => (codeUnits c ++ found.1, found.2) := by
  have heq : ∀ d : Char, c.toNat = d.toNat → c = d := fun d h => Char.toNat_inj.mp h
  unfold escapeChar
  split_ifs with h1 h2 h3 h4 h5 h6 h7 h8
  · subst h1; exact scanUnits_backslash (by decide) (by decide) (by decide) s
  · subst h2; exact scanUnits_backslash (by decide) (by decide) (by decide) s
  · subst h3; exact scanUnits_backslash (by decide) (by decide) (by decide) s
  · subst h4; exact scanUnits_backslash (by decide) (by decide) (by decide) s
  · subst h5; exact scanUnits_backslash (by decide) (by decide) (by decide) s
  · exact scanUnits_backslash (by decide) (by rw [h6]; decide) (by omega) s
  · exact scanUnits_backslash (by decide) (by rw [h7]; decide) (by omega) s
  · have hlt : ¬ c.toNat < 32 := by omega
    have hc : c.toNat < 0x10000 := by omega
    simp only [List.cons_append, List.nil_append, codeUnits, hc, if_true]
    rw [scanUnits.eq_def]
    simp only [h1, h2, hlt, if_false]
    cases scanUnits s <;> rfl
  · exact scanUnits_flatMap (codeUnits_lt c) s

theorem scanUnits_encode (s rest : List Char) :
    scanUnits (s.flatMap escapeChar ++ '"' :: rest) = some (s.flatMap codeUnits, rest) := by
  induction s with
  | nil =>
    rw [List.flatMap_nil, List.nil_append, scanUnits.eq_def]
    simp
  | cons c s ih =>
    rw [List.flatMap_cons, List.append_assoc, scanUnits_escapeChar, ih]
    rfl

theorem joinSurrogates_codeUnits (c : Char) (units : List ℕ) :
    joinSurrogates (codeUnits c ++ units) = (joinSurrogates units).map (c :: ·) := by
  have hvalid : c.toNat < 0xD800 ∨ 0xDFFF < c.toNat ∧ c.toNat < 0x110000 := c.valid
  unfold codeUnits
  split
  · have h1 : ¬ (0xD800 ≤ c.toNat ∧ c.toNat < 0xDC00) := by omega
    have h2 : ¬ (0xDC00 ≤ c.toNat ∧ c.toNat < 0xE000) := by omega
    rw [List.cons_append, List.nil_append, joinSurrogates.eq_def]
    simp only [if_neg h1, if_neg h2, Char.ofNat_toNat]
  · have h1 : 0xD800 ≤ 0xD800 + (c.toNat - 0x10000) / 0x400 ∧ 0xD800 + (c.toNat - 0x10000) / 0x400 < 0xDC00 := by
      omega
    have h2 : 0xDC00 ≤ 0xDC00 + (c.toNat - 0x10000) % 0x400 ∧ 0xDC00 + (c.toNat - 0x10000) % 0x400 < 0xE000 := by
      omega
    have hback : 0x10000 + (0xD800 + (c.toNat - 0x10000) / 0x400 - 0xD800) * 0x400 +
        (0xDC00 + (c.toNat - 0x10000) % 0x400 - 0xDC00) = c.toNat := by
      omega
    simp only [List.cons_append, List.nil_append]
    rw [joinSurrogates]
    simp only [if_pos h1, if_pos h2, hback, Char.ofNat_toNat]

theorem joinSurrogates_flatMap (s : List Char) : joinSurrogates (s.flatMap codeUnits) = some s := by
  induction s with
  | nil => rfl
  | cons c s ih => rw [List.flatMap_cons, joinSurrogates_codeUnits, ih]; rfl

/-- The scanner reads back a string, up to its closing quote. -/
theorem scanString_encode (s rest : List Char) :
    scanString (s.flatMap escapeChar ++ '"' :: rest) = some (s, rest) := by
  simp [scanString, scanUnits_encode, joinSurrogates_flatMap]

/-! ## Values -/

/-- A float that is known by a decimal in the range of the floats, or is none. -/
def Exact : PyFloat → Prop
  | .finite q => IsDecimal q ∧ (q = 0 ∨ underflow < |q| ∧ |q| < overflow)
  | _ => True

/-- Values that Python can hold: the keys of a `dict` are distinct, and floats are exact. -/
inductive Proper : Json → Prop
  | null : Proper .null
  | bool (b : Bool) : Proper (.bool b)
  | int (n : ℤ) : Proper (.int n)
  | float {x : PyFloat} : Exact x → Proper (.float x)
  | str (s : List Char) : Proper (.str s)
  | arr {items : List Json} : (∀ item ∈ items, Proper item) → Proper (.arr items)
  | obj {fields : List (String × Json)} :
    (fields.map Prod.fst).Nodup → (∀ field ∈ fields, Proper field.2) → Proper (.obj fields)

/-- The separators, with white space behind the comma and the colon. -/
structure Style.Readable (style : Style) : Prop where
  item : ∃ blank, style.itemSeparator = ',' :: blank ∧ skip blank = []
  key : ∃ blank, style.keySeparator = ':' :: blank ∧ skip blank = []

theorem dumpsItems_eq (style : Style) (items : List Json) : dumpsItems style items = items.map (dumps style) := by
  induction items with
  | nil => rfl
  | cons item items ih => rw [dumpsItems, ih, List.map_cons]

theorem dumpsFields_eq (style : Style) (fields : List (String × Json)) :
    dumpsFields style fields = fields.map fun field => (field.1, dumps style field.2) := by
  induction fields with
  | nil => rfl
  | cons field fields ih => rw [dumpsFields, ih, List.map_cons]

/-- A value begins with `c`. -/
def Opens (c : Char) : Prop :=
  c = '"' ∨ c = '[' ∨ c = '{' ∨ c = 'n' ∨ c = 't' ∨ c = 'f' ∨ c = 'N' ∨ c = 'I' ∨ c = '-' ∨ c.isDigit = true

theorem head_literal {l : Literal} (hl : l.Readable) (negative : Bool) :
    ∃ c t, sign negative ++ l.text = c :: t ∧ (c = '-' ∨ c.isDigit = true) := by
  obtain ⟨c, cs, hw, hc⟩ := isDigit_of_whole hl.whole
  cases negative with
  | true => exact ⟨'-', l.text, rfl, .inl rfl⟩
  | false => exact ⟨c, _, by rw [Literal.text, hw]; rfl, .inr hc⟩

theorem head_dumps (style : Style) (v : Json) : ∃ c t, dumps style v = c :: t ∧ Opens c := by
  cases v with
  | null => exact ⟨'n', _, rfl, by simp [Opens]⟩
  | bool b =>
    cases b
    · exact ⟨'f', _, rfl, by simp [Opens]⟩
    · exact ⟨'t', _, rfl, by simp [Opens]⟩
  | int n =>
    obtain ⟨c, t, ht, hc⟩ := head_literal (natLiteral_readable n.natAbs) (n < 0)
    refine ⟨c, t, ?_, by unfold Opens; tauto⟩
    rw [← ht]
    simp [dumps, reprInt, natLiteral, Literal.text]
  | float x =>
    cases x with
    | finite q =>
      obtain ⟨c, t, ht, hc⟩ := head_literal (literal_readable q) (q < 0)
      exact ⟨c, t, by rw [← ht]; rfl, by unfold Opens; tauto⟩
    | negZero | negInf => exact ⟨'-', _, rfl, by simp [Opens]⟩
    | posInf => exact ⟨'I', _, rfl, by simp [Opens]⟩
    | nan => exact ⟨'N', _, rfl, by simp [Opens]⟩
  | str s => exact ⟨'"', _, rfl, .inl rfl⟩
  | arr items => exact ⟨'[', _, rfl, by simp [Opens]⟩
  | obj fields => exact ⟨'{', _, rfl, by simp [Opens]⟩

theorem Opens.not_closing {c : Char} (h : Opens c) : c ≠ ']' ∧ c ≠ '}' ∧ isWhite c = false := by
  rcases h with rfl | rfl | rfl | rfl | rfl | rfl | rfl | rfl | rfl | h
  iterate 9 decide
  refine ⟨?_, ?_, ?_⟩
  · rintro rfl
    revert h
    decide
  · rintro rfl
    revert h
    decide
  · simp only [isWhite, Bool.or_eq_false_iff, decide_eq_false_iff_not]
    refine ⟨⟨⟨?_, ?_⟩, ?_⟩, ?_⟩ <;> (rintro rfl; revert h; decide)

theorem skip_cons {c : Char} (h : isWhite c = false) (s : List Char) :
    skip (c :: s) = c :: s := List.dropWhile_cons_of_neg (by simp [h])

theorem skip_dumps (style : Style) (v : Json) (rest : List Char) :
    skip (dumps style v ++ rest) = dumps style v ++ rest := by
  obtain ⟨c, t, h, hc⟩ := head_dumps style v
  rw [h, List.cons_append, skip_cons hc.not_closing.2.2]

theorem skip_append {blank : List Char} (h : skip blank = []) (s : List Char) : skip (blank ++ s) = skip s := by
  induction blank with
  | nil => rfl
  | cons c blank ih =>
    unfold skip at h ⊢
    by_cases hc : isWhite c = true
    · rw [List.dropWhile_cons_of_pos hc] at h
      rw [List.cons_append, List.dropWhile_cons_of_pos hc]
      exact ih h
    · rw [List.dropWhile_cons_of_neg hc] at h
      cases h

theorem delimited_cons {c : Char} (h : c.isDigit = false ∧ c ≠ '.' ∧ c ≠ 'e' ∧ c ≠ 'E') (s : List Char) :
    Delimited (c :: s) := by
  intro d hd
  obtain rfl : c = d := by simpa using hd
  exact h

section Reads

variable {style : Style}

/-- The scanner, with fuel for it, reads the value back. -/
def Reads (style : Style) (v : Json) : Prop :=
  ∀ fuel rest, 2 * (dumps style v).length ≤ fuel → Delimited rest → scanValue fuel (dumps style v ++ rest) = some (v, rest)

theorem scanKeyword_number {c : Char} (h : c = '-' ∨ c.isDigit = true) (s : List Char) : scanKeyword (c :: s) = none := by
  have hne : c ≠ 'n' ∧ c ≠ 't' ∧ c ≠ 'f' := by
    refine ⟨?_, ?_, ?_⟩ <;> (rintro rfl; revert h; decide)
  have key : ∀ (d : Char) (ds : List Char), c ≠ d → (d :: ds).isPrefixOf (c :: s) = false := by
    intro d ds hd
    simp [List.isPrefixOf, hd.symm]
  unfold scanKeyword
  rw [if_neg, if_neg, if_neg]
  · exact Bool.eq_false_iff.mp (key 'f' _ hne.2.2)
  · exact Bool.eq_false_iff.mp (key 't' _ hne.2.1)
  · exact Bool.eq_false_iff.mp (key 'n' _ hne.1)

theorem scanValue_number {l : Literal} (hl : l.Readable) (negative : Bool) {fuel : ℕ} (hf : 0 < fuel)
    {rest : List Char} (hr : Delimited rest) :
    scanValue fuel (sign negative ++ l.text ++ rest) = some (number negative l, rest) := by
  obtain ⟨fuel, rfl⟩ := Nat.exists_eq_succ_of_ne_zero hf.ne'
  obtain ⟨c, t, ht, hc⟩ := head_literal hl negative
  have hscan := scanNumber_text negative hl hr
  have hne : c ≠ '"' ∧ c ≠ '[' ∧ c ≠ '{' := by
    refine ⟨?_, ?_, ?_⟩ <;> (rintro rfl; revert hc; decide)
  rw [ht, List.cons_append] at hscan ⊢
  rw [scanValue]
  simp only [if_neg hne.1, if_neg hne.2.1, if_neg hne.2.2, scanKeyword_number hc, hscan]

theorem reads_int (n : ℤ) : Reads style (.int n) := by
  intro fuel rest hf hr
  have htext : dumps style (.int n) = sign (n < 0) ++ (natLiteral n.natAbs).text := by
    simp [dumps, reprInt, natLiteral, Literal.text]
  obtain ⟨c, t, ht, -⟩ := head_dumps style (.int n)
  rw [ht, List.length_cons] at hf
  rw [htext, scanValue_number (natLiteral_readable _) _ (by omega) hr]
  have hvalue : (number (decide (n < 0)) (natLiteral n.natAbs)) = .int n := by
    simp only [number, natLiteral, Literal.isFloat, List.isEmpty_nil, Option.isSome_none, Nat.ofDigitChars_ten_toDigits,
      Bool.not_true, Bool.or_self, Bool.false_eq_true, if_false, decide_eq_true_eq]
    congr 1
    split <;> omega
  rw [hvalue]

theorem overflow_pos : 0 < overflow := sub_pos.mpr (pow_lt_pow_right₀ one_lt_two (by decide))

theorem abs_not_overflow {q : ℚ} (hq : Exact (.finite q)) : ¬ overflow ≤ |q| := by
  rcases hq.2 with rfl | ⟨-, hlt⟩
  · rw [abs_zero]
    exact not_le.mpr overflow_pos
  · exact not_le.mpr hlt

/-- A literal of an exact float is read as that float. -/
theorem readFloat_literal {q : ℚ} (hq : Exact (.finite q)) : readFloat (q < 0) (literal q).value = .finite q := by
  rw [literal_value hq.1, readFloat, if_neg (abs_not_overflow hq)]
  rcases hq.2 with rfl | ⟨hlt, -⟩
  · rw [if_pos (by norm_num [underflow])]
    rfl
  · rw [if_neg (not_le.mpr hlt)]
    by_cases hneg : q < 0
    · rw [if_pos (decide_eq_true hneg), abs_of_neg hneg, neg_neg]
    · rw [if_neg (by simpa using hneg), abs_of_nonneg (not_lt.mp hneg)]

theorem readFloat_negZero : readFloat true (literal 0).value = .negZero := by
  rw [literal_value ⟨0, one_dvd _⟩, abs_zero, readFloat, if_neg (not_le.mpr overflow_pos),
    if_pos (by norm_num [underflow])]
  rfl

theorem reads_float {x : PyFloat} (hx : Exact x) : Reads style (.float x) := by
  intro fuel rest hf hr
  obtain ⟨c, t, ht, -⟩ := head_dumps style (.float x)
  rw [ht, List.length_cons] at hf
  have hfuel : 0 < fuel := by omega
  cases x with
  | finite q =>
    rw [show dumps style (.float (.finite q)) = sign (q < 0) ++ (literal q).text from rfl,
      scanValue_number (literal_readable q) _ hfuel hr, number, if_pos (literal_isFloat q), readFloat_literal hx]
  | negZero =>
    rw [show dumps style (.float .negZero) = sign true ++ (literal 0).text from rfl,
      scanValue_number (literal_readable 0) _ hfuel hr, number, if_pos (literal_isFloat 0), readFloat_negZero]
  | posInf | negInf | nan =>
    obtain ⟨fuel, rfl⟩ := Nat.exists_eq_succ_of_ne_zero hfuel.ne'
    rfl

theorem reads_str (s : List Char) : Reads style (.str s) := by
  intro fuel rest hf hr
  have htext : dumps style (.str s) ++ rest = '"' :: (s.flatMap escapeChar ++ '"' :: rest) := by
    simp [dumps, encodeString]
  obtain ⟨c, t, ht, -⟩ := head_dumps style (.str s)
  rw [ht, List.length_cons] at hf
  obtain ⟨fuel, rfl⟩ : ∃ n, fuel = n + 1 := ⟨fuel - 1, by omega⟩
  rw [htext, scanValue]
  simp [scanString_encode]

/-! Items and fields, by induction on the list. -/

theorem join_cons (separator part : List Char) (parts : List (List Char)) :
    ∃ t, join separator (part :: parts) = part ++ t := by
  cases parts with
  | nil => exact ⟨[], by simp [join]⟩
  | cons p ps => exact ⟨separator ++ join separator (p :: ps), by simp [join]⟩

theorem delimited_comma (s : List Char) : Delimited (',' :: s) := delimited_cons (by decide) s

theorem scanItems_join (hs : style.Readable) : ∀ items : List Json, items ≠ [] → (∀ item ∈ items, Reads style item) →
    ∀ fuel rest, 2 * (join style.itemSeparator (items.map (dumps style))).length + 1 ≤ fuel →
      scanItems fuel (join style.itemSeparator (items.map (dumps style)) ++ ']' :: rest) = some (items, rest)
  | [], h, _ => absurd rfl h
  | [v], _, ih => by
    intro fuel rest hf
    obtain ⟨fuel, rfl⟩ : ∃ n, fuel = n + 1 := ⟨fuel - 1, by omega⟩
    have hv := ih v (by simp) fuel (']' :: rest) (by simp only [List.map_cons, List.map_nil, join] at hf; omega)
      (delimited_cons (by decide) rest)
    have hskip : skip (']' :: rest) = ']' :: rest := skip_cons (by decide) rest
    simp [scanItems, join, hv, hskip]
  | v :: w :: items, _, ih => by
    intro fuel rest hf
    obtain ⟨fuel, rfl⟩ : ∃ n, fuel = n + 1 := ⟨fuel - 1, by omega⟩
    obtain ⟨blank, hsep, hblank⟩ := hs.item
    set tail := join style.itemSeparator ((w :: items).map (dumps style)) ++ ']' :: rest with htail
    have htext : join style.itemSeparator ((v :: w :: items).map (dumps style)) ++ ']' :: rest =
        dumps style v ++ ',' :: (blank ++ tail) := by
      simp [htail, join, hsep]
    have hlen : (join style.itemSeparator ((v :: w :: items).map (dumps style))).length =
        (dumps style v).length + (blank.length + 1) + (join style.itemSeparator ((w :: items).map (dumps style))).length := by
      simp [join, hsep]
      omega
    have hv := ih v (by simp) fuel (',' :: (blank ++ tail)) (by omega) (delimited_comma _)
    have hitems := scanItems_join hs (w :: items) (by simp) (fun item hm => ih item (by simp [hm])) fuel rest
      (by omega)
    have hskip : skip (',' :: (blank ++ tail)) = ',' :: (blank ++ tail) := skip_cons (by decide) _
    have hskip' : skip (blank ++ tail) = tail := by
      obtain ⟨t, ht⟩ := join_cons style.itemSeparator (dumps style w) (items.map (dumps style))
      rw [skip_append hblank, htail, List.map_cons, ht, List.append_assoc, skip_dumps]
    rw [← htail] at hitems
    rw [htext, scanItems]
    simp [hv, hskip, hskip', hitems]

/-- The text of a pair of an object. -/
def entry (style : Style) (field : String × Json) : List Char :=
  encodeString field.1.toList ++ style.keySeparator ++ dumps style field.2

theorem skip_quote (s : List Char) : skip ('"' :: s) = '"' :: s := skip_cons (by decide) s

theorem scanFields_entry (hs : style.Readable) {field : String × Json} (hfield : Reads style field.2) (fuel : ℕ)
    (rest : List Char) (hf : 2 * (entry style field).length ≤ fuel + 1) (hr : Delimited rest) :
    scanFields (fuel + 1) (entry style field ++ rest) = match skip rest with
      | [] => none
      | e :: s =>
        if e = '}' then some ([field], s)
        else if e = ',' then (scanFields fuel (skip s)).map fun found => (field :: found.1, found.2)
        else none := by
  obtain ⟨blank, hsep, hblank⟩ := hs.key
  have hlen : (entry style field).length =
      (field.1.toList.flatMap escapeChar).length + 2 + (blank.length + 1) + (dumps style field.2).length := by
    simp [entry, encodeString, hsep]
    omega
  have htext : entry style field ++ rest =
      '"' :: (field.1.toList.flatMap escapeChar ++ '"' :: ':' :: (blank ++ (dumps style field.2 ++ rest))) := by
    simp [entry, encodeString, hsep]
  have hcolon : ∀ s, skip (':' :: s) = ':' :: s := fun s => skip_cons (by decide) s
  have hskip : skip (blank ++ (dumps style field.2 ++ rest)) = dumps style field.2 ++ rest := by
    rw [skip_append hblank, skip_dumps]
  have hv := hfield fuel rest (by omega) hr
  rw [htext, scanFields]
  simp only [if_true, scanString_encode, Option.bind_eq_bind, Option.bind_some, hcolon, hskip, hv, String.ofList_toList]
  rcases skip rest with _ | ⟨e, s⟩
  · rfl
  · simp only
    split_ifs
    · rfl
    · cases scanFields fuel (skip s) <;> rfl
    · rfl

theorem scanFields_join (hs : style.Readable) : ∀ fields : List (String × Json), fields ≠ [] →
    (∀ field ∈ fields, Reads style field.2) → ∀ fuel rest,
      2 * (join style.itemSeparator (fields.map (entry style))).length + 1 ≤ fuel →
        scanFields fuel (join style.itemSeparator (fields.map (entry style)) ++ '}' :: rest) = some (fields, rest)
  | [], h, _ => absurd rfl h
  | [field], _, ih => by
    intro fuel rest hf
    obtain ⟨fuel, rfl⟩ : ∃ n, fuel = n + 1 := ⟨fuel - 1, by omega⟩
    have hskip : skip ('}' :: rest) = '}' :: rest := skip_cons (by decide) rest
    have hfield := scanFields_entry hs (ih field (by simp)) fuel ('}' :: rest)
      (by simp only [List.map_cons, List.map_nil, join] at hf; omega) (delimited_cons (by decide) rest)
    simpa [join, hskip] using hfield
  | field :: next :: fields, _, ih => by
    intro fuel rest hf
    obtain ⟨fuel, rfl⟩ : ∃ n, fuel = n + 1 := ⟨fuel - 1, by omega⟩
    obtain ⟨blank, hsep, hblank⟩ := hs.item
    set tail := join style.itemSeparator ((next :: fields).map (entry style)) ++ '}' :: rest with htail
    have htext : join style.itemSeparator ((field :: next :: fields).map (entry style)) ++ '}' :: rest =
        entry style field ++ ',' :: (blank ++ tail) := by
      simp [htail, join, hsep]
    have hlen : (join style.itemSeparator ((field :: next :: fields).map (entry style))).length =
        (entry style field).length + (blank.length + 1) +
          (join style.itemSeparator ((next :: fields).map (entry style))).length := by
      simp [join, hsep]
      omega
    have hfields := scanFields_join hs (next :: fields) (by simp) (fun f hm => ih f (by simp [hm])) fuel rest
      (by omega)
    have hskip : skip (',' :: (blank ++ tail)) = ',' :: (blank ++ tail) := skip_cons (by decide) _
    have hskip' : skip (blank ++ tail) = tail := by
      obtain ⟨t, ht⟩ := join_cons style.itemSeparator (entry style next) (fields.map (entry style))
      obtain ⟨u, hu⟩ : ∃ u, entry style next = '"' :: u := ⟨_, by simp [entry, encodeString]; rfl⟩
      rw [skip_append hblank, htail, List.map_cons, ht, hu]
      exact skip_quote _
    rw [← htail] at hfields
    rw [htext, scanFields_entry hs (ih field (by simp)) fuel _ (by omega) (delimited_comma _), hskip]
    simp [hskip', hfields]

theorem setItem_fresh {key : String} {fields : List (String × Json)} (h : key ∉ fields.map Prod.fst) (value : Json) :
    Json.setItem key value fields = fields ++ [(key, value)] := by
  induction fields with
  | nil => rfl
  | cons field fields ih =>
    obtain ⟨k, v⟩ := field
    simp only [List.map_cons, List.mem_cons, not_or] at h
    rw [Json.setItem, if_neg (Ne.symm h.1), ih h.2, List.cons_append]

theorem foldl_setItem {fields before : List (String × Json)} (h : ((before ++ fields).map Prod.fst).Nodup) :
    fields.foldl (fun fields pair => Json.setItem pair.1 pair.2 fields) before = before ++ fields := by
  induction fields generalizing before with
  | nil => simp
  | cons field fields ih =>
    have hfresh : field.1 ∉ before.map Prod.fst := by
      intro hm
      rw [List.map_append, List.map_cons] at h
      exact (List.nodup_append.mp h).2.2 _ hm _ (by simp) rfl
    rw [List.foldl_cons, setItem_fresh hfresh, ih (by simpa using h)]
    simp

/-- Pairs with distinct keys are the `dict` of them. -/
theorem toDict_of_nodup {fields : List (String × Json)} (h : (fields.map Prod.fst).Nodup) : toDict fields = fields :=
  foldl_setItem h

theorem reads_arr (hs : style.Readable) {items : List Json} (ih : ∀ item ∈ items, Reads style item) :
    Reads style (.arr items) := by
  intro fuel rest hf hr
  simp only [dumps, dumpsItems_eq, List.length_append, List.length_cons, List.length_nil] at hf
  obtain ⟨fuel, rfl⟩ : ∃ n, fuel = n + 1 := ⟨fuel - 1, by omega⟩
  cases items with
  | nil =>
    have hskip : skip (']' :: rest) = ']' :: rest := skip_cons (by decide) rest
    simp [dumps, dumpsItems, join, scanValue, hskip]
  | cons v items =>
    have hitems := scanItems_join hs (v :: items) (by simp) ih fuel rest (by omega)
    obtain ⟨t, ht⟩ := join_cons style.itemSeparator (dumps style v) (items.map (dumps style))
    obtain ⟨c, u, hu, hc⟩ := head_dumps style v
    set text := join style.itemSeparator ((v :: items).map (dumps style)) ++ ']' :: rest with htext
    have hopens : text = c :: (u ++ (t ++ ']' :: rest)) := by
      rw [htext, List.map_cons, ht, hu]
      simp
    have hdumps : dumps style (.arr (v :: items)) ++ rest = '[' :: text := by
      simp [dumps, dumpsItems_eq, htext]
    have hskip : skip text = text := by rw [hopens, skip_cons hc.not_closing.2.2]
    rw [hdumps, scanValue]
    simp only [Char.reduceEq, if_false, if_true, hskip]
    rw [hopens] at hitems ⊢
    simp [hc.not_closing.1, hitems]

theorem reads_obj (hs : style.Readable) (hsort : style.sortKeys = false) {fields : List (String × Json)}
    (hkeys : (fields.map Prod.fst).Nodup) (ih : ∀ field ∈ fields, Reads style field.2) : Reads style (.obj fields) := by
  have hentries : ((dumpsFields style fields).map fun part =>
      encodeString part.1.toList ++ style.keySeparator ++ part.2) = fields.map (entry style) := by
    rw [dumpsFields_eq, List.map_map]
    rfl
  intro fuel rest hf hr
  simp only [dumps, hsort, Bool.false_eq_true, if_false, hentries, List.length_append, List.length_cons,
    List.length_nil] at hf
  obtain ⟨fuel, rfl⟩ : ∃ n, fuel = n + 1 := ⟨fuel - 1, by omega⟩
  cases fields with
  | nil =>
    have hskip : skip ('}' :: rest) = '}' :: rest := skip_cons (by decide) rest
    simp [dumps, dumpsFields, join, scanValue, hskip, hsort]
  | cons field fields =>
    have hfields := scanFields_join hs (field :: fields) (by simp) ih fuel rest (by omega)
    obtain ⟨t, ht⟩ := join_cons style.itemSeparator (entry style field) (fields.map (entry style))
    obtain ⟨u, hu⟩ : ∃ u, entry style field = '"' :: u := ⟨_, by simp [entry, encodeString]; rfl⟩
    set text := join style.itemSeparator ((field :: fields).map (entry style)) ++ '}' :: rest with htext
    have hquote : text = '"' :: (u ++ (t ++ '}' :: rest)) := by
      rw [htext, List.map_cons, ht, hu]
      simp
    have hdumps : dumps style (.obj (field :: fields)) ++ rest = '{' :: text := by
      simp only [dumps, hsort, Bool.false_eq_true, if_false, hentries, htext]
      simp
    have hskip : skip text = text := by rw [hquote, skip_quote]
    rw [hdumps, scanValue]
    simp only [Char.reduceEq, if_false, if_true, hskip]
    rw [hquote] at hfields ⊢
    simp [hfields, toDict_of_nodup hkeys]

/-- One case for each kind of value. -/
theorem reads_of_proper (hs : style.Readable) (hsort : style.sortKeys = false) {v : Json} (hv : Proper v) :
    Reads style v := by
  induction hv with
  | null =>
    intro fuel rest hf _
    obtain ⟨fuel, rfl⟩ : ∃ n, fuel = n + 1 := ⟨fuel - 1, by simp [dumps] at hf; omega⟩
    simp [dumps, scanValue, scanKeyword]
  | bool b =>
    intro fuel rest hf _
    obtain ⟨fuel, rfl⟩ : ∃ n, fuel = n + 1 := ⟨fuel - 1, by cases b <;> simp [dumps] at hf <;> omega⟩
    cases b <;> simp [dumps, scanValue, scanKeyword]
  | int n => exact reads_int n
  | float hx => exact reads_float hx
  | str s => exact reads_str s
  | arr _ ih => exact reads_arr hs ih
  | obj hkeys _ ih => exact reads_obj hs hsort hkeys ih

/-- `json.loads(json.dumps(value)) == value`. -/
theorem loads_dumps (hs : style.Readable) (hsort : style.sortKeys = false) {v : Json} (hv : Proper v) :
    loads (dumps style v) = .ok v := by
  have hread := reads_of_proper hs hsort hv (2 * (dumps style v).length + 2) [] (by omega) (by simp [Delimited])
  have hskip := skip_dumps style v []
  rw [List.append_nil] at hread hskip
  rw [loads, hskip, hread]
  rfl

end Reads

end LlmStore.JsonText
