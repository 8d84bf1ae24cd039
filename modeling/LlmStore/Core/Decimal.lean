import Mathlib.Algebra.Order.Field.Basic
import Mathlib.Data.List.DropRight
import Mathlib.Data.Rat.Lemmas
import Mathlib.NumberTheory.Padics.PadicVal.Basic
import Mathlib.Tactic.FieldSimp
import Mathlib.Tactic.Ring

/-!
# Numbers as text

The texts that `int.__repr__` and `float.__repr__` make, and the scanner of `json` that reads them back. A float is known
by the decimal fraction that its `repr` denotes: the shortest one that rounds to it. The literal of a number has that
value (`literal_value`), and the scanner reads it back (`scanNumber_text`).
-/

namespace LlmStore.Decimal

/-! ## Literals -/

/-- An unsigned number literal: the digits before and behind the point, and the exponent. -/
structure Literal where
  whole : List Char
  fraction : List Char
  exponent : Option ℤ

namespace Literal

/-- At least two digits, as in `1e-05`. -/
def exponentText (e : ℤ) : List Char :=
  'e' :: (if e < 0 then '-' else '+') :: (if e.natAbs < 10 then ['0'] else []) ++ Nat.toDigits 10 e.natAbs

def text (l : Literal) : List Char :=
  l.whole ++ (if l.fraction = [] then [] else '.' :: l.fraction) ++ (l.exponent.map exponentText).getD []

def value (l : Literal) : ℚ :=
  Nat.ofDigitChars 10 (l.whole ++ l.fraction) 0 * (10 : ℚ) ^ (l.exponent.getD 0 - l.fraction.length)

/-- The literal is that of a float. -/
def isFloat (l : Literal) : Bool := !l.fraction.isEmpty || l.exponent.isSome

end Literal

def sign (negative : Bool) : List Char := if negative then ['-'] else []

/-- `int.__repr__`. -/
def reprInt (n : ℤ) : List Char := sign (n < 0) ++ Nat.toDigits 10 n.natAbs

/-! ## `float.__repr__` -/

/-- `q` has finitely many decimal places. -/
def IsDecimal (q : ℚ) : Prop := ∃ k, q.den ∣ 10 ^ k

/-- The number of decimal places. -/
def places (q : ℚ) : ℕ := ((List.range (q.den.log2 + 1)).find? fun k => q.den ∣ 10 ^ k).getD 0

/-- `|q|` without its decimal point. -/
def scaled (q : ℚ) : ℕ := q.num.natAbs * (10 ^ places q / q.den)

/-- The decimal digits with a point after the first `point` of them, or with an exponent where the point is far off. -/
def placePoint (digits : List Char) (point : ℤ) : Literal :=
  if -4 < point ∧ point ≤ 16 then
    if point ≤ 0 then ⟨['0'], List.replicate (-point).toNat '0' ++ digits, none⟩
    else if point < digits.length then ⟨digits.take point.toNat, digits.drop point.toNat, none⟩
    else ⟨digits ++ List.replicate (point.toNat - digits.length) '0', ['0'], none⟩
  else ⟨digits.take 1, digits.drop 1, some (point - 1)⟩

def literal (q : ℚ) : Literal :=
  if scaled q = 0 then ⟨['0'], ['0'], none⟩
  else
    let digits := Nat.toDigits 10 (scaled q)
    placePoint (digits.rdropWhile (· = '0')) (digits.length - places q)

/-- `float.__repr__` of a finite float that is not `-0.0`. -/
def reprFloat (q : ℚ) : List Char := sign (q < 0) ++ (literal q).text

/-! ## The scanner -/

/-- `0|[1-9][0-9]*`. -/
def scanWhole : List Char → Option (List Char × List Char)
  | [] => none
  | c :: s =>
    if c = '0' then some (['0'], s)
    else if c.isDigit then some (c :: s.takeWhile Char.isDigit, s.dropWhile Char.isDigit)
    else none

/-- `(\.[0-9]+)?`. -/
def scanFraction (s : List Char) : List Char × List Char :=
  match s with
  | '.' :: t =>
    if t.takeWhile Char.isDigit = [] then ([], s) else (t.takeWhile Char.isDigit, t.dropWhile Char.isDigit)
  | _ => ([], s)

def unsign : List Char → Bool × List Char
  | '-' :: s => (true, s)
  | '+' :: s => (false, s)
  | s => (false, s)

/-- `([eE][-+]?[0-9]+)?`. -/
def scanExponent (s : List Char) : Option ℤ × List Char :=
  match s with
  | [] => (none, s)
  | c :: t =>
    let (negative, u) := unsign t
    if (c = 'e' ∨ c = 'E') ∧ u.takeWhile Char.isDigit ≠ [] then
      let n : ℤ := Nat.ofDigitChars 10 (u.takeWhile Char.isDigit) 0
      (some (if negative then -n else n), u.dropWhile Char.isDigit)
    else (none, s)

def scanLiteral (s : List Char) : Option (Literal × List Char) :=
  (scanWhole s).map fun (whole, s) =>
    let (fraction, s) := scanFraction s
    let (exponent, s) := scanExponent s
    (⟨whole, fraction, exponent⟩, s)

/-- The sign of a number and its literal. -/
def scanNumber (s : List Char) : Option ((Bool × Literal) × List Char) :=
  match s with
  | '-' :: s => (scanLiteral s).map fun (l, s) => ((true, l), s)
  | s => (scanLiteral s).map fun (l, s) => ((false, l), s)

/-! ## Reading back -/

/-- No number goes on with this text. -/
def Delimited (s : List Char) : Prop := ∀ c ∈ s.head?, c.isDigit = false ∧ c ≠ '.' ∧ c ≠ 'e' ∧ c ≠ 'E'

def Digits (ds : List Char) : Prop := ∀ c ∈ ds, c.isDigit = true

/-- The digits before a point: a zero alone, or no zero first. -/
def Whole (ds : List Char) : Prop := ds = ['0'] ∨ ∃ c cs, ds = c :: cs ∧ c ≠ '0' ∧ Digits ds

structure Literal.Readable (l : Literal) : Prop where
  whole : Whole l.whole
  fraction : Digits l.fraction

theorem digits_toDigits (n : ℕ) : Digits (Nat.toDigits 10 n) := fun _ hc =>
  Nat.isDigit_of_mem_toDigits (by omega) (by omega) hc

theorem takeWhile_digits {ds rest : List Char} (hd : Digits ds) (hr : ∀ c ∈ rest.head?, c.isDigit = false) :
    (ds ++ rest).takeWhile Char.isDigit = ds := by
  rw [List.takeWhile_append_of_pos hd]
  cases rest with
  | nil => simp
  | cons c rest => simp [hr c rfl]

theorem dropWhile_digits {ds rest : List Char} (hd : Digits ds) (hr : ∀ c ∈ rest.head?, c.isDigit = false) :
    (ds ++ rest).dropWhile Char.isDigit = rest := by
  rw [List.dropWhile_append_of_pos hd]
  cases rest with
  | nil => simp
  | cons c rest => simp [hr c rfl]

theorem scanWhole_append {ds rest : List Char} (hd : Whole ds) (hr : ∀ c ∈ rest.head?, c.isDigit = false) :
    scanWhole (ds ++ rest) = some (ds, rest) := by
  rcases hd with rfl | ⟨c, cs, rfl, hne, hd⟩
  · rfl
  · have hc : c.isDigit = true := hd c (by simp)
    have hcs : Digits cs := fun d hm => hd d (by simp [hm])
    simp [scanWhole, hne, hc, takeWhile_digits hcs hr, dropWhile_digits hcs hr]

theorem scanFraction_append {ds rest : List Char} (hd : Digits ds)
    (hr : ∀ c ∈ rest.head?, c.isDigit = false ∧ c ≠ '.') :
    scanFraction ((if ds = [] then [] else '.' :: ds) ++ rest) = (ds, rest) := by
  have hr' : ∀ c ∈ rest.head?, c.isDigit = false := fun c hc => (hr c hc).1
  by_cases h : ds = []
  · subst h
    cases rest with
    | nil => rfl
    | cons c rest =>
      have hne : c ≠ '.' := (hr c rfl).2
      simp only [if_true, List.nil_append, scanFraction]
      split
      · rename_i heq
        exact absurd (List.cons.inj heq).1 hne
      · rfl
  · simp [h, scanFraction, takeWhile_digits hd hr', dropWhile_digits hd hr']

/-- What stands behind an exponent is not read with it. -/
theorem scanExponent_append (e : Option ℤ) {rest : List Char} (hr : Delimited rest) :
    scanExponent ((e.map Literal.exponentText).getD [] ++ rest) = (e, rest) := by
  have hr' : ∀ c ∈ rest.head?, c.isDigit = false := fun c hc => (hr c hc).1
  cases e with
  | none =>
    cases rest with
    | nil => rfl
    | cons c rest =>
      obtain ⟨-, -, he, hE⟩ := hr c rfl
      simp [scanExponent, he, hE]
  | some e =>
    set ds := (if e.natAbs < 10 then ['0'] else []) ++ Nat.toDigits 10 e.natAbs with hds
    have hd : Digits ds := by
      intro c hc
      rw [hds, List.mem_append] at hc
      rcases hc with hc | hc
      · split at hc <;> simp_all
      · exact digits_toDigits _ c hc
    have hne : ds ≠ [] := by simp [hds, Nat.toDigits_ne_nil]
    have hval : Nat.ofDigitChars 10 ds 0 = e.natAbs := by
      rw [hds, Nat.ofDigitChars_append]
      split <;> simp [Nat.ofDigitChars_cons]
    have htext : ((some e).map Literal.exponentText).getD [] ++ rest =
        'e' :: (if e < 0 then '-' else '+') :: (ds ++ rest) := by
      simp [Literal.exponentText, hds]
    rw [htext]
    by_cases hneg : e < 0
    · have habs : ((e.natAbs : ℕ) : ℤ) = -e := by omega
      simp only [scanExponent, hneg, if_true, unsign, takeWhile_digits hd hr', dropWhile_digits hd hr', hval, habs]
      simp [hne]
    · have habs : ((e.natAbs : ℕ) : ℤ) = e := by omega
      simp only [scanExponent, hneg, if_false, unsign, takeWhile_digits hd hr', dropWhile_digits hd hr', hval, habs]
      simp [hne]

theorem head_exponent (e : Option ℤ) {rest : List Char} (hr : Delimited rest) :
    ∀ c ∈ ((e.map Literal.exponentText).getD [] ++ rest).head?, c.isDigit = false ∧ c ≠ '.' := by
  intro c hc
  cases e with
  | none => exact ⟨(hr c hc).1, (hr c hc).2.1⟩
  | some e =>
    obtain rfl : 'e' = c := by simpa [Literal.exponentText] using hc
    decide

/-- The scanner reads back a literal, and no more. -/
theorem scanLiteral_text {l : Literal} (hl : l.Readable) {rest : List Char} (hr : Delimited rest) :
    scanLiteral (l.text ++ rest) = some (l, rest) := by
  have he := head_exponent l.exponent hr
  have hf : ∀ c ∈ ((if l.fraction = [] then [] else '.' :: l.fraction) ++
      ((l.exponent.map Literal.exponentText).getD [] ++ rest)).head?, c.isDigit = false := by
    intro c hc
    split at hc
    · exact (he c hc).1
    · obtain rfl : '.' = c := by simpa using hc
      decide
  have htext : l.text ++ rest = l.whole ++ ((if l.fraction = [] then [] else '.' :: l.fraction) ++
      ((l.exponent.map Literal.exponentText).getD [] ++ rest)) := by
    simp [Literal.text, List.append_assoc]
  rw [htext, scanLiteral, scanWhole_append hl.whole hf]
  simp only [Option.map_some, scanFraction_append hl.fraction he, scanExponent_append l.exponent hr]

theorem isDigit_of_whole {ds : List Char} (h : Whole ds) : ∃ c cs, ds = c :: cs ∧ c.isDigit = true := by
  rcases h with rfl | ⟨c, cs, rfl, -, hd⟩
  · exact ⟨'0', [], rfl, rfl⟩
  · exact ⟨c, cs, rfl, hd c (by simp)⟩

theorem scanNumber_text (negative : Bool) {l : Literal} (hl : l.Readable) {rest : List Char} (hr : Delimited rest) :
    scanNumber (sign negative ++ l.text ++ rest) = some ((negative, l), rest) := by
  cases negative with
  | true => simp [sign, scanNumber, scanLiteral_text hl hr]
  | false =>
    obtain ⟨c, cs, hw, hc⟩ := isDigit_of_whole hl.whole
    have hne : c ≠ '-' := by rintro rfl; cases hc
    have htext : ∃ t, l.text ++ rest = c :: t := ⟨_, by rw [Literal.text, hw]; rfl⟩
    obtain ⟨t, ht⟩ := htext
    have hscan := scanLiteral_text hl hr
    rw [ht] at hscan
    simp only [sign, Bool.false_eq_true, if_false, List.nil_append, ht, scanNumber]
    split
    · rename_i heq
      exact absurd (List.cons.inj heq).1 hne
    · rw [hscan]
      rfl

/-! ## Integers -/

theorem digitChar_ne_zero : ∀ n < 10, n ≠ 0 → Nat.digitChar n ≠ '0' := by decide

theorem whole_toDigits (n : ℕ) : Whole (Nat.toDigits 10 n) := by
  induction n using Nat.strong_induction_on with
  | _ n ih =>
    by_cases hn : n < 10
    · rw [Nat.toDigits_of_lt_base hn]
      by_cases h0 : n = 0
      · subst h0
        exact .inl rfl
      · refine .inr ⟨n.digitChar, [], rfl, digitChar_ne_zero n hn h0, ?_⟩
        rw [← Nat.toDigits_of_lt_base hn]
        exact digits_toDigits n
    · have hd := digits_toDigits n
      rw [Nat.toDigits_of_base_le (by omega) (by omega)] at hd ⊢
      rcases ih (n / 10) (by omega) with h | ⟨c, cs, h, hne, -⟩
      · have h0 : n / 10 = 0 := by
          rw [← Nat.ofDigitChars_ten_toDigits (n := n / 10), h]
          rfl
        omega
      · rw [h] at hd ⊢
        exact .inr ⟨c, cs ++ [(n % 10).digitChar], rfl, hne, hd⟩

def natLiteral (n : ℕ) : Literal := ⟨Nat.toDigits 10 n, [], none⟩

theorem natLiteral_readable (n : ℕ) : (natLiteral n).Readable := ⟨whole_toDigits n, by simp [natLiteral, Digits]⟩

/-! ## Floats -/

/-- The search for the decimal places succeeds: two and five divide the denominator no more than `log2` times. -/
theorem dvd_places {q : ℚ} (h : IsDecimal q) : q.den ∣ 10 ^ places q := by
  obtain ⟨k, hk⟩ := h
  have hbound : q.den ∣ 10 ^ q.den.log2 := by
    rw [← Nat.factorization_le_iff_dvd q.den_nz (by positivity)]
    intro p
    have hle := (Nat.factorization_le_iff_dvd q.den_nz (by positivity)).mpr hk p
    rw [Nat.factorization_pow, Finsupp.smul_apply, smul_eq_mul] at hle ⊢
    rcases Nat.eq_zero_or_pos (Nat.factorization 10 p) with h0 | hpos
    · rw [h0, Nat.mul_zero] at hle ⊢
      exact hle
    · have hlog : q.den.factorization p ≤ q.den.log2 := by
        have hp : p.Prime := Nat.prime_of_mem_primeFactors
          (Nat.support_factorization 10 ▸ Finsupp.mem_support_iff.mpr (by omega))
        rw [Nat.factorization_def _ hp, Nat.log2_eq_log_two]
        exact (padicValNat_le_nat_log _).trans (Nat.log_anti_left (by omega) hp.two_le)
      exact hlog.trans (Nat.le_mul_of_pos_right _ hpos)
  have hsome : ((List.range (q.den.log2 + 1)).find? fun k => q.den ∣ 10 ^ k).isSome := by
    rw [List.find?_isSome]
    exact ⟨q.den.log2, by simp, by simpa using hbound⟩
  obtain ⟨j, hj⟩ := Option.isSome_iff_exists.mp hsome
  have hdvd := List.find?_some hj
  rw [places, hj]
  simpa using hdvd

theorem scaled_eq {q : ℚ} (h : IsDecimal q) : (scaled q : ℚ) = |q| * 10 ^ places q := by
  obtain ⟨c, hc⟩ := dvd_places h
  have hden : (q.den : ℚ) ≠ 0 := by exact_mod_cast q.den_nz
  have hq : |q| = q.num.natAbs / q.den := by
    rw [← Rat.num_div_den q, abs_div, Nat.cast_natAbs, Rat.num_div_den]
    simp
  have hdiv : 10 ^ places q / q.den = c := by
    rw [hc, Nat.mul_div_cancel_left _ q.den_pos]
  have hpow : (10 : ℚ) ^ places q = q.den * c := by exact_mod_cast congrArg (Nat.cast (R := ℚ)) hc
  rw [scaled, hdiv, hq, hpow]
  push_cast
  field_simp

theorem ofDigitChars_zeros_append (k : ℕ) (ds : List Char) :
    Nat.ofDigitChars 10 (List.replicate k '0' ++ ds) 0 = Nat.ofDigitChars 10 ds 0 := by
  rw [Nat.ofDigitChars_append, Nat.ofDigitChars_replicate_zero, Nat.mul_zero]

theorem ofDigitChars_append_zeros (ds : List Char) (k : ℕ) :
    Nat.ofDigitChars 10 (ds ++ List.replicate k '0') 0 = 10 ^ k * Nat.ofDigitChars 10 ds 0 := by
  rw [Nat.ofDigitChars_append, Nat.ofDigitChars_replicate_zero]

/-- Dropping the last zeros divides by a power of ten. -/
theorem rdropWhile_zeros (ds : List Char) : ∃ k, ds = ds.rdropWhile (· = '0') ++ List.replicate k '0' := by
  induction ds using List.reverseRecOn with
  | nil => exact ⟨0, rfl⟩
  | append_singleton ds d ih =>
    by_cases hd : d = '0'
    · subst hd
      obtain ⟨k, hk⟩ := ih
      refine ⟨k + 1, ?_⟩
      rw [List.rdropWhile_concat_pos _ _ _ (by simp), List.replicate_succ', ← List.append_assoc, ← hk]
    · exact ⟨0, by rw [List.rdropWhile_concat_neg _ _ _ (by simpa using hd)]; simp⟩

/-- Where the point is placed does not change the number: the digits with the point behind the first `point` of them. -/
theorem placePoint_value {ds : List Char} (hne : ds ≠ []) (point : ℤ) :
    (placePoint ds point).value = Nat.ofDigitChars 10 ds 0 * (10 : ℚ) ^ (point - ds.length) := by
  have h10 : (10 : ℚ) ≠ 0 := by norm_num
  unfold placePoint
  split_ifs with hnear hleft hinside
  · obtain ⟨k, rfl⟩ : ∃ k : ℕ, point = -k := ⟨(-point).toNat, by omega⟩
    have hvalue : Nat.ofDigitChars 10 (['0'] ++ (List.replicate k '0' ++ ds)) 0 = Nat.ofDigitChars 10 ds 0 := by
      rw [← List.append_assoc, ← List.replicate_one, List.replicate_append_replicate, ofDigitChars_zeros_append]
    simp only [Literal.value, neg_neg, Int.toNat_natCast, hvalue, List.length_append, List.length_replicate,
      Option.getD_none]
    congr 2
    push_cast
    ring
  · obtain ⟨k, rfl⟩ : ∃ k : ℕ, point = k := ⟨point.toNat, by omega⟩
    have hk : k ≤ ds.length := by omega
    simp only [Literal.value, Int.toNat_natCast, List.take_append_drop, List.length_drop, Option.getD_none]
    congr 2
    omega
  · obtain ⟨k, rfl⟩ : ∃ k : ℕ, point = k := ⟨point.toNat, by omega⟩
    have hk : ds.length ≤ k := by omega
    have hvalue : Nat.ofDigitChars 10 (ds ++ List.replicate (k - ds.length) '0' ++ ['0']) 0 =
        10 ^ (k - ds.length + 1) * Nat.ofDigitChars 10 ds 0 := by
      rw [List.append_assoc, ← List.replicate_succ', ofDigitChars_append_zeros]
    have hexp : (k : ℤ) - ds.length = ((k - ds.length : ℕ) : ℤ) := by omega
    simp only [Literal.value, Int.toNat_natCast, hvalue, hexp, Option.getD_none, zpow_natCast, zpow_neg,
      List.length_singleton, zero_sub, Nat.cast_mul, Nat.cast_pow]
    push_cast
    field_simp
    ring
  · have hds : ds.take 1 ++ ds.drop 1 = ds := List.take_append_drop 1 ds
    have hpos : 0 < ds.length := List.length_pos_iff.mpr hne
    simp only [Literal.value, hds, List.length_drop, Option.getD_some]
    congr 2
    omega

example : (placePoint ['1', '5'] (-4)).text = "1.5e-05".toList := by decide

example : (placePoint ['1', '5'] 3).text = "150.0".toList := by decide

theorem placePoint_isFloat {ds : List Char} (hne : ds ≠ []) (point : ℤ) : (placePoint ds point).isFloat = true := by
  unfold placePoint Literal.isFloat
  split_ifs with hnear hleft hinside
  · simp [hne]
  · simp
    omega
  · simp
  · simp

theorem placePoint_readable {c : Char} {cs : List Char} (hc : c ≠ '0') (hd : Digits (c :: cs)) (point : ℤ) :
    (placePoint (c :: cs) point).Readable := by
  have hzeros : ∀ k, Digits (List.replicate k '0') := by
    intro k d hm
    obtain rfl := (List.mem_replicate.mp hm).2
    rfl
  unfold placePoint
  split_ifs with hnear hleft hinside
  · refine ⟨.inl rfl, fun d hm => ?_⟩
    rcases List.mem_append.mp hm with hm | hm
    · exact hzeros _ d hm
    · exact hd d hm
  · obtain ⟨k, hk⟩ : ∃ k : ℕ, point.toNat = k + 1 := ⟨point.toNat - 1, by omega⟩
    refine ⟨.inr ⟨c, cs.take k, by simp [hk], hc, fun d hm => ?_⟩, fun d hm => hd d (List.mem_of_mem_drop hm)⟩
    exact hd d (List.mem_of_mem_take hm)
  · refine ⟨.inr ⟨c, cs ++ List.replicate _ '0', rfl, hc, fun d hm => ?_⟩, hzeros 1⟩
    rcases List.mem_append.mp hm with hm | hm
    · exact hd d hm
    · exact hzeros _ d hm
  · exact ⟨.inr ⟨c, [], rfl, hc, fun d hm => hd d (List.mem_of_mem_take hm)⟩, fun d hm => hd d (List.mem_of_mem_drop hm)⟩

/-- The digits of a number that is not zero, without the zeros at their end. -/
theorem significant_digits {n : ℕ} (hn : n ≠ 0) : ∃ c cs k, (Nat.toDigits 10 n).rdropWhile (· = '0') = c :: cs ∧
    Nat.toDigits 10 n = c :: cs ++ List.replicate k '0' ∧ c ≠ '0' ∧ Digits (c :: cs) := by
  obtain ⟨k, hk⟩ := rdropWhile_zeros (Nat.toDigits 10 n)
  have hvalue := Nat.ofDigitChars_ten_toDigits (n := n)
  rcases whole_toDigits n with h | ⟨c, cs, h, hne, hd⟩
  · rw [h] at hvalue
    exact absurd hvalue.symm hn
  · cases hs : (Nat.toDigits 10 n).rdropWhile (· = '0') with
    | nil =>
      rw [hs, List.nil_append] at hk
      rw [hk, Nat.ofDigitChars_replicate_zero, Nat.mul_zero] at hvalue
      exact absurd hvalue.symm hn
    | cons d ds =>
      rw [hs] at hk
      obtain ⟨rfl, -⟩ : d = c ∧ _ := by simpa [hk] using h
      refine ⟨d, ds, k, rfl, hk, hne, fun e hm => hd e ?_⟩
      rw [hk]
      exact List.mem_append_left _ hm

theorem literal_value {q : ℚ} (h : IsDecimal q) : (literal q).value = |q| := by
  have h10 : (10 : ℚ) ≠ 0 := by norm_num
  have hscaled := scaled_eq h
  unfold literal
  split_ifs with h0
  · rw [h0, Nat.cast_zero, eq_comm, mul_eq_zero, or_iff_left (pow_ne_zero _ h10)] at hscaled
    rw [hscaled]
    norm_num [Literal.value, Nat.ofDigitChars_cons]
  · obtain ⟨c, cs, k, hs, hall, -, -⟩ := significant_digits h0
    have hvalue : (Nat.ofDigitChars 10 (c :: cs) 0 : ℚ) * 10 ^ k = |q| * 10 ^ places q := by
      rw [← hscaled, ← Nat.ofDigitChars_ten_toDigits (n := scaled q), hall, ofDigitChars_append_zeros]
      push_cast
      ring
    simp only [hs]
    rw [placePoint_value (by simp), hall]
    have hexp : ((c :: cs ++ List.replicate k '0').length : ℤ) - places q - ((c :: cs).length : ℤ) =
        (k : ℤ) - (places q : ℤ) := by
      simp only [List.length_append, List.length_replicate, Nat.cast_add]
      ring
    rw [hexp, zpow_sub₀ h10, zpow_natCast, zpow_natCast, ← mul_div_assoc, hvalue]
    field_simp

theorem literal_readable (q : ℚ) : (literal q).Readable := by
  unfold literal
  split_ifs with h0
  · exact ⟨.inl rfl, by simp [Digits]⟩
  · obtain ⟨c, cs, k, hs, -, hne, hd⟩ := significant_digits h0
    simp only [hs]
    exact placePoint_readable hne hd _

theorem literal_isFloat (q : ℚ) : (literal q).isFloat = true := by
  unfold literal
  split_ifs with h0
  · rfl
  · obtain ⟨c, cs, k, hs, -⟩ := significant_digits h0
    simp only [hs]
    exact placePoint_isFloat (by simp) _

end LlmStore.Decimal
