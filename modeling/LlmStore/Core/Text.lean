import Mathlib.Data.List.DropRight
import Mathlib.Data.String.Basic

/-!
# Python strings

The few operations of `str` that the code uses, on lists of characters.
-/

namespace LlmStore.Text

/-- `c.isspace()`. -/
def isSpace (c : Char) : Bool :=
  let n := c.toNat
  (9 ≤ n && n ≤ 13) || (28 ≤ n && n ≤ 32) || n == 0x85 || n == 0xA0 || n == 0x1680 || (0x2000 ≤ n && n ≤ 0x200A) ||
    n == 0x2028 || n == 0x2029 || n == 0x202F || n == 0x205F || n == 0x3000

/-- `s.strip()`. -/
def strip (s : List Char) : List Char := (s.dropWhile isSpace).rdropWhile isSpace

/-- `not s.strip()`. -/
def isBlank (s : List Char) : Bool := (strip s).isEmpty

/-- `s.split()`. -/
def split (s : List Char) : List (List Char) := (s.splitOnP isSpace).filter fun word => !word.isEmpty

/-- Skip `n` characters, then delete the occurrences of `old`. -/
def deleteFrom (old : List Char) : ℕ → List Char → List Char
  | _, [] => []
  | n + 1, _ :: s => deleteFrom old n s
  | 0, c :: s => if old.isPrefixOf (c :: s) then deleteFrom old (old.length - 1) s else c :: deleteFrom old 0 s

/-- `s.replace(old, "")`, for an `old` that is not empty. -/
def delete (old s : List Char) : List Char := deleteFrom old 0 s

/-- Nothing is stripped from a text without spaces. -/
theorem strip_eq_self {s : List Char} (h : ∀ c ∈ s, isSpace c = false) : strip s = s := by
  have hd : s.dropWhile isSpace = s := by
    rw [List.dropWhile_eq_self_iff]
    intro hl
    simp [h _ (List.getElem_mem hl)]
  rw [strip, hd, List.rdropWhile_eq_self_iff]
  intro hl
  simp [h _ (List.getLast_mem hl)]

/-- Stripping keeps every character that is not a space. -/
theorem count_strip {z : Char} (hz : isSpace z = false) (s : List Char) : (strip s).count z = s.count z := by
  have hd : ∀ s : List Char, (s.dropWhile isSpace).count z = s.count z := by
    intro s
    induction s with
    | nil => rfl
    | cons c s ih =>
      rcases hc : isSpace c with _ | _
      · simp [hc]
      · have hne : c ≠ z := by rintro rfl; rw [hz] at hc; cases hc
        rw [List.dropWhile_cons_of_pos hc, ih, List.count_cons_of_ne hne]
  rw [strip, List.rdropWhile, List.count_reverse, hd, List.count_reverse, hd]

/-- Deleting keeps every character that is not in the deleted text. -/
theorem count_deleteFrom {z : Char} {old : List Char} (hz : z ∉ old) (ho : old ≠ []) (s : List Char) :
    ∀ n : ℕ, (deleteFrom old n s).count z = (s.drop n).count z := by
  induction s with
  | nil => intro n; simp [deleteFrom]
  | cons c s ih =>
    intro n
    cases n with
    | succ n => exact ih n
    | zero =>
      simp only [deleteFrom, List.drop_zero]
      split
      · rename_i hp
        obtain ⟨t, ht⟩ := List.isPrefixOf_iff_prefix.mp hp
        obtain ⟨o, os, rfl⟩ := List.exists_cons_of_ne_nil ho
        obtain ⟨rfl, rfl⟩ := List.cons.inj ht
        have hne : o ≠ z := fun h => hz (by simp [h])
        have hos : os.count z = 0 := List.count_eq_zero_of_not_mem fun h => hz (by simp [h])
        rw [ih]
        show ((os ++ t).drop os.length).count z = (o :: (os ++ t)).count z
        rw [List.drop_left, List.count_cons_of_ne hne, List.count_append, hos, Nat.zero_add]
      · rw [List.count_cons, ih 0, List.drop_zero, List.count_cons]

theorem count_delete {z : Char} {old : List Char} (hz : z ∉ old) (ho : old ≠ []) (s : List Char) :
    (delete old s).count z = s.count z :=
  count_deleteFrom hz ho s 0

end LlmStore.Text
