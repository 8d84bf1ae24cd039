import LlmStore.Core.JsonText

/-!
# What `json.loads` returns

The objects that are read have distinct keys and the floats that are read are exact (`proper_of_loads`), so that a value
which was read once is the same after it is written and read again (`loads_dumps_of_loads`).
-/

namespace LlmStore

namespace Decimal

theorem isDecimal_intCast (n : ℤ) : IsDecimal n := ⟨0, by simp⟩

theorem IsDecimal.mul_intCast {q : ℚ} (h : IsDecimal q) (n : ℤ) : IsDecimal (n * q) := by
  obtain ⟨k, hk⟩ := h
  exact ⟨k, (Rat.mul_den_dvd n q).trans (by simpa using hk)⟩

theorem IsDecimal.neg {q : ℚ} (h : IsDecimal q) : IsDecimal (-q) := by simpa [IsDecimal] using h

theorem isDecimal_zpow (z : ℤ) : IsDecimal ((10 : ℚ) ^ z) := by
  obtain ⟨k, rfl | rfl⟩ := z.eq_nat_or_neg
  · rw [zpow_natCast]
    exact_mod_cast isDecimal_intCast (10 ^ k)
  · refine ⟨k, ?_⟩
    have hden : ((10 : ℚ) ^ (-(k : ℤ))) = ((1 : ℤ) : ℚ) / ((10 ^ k : ℤ) : ℚ) := by
      rw [zpow_neg, zpow_natCast]
      push_cast
      rw [one_div]
    rw [hden]
    exact_mod_cast Rat.den_dvd 1 (10 ^ k)

theorem Literal.value_nonneg (l : Literal) : 0 ≤ l.value :=
  mul_nonneg (Nat.cast_nonneg _) (zpow_nonneg (by norm_num) _)

theorem Literal.isDecimal_value (l : Literal) : IsDecimal l.value := by
  have h := (isDecimal_zpow (l.exponent.getD 0 - l.fraction.length)).mul_intCast
    (Nat.ofDigitChars 10 (l.whole ++ l.fraction) 0 : ℤ)
  simpa [Literal.value] using h

end Decimal

namespace JsonText

open Decimal

/-- A float that is read is exact. -/
theorem exact_readFloat (negative : Bool) (l : Literal) : Exact (readFloat negative l.value) := by
  unfold readFloat
  split_ifs with hover _ hunder hneg hneg
  · trivial
  · trivial
  · trivial
  · exact ⟨⟨0, one_dvd _⟩, .inl rfl⟩
  · refine ⟨l.isDecimal_value.neg, .inr ?_⟩
    rw [abs_neg, abs_of_nonneg l.value_nonneg]
    exact ⟨not_le.mp hunder, not_le.mp hover⟩
  · refine ⟨l.isDecimal_value, .inr ?_⟩
    rw [abs_of_nonneg l.value_nonneg]
    exact ⟨not_le.mp hunder, not_le.mp hover⟩

theorem proper_number (negative : Bool) (l : Literal) : Proper (number negative l) := by
  unfold number
  split
  · exact .float (exact_readFloat negative l)
  · exact .int _

theorem nodup_setItem (key : String) (value : Json) {fields : List (String × Json)} (h : (fields.map Prod.fst).Nodup) :
    ((Json.setItem key value fields).map Prod.fst).Nodup ∧
      ∀ k, k ∈ (Json.setItem key value fields).map Prod.fst ↔ k = key ∨ k ∈ fields.map Prod.fst := by
  induction fields with
  | nil => simp [Json.setItem]
  | cons field fields ih =>
    obtain ⟨k', v⟩ := field
    simp only [List.map_cons, List.nodup_cons] at h
    obtain ⟨hnodup, hmem⟩ := ih h.2
    by_cases hk : k' = key
    · subst hk
      rw [Json.setItem, if_pos rfl]
      exact ⟨by simpa using h, fun k => by simp⟩
    · rw [Json.setItem, if_neg hk]
      constructor
      · rw [List.map_cons, List.nodup_cons, hmem]
        exact ⟨not_or.mpr ⟨hk, h.1⟩, hnodup⟩
      · intro k
        rw [List.map_cons, List.mem_cons, hmem, List.map_cons, List.mem_cons]
        exact or_left_comm

/-- The values of a `dict` with a new entry are the new one and those that were there. -/
theorem mem_setItem {key : String} {value : Json} {field : String × Json} : ∀ {fields : List (String × Json)},
    field ∈ Json.setItem key value fields → field.2 = value ∨ field ∈ fields
  | [], h => by
    obtain rfl := List.mem_singleton.mp h
    exact .inl rfl
  | (k, v) :: fields, h => by
    rw [Json.setItem] at h
    split at h
    · rcases List.mem_cons.mp h with rfl | h
      · exact .inl rfl
      · exact .inr (List.mem_cons_of_mem _ h)
    · rcases List.mem_cons.mp h with rfl | h
      · exact .inr List.mem_cons_self
      · exact (mem_setItem h).imp id (List.mem_cons_of_mem _)

theorem proper_toDict {pairs : List (String × Json)} (h : ∀ pair ∈ pairs, Proper pair.2) : Proper (.obj (toDict pairs)) := by
  have hfold : ∀ (pairs fields : List (String × Json)), (∀ pair ∈ pairs, Proper pair.2) → Proper (.obj fields) →
      Proper (.obj (pairs.foldl (fun fields pair => Json.setItem pair.1 pair.2 fields) fields)) := by
    intro pairs
    induction pairs with
    | nil => exact fun fields _ hfields => hfields
    | cons pair pairs ih =>
      intro fields hpairs hfields
      refine ih _ (fun p hp => hpairs p (List.mem_cons_of_mem _ hp)) ?_
      cases hfields with
      | obj hkeys hvalues =>
        refine .obj (nodup_setItem pair.1 pair.2 hkeys).1 fun field hfield => ?_
        rcases mem_setItem hfield with hvalue | hfield
        · rw [hvalue]
          exact hpairs pair List.mem_cons_self
        · exact hvalues field hfield
  exact hfold pairs [] h (.obj List.nodup_nil (by simp))

theorem proper_scanKeyword {s rest : List Char} {v : Json} (h : scanKeyword s = some (v, rest)) : Proper v := by
  unfold scanKeyword at h
  split_ifs at h
  all_goals
    obtain ⟨rfl, rfl⟩ := Prod.mk.inj (Option.some.inj h)
    constructor

theorem proper_scanNonFinite {s rest : List Char} {v : Json} (h : scanNonFinite s = some (v, rest)) : Proper v := by
  unfold scanNonFinite at h
  split_ifs at h
  all_goals
    obtain ⟨rfl, rfl⟩ := Prod.mk.inj (Option.some.inj h)
    exact .float trivial

/-- What the scanners make with some fuel. -/
def ProperScans (fuel : ℕ) : Prop :=
  (∀ s v rest, scanValue fuel s = some (v, rest) → Proper v) ∧
  (∀ s items rest, scanItems fuel s = some (items, rest) → ∀ item ∈ items, Proper item) ∧
  (∀ s pairs rest, scanFields fuel s = some (pairs, rest) → ∀ pair ∈ pairs, Proper pair.2)

theorem proper_scanValue {fuel : ℕ} (ih : ProperScans fuel) {s rest : List Char} {v : Json}
    (h : scanValue (fuel + 1) s = some (v, rest)) : Proper v := by
  cases s with
  | nil => cases h
  | cons c s =>
    rw [scanValue] at h
    split_ifs at h with hquote hbracket hbrace
    · obtain ⟨p, -, hv⟩ := Option.map_eq_some_iff.mp h
      obtain ⟨rfl, rfl⟩ := Prod.mk.inj hv
      exact .str _
    · split at h
      · cases h
      · split_ifs at h with hclose
        · obtain ⟨rfl, rfl⟩ := Prod.mk.inj (Option.some.inj h)
          exact .arr (by simp)
        · obtain ⟨⟨items, t⟩, hitems, hv⟩ := Option.map_eq_some_iff.mp h
          obtain ⟨rfl, rfl⟩ := Prod.mk.inj hv
          exact .arr (ih.2.1 _ _ _ hitems)
    · split at h
      · cases h
      · split_ifs at h with hclose
        · obtain ⟨rfl, rfl⟩ := Prod.mk.inj (Option.some.inj h)
          exact .obj List.nodup_nil (by simp)
        · obtain ⟨⟨pairs, t⟩, hpairs, hv⟩ := Option.map_eq_some_iff.mp h
          obtain ⟨rfl, rfl⟩ := Prod.mk.inj hv
          exact proper_toDict (ih.2.2 _ _ _ hpairs)
    · split at h
      · rename_i found hfound
        obtain rfl := Option.some.inj h
        exact proper_scanKeyword hfound
      · split at h
        · obtain ⟨rfl, rfl⟩ := Prod.mk.inj (Option.some.inj h)
          exact proper_number _ _
        · exact proper_scanNonFinite h

theorem proper_scanItems {fuel : ℕ} (ih : ProperScans fuel) {s rest : List Char} {items : List Json}
    (h : scanItems (fuel + 1) s = some (items, rest)) : ∀ item ∈ items, Proper item := by
  rw [scanItems, Option.bind_eq_bind, Option.bind_eq_some_iff] at h
  obtain ⟨⟨v, t⟩, hv, h⟩ := h
  have hproper : Proper v := ih.1 _ _ _ hv
  dsimp only at h
  split at h
  · cases h
  · split_ifs at h with hclose hcomma
    · obtain ⟨rfl, rfl⟩ := Prod.mk.inj (Option.some.inj h)
      simpa using hproper
    · rw [Option.bind_eq_bind, Option.bind_eq_some_iff] at h
      obtain ⟨⟨more, u⟩, hmore, h⟩ := h
      obtain ⟨rfl, rfl⟩ := Prod.mk.inj (Option.some.inj h)
      exact List.forall_mem_cons.mpr ⟨hproper, ih.2.1 _ _ _ hmore⟩

theorem proper_scanFields {fuel : ℕ} (ih : ProperScans fuel) {s rest : List Char} {pairs : List (String × Json)}
    (h : scanFields (fuel + 1) s = some (pairs, rest)) : ∀ pair ∈ pairs, Proper pair.2 := by
  cases s with
  | nil => cases h
  | cons q s =>
    rw [scanFields] at h
    split_ifs at h with hquote
    rw [Option.bind_eq_bind, Option.bind_eq_some_iff] at h
    obtain ⟨⟨key, t⟩, -, h⟩ := h
    dsimp only at h
    split at h
    · cases h
    · split_ifs at h with hcolon
      rw [Option.bind_eq_bind, Option.bind_eq_some_iff] at h
      obtain ⟨⟨v, u⟩, hv, h⟩ := h
      have hproper : Proper v := ih.1 _ _ _ hv
      dsimp only at h
      split at h
      · cases h
      · split_ifs at h with hclose hcomma
        · obtain ⟨rfl, rfl⟩ := Prod.mk.inj (Option.some.inj h)
          simpa using hproper
        · rw [Option.bind_eq_bind, Option.bind_eq_some_iff] at h
          obtain ⟨⟨more, w⟩, hmore, h⟩ := h
          obtain ⟨rfl, rfl⟩ := Prod.mk.inj (Option.some.inj h)
          exact List.forall_mem_cons.mpr ⟨hproper, ih.2.2 _ _ _ hmore⟩

theorem properScans (fuel : ℕ) : ProperScans fuel := by
  induction fuel with
  | zero =>
    refine ⟨fun s v rest h => ?_, fun s items rest h => ?_, fun s pairs rest h => ?_⟩
    · rw [scanValue] at h
      cases h
    · rw [scanItems] at h
      cases h
    · rw [scanFields] at h
      cases h
  | succ fuel ih =>
    exact ⟨fun _ _ _ => proper_scanValue ih, fun _ _ _ => proper_scanItems ih, fun _ _ _ => proper_scanFields ih⟩

theorem proper_of_loads {s : List Char} {v : Json} (h : loads s = .ok v) : Proper v := by
  unfold loads at h
  split at h
  · rename_i value rest hscan
    split at h
    · obtain rfl := Except.ok.inj h
      exact (properScans _).1 _ _ _ hscan
    · cases h
  · cases h

/-- A value that was read is the same when it is written and read again. -/
theorem loads_dumps_of_loads {style : Style} (hs : style.Readable) (hsort : style.sortKeys = false) {s : List Char}
    {v : Json} (h : loads s = .ok v) : loads (dumps style v) = .ok v :=
  loads_dumps hs hsort (proper_of_loads h)

end JsonText

end LlmStore
