import Mathlib.Data.List.DropRight

/-!
# Names that a tag is appended to and then cut

A name is archived by appending a marker and a group of `n` digits, the group of its owner, and keeping no more than
the first `limit` characters. What is before the last digits of an archived name, and these digits themselves, tell who
archived it and with which marker, unless the tag is cut (`Archived.trace`). So a whole tag makes a name that is the
archived name of no other owner (`Archived.ne_tagged`), and only a name that is cut can clash
(`Archived.take_tagged_iff`).
-/

namespace LlmStore.Lib

variable {α : Type*}

/-! ## The last digits of a list -/

section Digits

variable {digit : α → Bool} {s t : List α}

/-- What comes before a list with another character has no part in its last digits. -/
theorem rtakeWhile_append_of_exists (h : ∃ c ∈ t, digit c = false) (s : List α) :
    (s ++ t).rtakeWhile digit = t.rtakeWhile digit := by
  obtain ⟨c, hc, hdigit⟩ := h
  have hne : ¬ t.reverse.takeWhile digit = t.reverse := fun he => by
    have := List.takeWhile_eq_self_iff.mp he c (List.mem_reverse.mpr hc)
    rw [hdigit] at this
    cases this
  have hlen : (t.reverse.takeWhile digit).length ≠ t.reverse.length := fun he =>
    hne ((List.takeWhile_prefix digit).eq_of_length he)
  rw [List.rtakeWhile, List.reverse_append, List.takeWhile_append, if_neg hlen, List.rtakeWhile]

/-- Digits after another character are the last digits. -/
theorem rtakeWhile_append_of_forall {c : α} (hc : digit c = false) (ht : ∀ d ∈ t, digit d = true) (s : List α) :
    (s ++ [c] ++ t).rtakeWhile digit = t := by
  induction t using List.reverseRecOn with
  | nil =>
    rw [List.append_nil]
    exact List.rtakeWhile_concat_neg digit _ c (by simp [hc])
  | append_singleton t d ih =>
    rw [← List.append_assoc, List.rtakeWhile_concat_pos digit _ d (ht d (by simp)),
      ih fun d hd => ht d (List.mem_append_left _ hd)]

/-- What comes before digits after another character. -/
theorem rdropWhile_append_of_forall {c : α} (hc : digit c = false) (ht : ∀ d ∈ t, digit d = true) (s : List α) :
    (s ++ [c] ++ t).rdropWhile digit = s ++ [c] := by
  have h := List.rdropWhile_append_rtakeWhile (p := digit) (l := s ++ [c] ++ t)
  rw [rtakeWhile_append_of_forall hc ht] at h
  exact List.append_cancel_right h

end Digits

/-! ## Markers -/

/-- What stands between a name and a group of `n` digits: it begins and ends with another character, and no beginning
of it ends in as many digits as a group has. -/
structure Marker (digit : α → Bool) (n : ℕ) where
  first : α
  middle : List α
  last : α
  first_not_digit : digit first = false
  last_not_digit : digit last = false
  short : ∀ t, t <+: first :: middle ++ [last] → (t.rtakeWhile digit).length < n

/-- The digits that stand for an owner. -/
structure IsGroup (digit : α → Bool) (n : ℕ) (group : List α) : Prop where
  length_eq : group.length = n
  all_digits : ∀ d ∈ group, digit d = true

section Names

variable {digit : α → Bool} {n : ℕ}

def Marker.text (mark : Marker digit n) : List α := mark.first :: mark.middle ++ [mark.last]

/-- What is appended. -/
def Marker.tag (mark : Marker digit n) (group : List α) : List α := mark.text ++ group

/-- The names that an owner gets under a column of `limit` characters: any name without a marker, and what archiving
makes of a name that it got. -/
inductive Archived (marks : List (Marker digit n)) (limit : ℕ) (mark : Marker digit n) (group : List α) :
    List α → Prop
  | live {name : List α} : name.length ≤ limit → (∀ m ∈ marks, ¬ m.text <:+: name) →
      Archived marks limit mark group name
  | archive {name : List α} : Archived marks limit mark group name →
      Archived marks limit mark group ((name ++ mark.tag group).take limit)

variable {marks : List (Marker digit n)} {limit : ℕ} {mark mark' : Marker digit n} {group group' name other : List α}

theorem Marker.text_eq (mark : Marker digit n) : mark.text = (mark.first :: mark.middle) ++ [mark.last] := rfl

/-- A tag shows its group. -/
theorem rtakeWhile_tagged (hg : IsGroup digit n group) (name : List α) (mark : Marker digit n) :
    (name ++ mark.tag group).rtakeWhile digit = group := by
  rw [Marker.tag, Marker.text_eq, ← List.append_assoc, ← List.append_assoc]
  exact rtakeWhile_append_of_forall mark.last_not_digit hg.all_digits _

/-- A tag shows its marker. -/
theorem rdropWhile_tagged (hg : IsGroup digit n group) (name : List α) (mark : Marker digit n) :
    (name ++ mark.tag group).rdropWhile digit = name ++ mark.text := by
  rw [Marker.tag, Marker.text_eq, ← List.append_assoc, ← List.append_assoc]
  rw [rdropWhile_append_of_forall mark.last_not_digit hg.all_digits, List.append_assoc]

/-- A beginning of a tag ends in fewer than `n` digits, or is the whole tag. -/
theorem short_or_whole (hg : IsGroup digit n group) {t : List α} (ht : t <+: mark.tag group) :
    (t.rtakeWhile digit).length < n ∨ t = mark.tag group := by
  rcases List.prefix_or_prefix_of_prefix ht (List.prefix_append mark.text group) with hshort | ⟨t, rfl⟩
  · exact .inl (mark.short t hshort)
  · obtain ⟨rest, hrest⟩ := (List.prefix_append_right_inj _).mp ht
    by_cases hnil : rest = []
    · subst hnil
      right
      rw [Marker.tag, ← hrest, List.append_nil]
    · left
      have hall : ∀ d ∈ t, digit d = true := fun d hd =>
        hg.all_digits d (hrest ▸ List.mem_append_left _ hd)
      rw [Marker.text_eq, rtakeWhile_append_of_forall mark.last_not_digit hall]
      have hlen := hg.length_eq
      have hpos := List.length_pos_iff.mpr hnil
      rw [← hrest, List.length_append] at hlen
      omega

theorem Archived.length_le (h : Archived marks limit mark group name) : name.length ≤ limit := by
  cases h with
  | live hlen => exact hlen
  | archive => exact List.length_take_le _ _

/-- **What an archived name shows**: it has no marker, it ends in fewer digits than a group has, or it ends in the
marker and the group of its owner. -/
theorem Archived.trace (hg : IsGroup digit n group) (h : Archived marks limit mark group name) :
    (∀ m ∈ marks, ¬ m.text <:+: name) ∨ (name.rtakeWhile digit).length < n ∨
      ∃ pre, name = pre ++ mark.tag group := by
  induction h with
  | live _ hfree => exact .inl hfree
  | @archive name hname ih =>
    by_cases hfull : name.length = limit
    · -- the column is full, and nothing of the tag is kept
      rw [List.take_append_of_le_length hfull.ge, List.take_of_length_le hfull.le]
      exact ih
    · have hlt : name.length < limit := lt_of_le_of_ne hname.length_le hfull
      obtain ⟨k, rfl⟩ : ∃ k, limit = name.length + (k + 1) := ⟨limit - name.length - 1, by omega⟩
      rw [List.take_length_add_append]
      have hfirst : ∃ c ∈ (mark.tag group).take (k + 1), digit c = false :=
        ⟨mark.first, by simp [Marker.tag, Marker.text], mark.first_not_digit⟩
      right
      rcases short_or_whole hg (List.take_prefix (k + 1) (mark.tag group)) with hshort | hwhole
      · left
        rw [rtakeWhile_append_of_exists hfirst]
        exact hshort
      · exact .inr ⟨name, by rw [hwhole]⟩

/-- **A whole tag is not met twice**: the name is none that another owner has, or the same owner with a marker that
ends in another character. -/
theorem Archived.ne_tagged (hg : IsGroup digit n group) (hg' : IsGroup digit n group')
    (h : Archived marks limit mark' group' other) (hmark : mark ∈ marks)
    (hne : group' ≠ group ∨ mark'.last ≠ mark.last) (name : List α) : other ≠ name ++ mark.tag group := by
  rintro rfl
  rcases h.trace hg' with hfree | hshort | ⟨pre, hpre⟩
  · exact hfree mark hmark ⟨name, group, by rw [Marker.tag, List.append_assoc]⟩
  · rw [rtakeWhile_tagged hg, hg.length_eq] at hshort
    exact lt_irrefl _ hshort
  · rcases hne with hgroup | hlast
    · have := congrArg (List.rtakeWhile digit) hpre
      rw [rtakeWhile_tagged hg, rtakeWhile_tagged hg'] at this
      exact hgroup this.symm
    · have := congrArg (List.rdropWhile digit) hpre
      rw [rdropWhile_tagged hg, rdropWhile_tagged hg', Marker.text_eq, Marker.text_eq, ← List.append_assoc,
        ← List.append_assoc] at this
      exact hlast (List.singleton_inj.mp (List.append_inj' this rfl).2).symm

/-! ## Names that are cut -/

/-- The beginning of `limit` characters of a longer list. -/
def CutOff (limit : ℕ) (whole name : List α) : Prop :=
  name.length = limit ∧ limit < whole.length ∧ name <+: whole

instance [DecidableEq α] (limit : ℕ) (whole name : List α) : Decidable (CutOff limit whole name) := by
  unfold CutOff
  infer_instance

/-- A name is what is left of a longer list exactly if the list is cut to it. -/
theorem take_eq_iff_cutOff {whole : List α} (h : limit < whole.length) :
    whole.take limit = name ↔ CutOff limit whole name := by
  constructor
  · rintro rfl
    exact ⟨List.length_take_of_le h.le, h, List.take_prefix _ _⟩
  · rintro ⟨hlen, -, hpre⟩
    rw [← hlen]
    exact (List.prefix_iff_eq_take.mp hpre).symm

/-- **Only a name that is cut clashes.** -/
theorem Archived.take_tagged_iff {limit' : ℕ} (hg : IsGroup digit n group) (hg' : IsGroup digit n group')
    (h : Archived marks limit' mark' group' other) (hmark : mark ∈ marks)
    (hne : group' ≠ group ∨ mark'.last ≠ mark.last) :
    (name ++ mark.tag group).take limit = other ↔ CutOff limit (name ++ mark.tag group) other := by
  by_cases hcut : limit < (name ++ mark.tag group).length
  · exact take_eq_iff_cutOff hcut
  · rw [List.take_of_length_le (not_lt.mp hcut)]
    exact ⟨fun he => absurd he.symm (h.ne_tagged hg hg' hmark hne name), fun hc => absurd hc.2.1 hcut⟩

/-- A name is left as it is exactly if it is cut too, since it fills the column. -/
theorem take_tagged_self_iff :
    (name ++ mark.tag group).take limit = name ↔ CutOff limit (name ++ mark.tag group) name := by
  have hpos : name.length < (name ++ mark.tag group).length := by simp [Marker.tag, Marker.text]
  by_cases hcut : limit < (name ++ mark.tag group).length
  · exact take_eq_iff_cutOff hcut
  · rw [List.take_of_length_le (not_lt.mp hcut)]
    exact ⟨fun he => absurd (congrArg List.length he) hpos.ne', fun hc => absurd hc.2.1 hcut⟩

/-- A name that fills the column is what is left of it. -/
theorem cutOff_self_iff : CutOff limit (name ++ mark.tag group) name ↔ name.length = limit := by
  refine ⟨fun h => h.1, fun h => ⟨h, ?_, List.prefix_append _ _⟩⟩
  rw [← h]
  simp [Marker.tag, Marker.text]

end Names

end LlmStore.Lib
