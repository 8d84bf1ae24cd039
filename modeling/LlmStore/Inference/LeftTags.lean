import LlmStore.Inference.StreamedText
import LlmStore.Lib.Deletion

/-!
# Tags that are left

What `sanitize_assistant_text` leaves of a text has no tag, and is left as it is when it is sanitised again, exactly if
outside of the closed blocks of the text there is no tag but those that are deleted (`complete_iff`): the tags are deleted
in lower case and once, so a `<THINK>` stays, and so does a tag that is written around another one.
-/

namespace LlmStore.Inference

open Blocks LlmStore.Lib

/-! ## Deleting a text -/

theorem deleteFrom_eq (old s : List Char) : ∀ n, Text.deleteFrom old n s = Text.delete old (s.drop n) := by
  induction s with
  | nil => intro n; cases n <;> simp [Text.delete, Text.deleteFrom]
  | cons c s ih =>
    intro n
    cases n with
    | zero => rfl
    | succ n => simpa [Text.deleteFrom] using ih n

/-- `s.replace(old, "")` deletes the occurrences of `old`. -/
theorem delete_eq {old s r : List Char} (ho : old ≠ []) (h : Deletes old s r) : Text.delete old s = r := by
  induction h with
  | nil => rfl
  | @word s r _ ih =>
    obtain ⟨c, rest, rfl⟩ := List.exists_cons_of_ne_nil ho
    have hstart : (c :: rest).isPrefixOf (c :: (rest ++ s)) = true :=
      List.isPrefixOf_iff_prefix.mpr (List.prefix_append (c :: rest) s)
    rw [Text.delete, List.cons_append, Text.deleteFrom, if_pos hstart, deleteFrom_eq]
    simpa using ih
  | @keep x s r hx _ ih =>
    have hstart : ¬ old.isPrefixOf (x :: s) = true := fun hp => hx (List.isPrefixOf_iff_prefix.mp hp)
    rw [Text.delete, Text.deleteFrom, if_neg hstart]
    exact congrArg (x :: ·) ih

theorem deletes_delete {old : List Char} (ho : old ≠ []) (s : List Char) : Deletes old s (Text.delete old s) := by
  obtain ⟨r, hr⟩ := exists_deletes old ho s
  rw [delete_eq ho hr]
  exact hr

/-! ## Tags -/

/-- A `<think>` or `</think>`, in any letter case. -/
def IsTag (w : List Char) : Prop :=
  ∃ qs ∈ [thinkBlock.opening, thinkBlock.closing], w.length = qs.length ∧ startsWith qs w = true

theorem tagFree_iff {s : List Char} : TagFree s ↔ ∀ w, IsTag w → ¬ w <:+: s := by
  constructor
  · rintro h w ⟨qs, hqs, hlength, hw⟩ ⟨a, b, rfl⟩
    have hsuffix := h (w ++ b) ⟨a, by rw [List.append_assoc]⟩
    have hmono := startsWith_mono b hw
    rcases List.mem_pair.mp hqs with rfl | rfl
    · rw [hsuffix.1] at hmono
      cases hmono
    · rw [hsuffix.2] at hmono
      cases hmono
  · intro h t ht
    have htag : ∀ qs ∈ [thinkBlock.opening, thinkBlock.closing], startsWith qs t = false := by
      intro qs hqs
      by_contra hstarts
      have hstarts := (Bool.not_eq_false _).mp hstarts
      refine h (t.take qs.length) ⟨qs, hqs, ?_, ?_⟩ ((List.take_prefix _ t).isInfix.trans ht.isInfix)
      · rw [List.length_take, Nat.min_eq_left (length_le_of_startsWith hstarts)]
      · simpa using Delimiters.startsWith_take hstarts []
    exact ⟨htag _ (by simp), htag _ (by simp)⟩

theorem not_mem_of_startsWith {qs : List (Char → Bool)} {x : Char} (hqs : ∀ q ∈ qs, q x = false) :
    ∀ {u : List Char}, u.length = qs.length → startsWith qs u = true → x ∉ u := by
  induction qs with
  | nil =>
    intro u hlength _
    simp [List.eq_nil_of_length_eq_zero hlength]
  | cons q qs ih =>
    intro u hlength hu
    cases u with
    | nil => simp
    | cons y u =>
      simp only [startsWith, Bool.and_eq_true] at hu
      have hy : x ≠ y := by
        rintro rfl
        rw [hqs q (by simp)] at hu
        cases hu.1
      have hrest : x ∉ u := ih (fun q hq => hqs q (by simp [hq])) (by simpa using hlength) hu.2
      simp [hy, hrest]

/-- A text with the letters of a tag has its `<` at its start only. -/
theorem cases_of_startsWith {e : Char} {qs : List (Char → Bool)} {w : List Char}
    (hqs : ∀ q ∈ ignoreCase e :: qs, q '<' = false) (hlength : w.length = qs.length + 2)
    (hw : startsWith (ignoreCase '<' :: ignoreCase e :: qs) w = true) :
    ∃ d w', w = '<' :: d :: w' ∧ '<' ∉ d :: w' ∧ ignoreCase e d = true := by
  match w, hlength with
  | x :: d :: w', hlength =>
    simp only [startsWith, Bool.and_eq_true] at hw
    have hx : x = '<' := by simpa [ignoreCase] using hw.1
    refine ⟨d, w', by rw [hx], not_mem_of_startsWith hqs (by simpa using hlength) ?_, hw.2.1⟩
    simp only [startsWith, hw.2.1, hw.2.2, Bool.and_self]

theorem thinkTag_eq : thinkTag = '<' :: 't' :: "hink>".toList := by decide

theorem endThinkTag_eq : endThinkTag = '<' :: '/' :: "think>".toList := by decide

theorem IsTag.cases {w : List Char} (h : IsTag w) : ∃ d w', w = '<' :: d :: w' ∧ '<' ∉ d :: w' ∧
    (d ≠ '/' ∧ w.length = 7 ∨ d = '/' ∧ w.length = 8) := by
  obtain ⟨qs, hqs, hlength, hw⟩ := h
  rcases List.mem_pair.mp hqs with rfl | rfl
  · have hw : startsWith (ignoreCase '<' :: ignoreCase 't' :: "hink>".toList.map ignoreCase) w = true := hw
    obtain ⟨d, w', rfl, hmem, hd⟩ := cases_of_startsWith (by decide) hlength hw
    refine ⟨d, w', rfl, hmem, .inl ⟨?_, hlength⟩⟩
    rintro rfl
    exact absurd hd (by decide)
  · have hw : startsWith (ignoreCase '<' :: ignoreCase '/' :: "think>".toList.map ignoreCase) w = true := hw
    obtain ⟨d, w', rfl, hmem, hd⟩ := cases_of_startsWith (by decide) hlength hw
    exact ⟨d, w', rfl, hmem, .inr ⟨by simpa [ignoreCase] using hd, hlength⟩⟩

/-! ## What is left -/

/-- A tag is left of a text: one that is not deleted, or around whose letters others are. The end tags between the letters
are written in lower case, and so are the start tags between the letters of the whole. -/
def LeavesTag (s : List Char) : Prop :=
  ∃ w v v', IsTag w ∧ Woven endThinkTag w v ∧ v ≠ endThinkTag ∧ Woven thinkTag v v' ∧ v' ≠ thinkTag ∧ v' <:+: s

theorem apart_of_head {c : Char} {rest t : List Char} (ht : t ≠ []) (hhead : t.head? ≠ some c) :
    Apart t (c :: rest) := by
  obtain ⟨x, t, rfl⟩ := List.exists_cons_of_ne_nil ht
  constructor
  · intro hstart
    exact hhead (by rw [(List.cons_prefix_cons.mp hstart).1]; rfl)
  · intro hstart
    exact hhead (by rw [(List.cons_prefix_cons.mp hstart).1]; rfl)

/-- A `<` in a row of `</think>`s starts one of them. -/
theorem prefix_of_suffix_words {p v t : List Char} (hp : Words endThinkTag p) (ht : t <:+ p ++ v)
    (hhead : t.head? = some '<') : endThinkTag <+: t ∨ t <:+ v := by
  have htails : ∀ t ∈ endThinkTag.tails, t.head? = some '<' → t = endThinkTag := by decide
  induction hp with
  | nil => exact .inr ht
  | @cons p _ ih =>
    rw [List.append_assoc] at ht
    rcases List.suffix_or_suffix_of_suffix ht (List.suffix_append endThinkTag (p ++ v)) with hshort | ⟨a, rfl⟩
    · exact ih hshort
    · obtain ⟨b, hb⟩ := ht
      have ha : a <:+ endThinkTag := ⟨b, List.append_cancel_right (by rw [← hb, List.append_assoc])⟩
      by_cases hnil : a = []
      · exact ih (by rw [hnil, List.nil_append])
      · rw [List.head?_append_of_ne_nil _ hnil] at hhead
        rw [htails a ((List.mem_tails a _).mpr ha) hhead]
        exact .inl (List.prefix_append _ _)

/-- In a text woven around `</think>` a `<`, but for the first, starts a `</think>`. -/
theorem prefix_of_suffix {w v : List Char} (h : Woven endThinkTag w v) (hw : '<' ∉ w.tail) :
    ∀ t, t <:+ v.tail → t.head? = some '<' → endThinkTag <+: t := by
  induction h with
  | single x =>
    intro t ht hhead
    rw [List.suffix_nil.mp ht] at hhead
    cases hhead
  | @cons x p w v hp hwoven ih =>
    intro t ht hhead
    rcases prefix_of_suffix_words hp ht hhead with hstart | hsuffix
    · exact hstart
    · by_cases hv : t = v
      · rw [hv, hwoven.head?_eq] at hhead
        exact absurd (List.mem_of_mem_head? hhead) hw
      · have htail : t <:+ v.tail := by
          obtain ⟨y, v, rfl⟩ : ∃ y v', v = y :: v' := List.exists_cons_of_ne_nil (by
            rintro rfl
            exact hv (List.suffix_nil.mp hsuffix))
          exact (List.suffix_cons_iff.mp hsuffix).resolve_left hv
        exact ih (fun hmem => hw (List.mem_of_mem_tail hmem)) t htail hhead

/-- A text woven around `</think>` that starts with a tag starts with a `<think>` only if it is one. -/
theorem not_prefix_thinkTag {w v q : List Char} (hw : IsTag w) (h : Woven endThinkTag w v) (hne : v ≠ thinkTag) :
    ¬ thinkTag <+: v ++ q := by
  intro hstart
  have hmem : '<' ∉ thinkTag.tail := by decide
  have hlength : thinkTag.length = 7 := by decide
  rw [endThinkTag_eq] at h
  rcases h.prefix_cases hmem hstart with ⟨hthink, hw'⟩ | ⟨rfl, hthink⟩
  · obtain ⟨d, w', rfl, -, hd⟩ := hw.cases
    have ht : 't' = d := by
      rw [thinkTag_eq] at hthink
      exact (List.cons_prefix_cons.mp (List.cons_prefix_cons.mp hthink).2).1
    rcases hd with ⟨-, hseven⟩ | ⟨hslash, -⟩
    · exact hw' (hthink.eq_of_length (by omega))
    · rw [hslash] at ht
      exact absurd ht (by decide)
  · obtain ⟨d, w', rfl, -, hd⟩ := hw.cases
    have hle := hthink.length_le
    exact hne (hthink.eq_of_length (by omega))

/-- The start tags between the letters are deleted, and what they stand in comes out. -/
theorem exists_deletes_thinkTag {w v v' : List Char} (hw : IsTag w) (hv : Woven endThinkTag w v) (hv' : Woven thinkTag v v')
    (hne : v' ≠ thinkTag) (p q : List Char) : ∃ r, Deletes thinkTag (p ++ (v' ++ q)) r ∧ v <:+: r := by
  have hmem : '<' ∉ thinkTag.tail := by decide
  have hlength : thinkTag.length = 7 := by decide
  obtain ⟨d, w', hweq, hwmem, hd⟩ := hw.cases
  have hfirst : ¬ thinkTag <+: v' ++ q := by
    intro hstart
    have hwoven := hv'
    rw [thinkTag_eq] at hwoven
    rcases hwoven.prefix_cases hmem hstart with ⟨hthink, hne'⟩ | ⟨rfl, hthink⟩
    · exact not_prefix_thinkTag hw hv hne'.symm (hthink.trans (List.prefix_append v []))
    · have hle := hthink.length_le
      have hle' := hv.length_le
      exact hne (hthink.eq_of_length (by omega))
  have htail : ∀ t, t <:+ v.tail → t ≠ [] → Apart t thinkTag := by
    intro t ht hnil
    by_cases hhead : t.head? = some '<'
    · obtain ⟨u, rfl⟩ := prefix_of_suffix hv (by rwa [hweq]) t ht hhead
      rw [thinkTag_eq, endThinkTag_eq]
      constructor <;> simp [List.cons_prefix_cons]
    · exact apart_of_head hnil hhead
  have hhead : v.head? = some '<' := by rw [hv.head?_eq, hweq, List.head?_cons]
  rw [thinkTag_eq] at hv' hfirst htail ⊢
  exact exists_deletes_of_woven (by decide) p q hv' hhead hfirst htail

/-- The end tags between the letters of a tag are deleted, and the tag comes out. -/
theorem exists_deletes_endThinkTag {w v : List Char} (hw : IsTag w) (hv : Woven endThinkTag w v) (hne : v ≠ endThinkTag)
    (p q : List Char) : ∃ r, Deletes endThinkTag (p ++ (v ++ q)) r ∧ w <:+: r := by
  have hmem : '<' ∉ endThinkTag.tail := by decide
  have hlength : endThinkTag.length = 8 := by decide
  obtain ⟨d, w', hweq, hwmem, hd⟩ := hw.cases
  have hfirst : ¬ endThinkTag <+: v ++ q := by
    intro hstart
    have hwoven := hv
    rw [endThinkTag_eq] at hwoven
    rcases hwoven.prefix_cases hmem hstart with ⟨hend, hne'⟩ | ⟨rfl, hend⟩
    · have hle := hend.length_le
      exact hne' (hend.eq_of_length (by omega))
    · have hslash : d = '/' := by
        rw [hweq, endThinkTag_eq] at hend
        exact (List.cons_prefix_cons.mp (List.cons_prefix_cons.mp hend).2).1
      have height : v.length = 8 := (hd.resolve_left fun hstart => hstart.1 hslash).2
      exact hne (hend.eq_of_length (by omega))
  have htail : ∀ t, t <:+ w.tail → t ≠ [] → Apart t endThinkTag := by
    intro t ht hnil
    rw [endThinkTag_eq]
    refine apart_of_head hnil fun hhead => hwmem ?_
    rw [hweq] at ht
    exact ht.subset (List.mem_of_mem_head? hhead)
  have hhead : w.head? = some '<' := by rw [hweq, List.head?_cons]
  rw [endThinkTag_eq] at hv hfirst htail ⊢
  exact exists_deletes_of_woven (by decide) p q hv hhead hfirst htail

/-- **What is left of a text has a tag** just if the text leaves one. -/
theorem exists_tag_iff (s : List Char) : (∃ w, IsTag w ∧ w <:+: Text.delete endThinkTag (Text.delete thinkTag s)) ↔
    LeavesTag s := by
  have hthink : thinkTag ≠ [] := by decide
  have hendThink : endThinkTag ≠ [] := by decide
  constructor
  · rintro ⟨w, hw, hinfix⟩
    obtain ⟨d, w', rfl, -, -⟩ := hw.cases
    obtain ⟨p, v, q, hs, hv, hq⟩ := (deletes_delete hendThink (Text.delete thinkTag s)).exists_woven
      (List.cons_ne_nil _ _) hinfix
    have hvne : v ≠ [] := by
      rintro rfl
      exact absurd hv.length_le (by simp)
    obtain ⟨p', v', q', rfl, hv', hq'⟩ := (deletes_delete hthink s).exists_woven hvne
      ⟨p, q, by rw [hs, List.append_assoc]⟩
    refine ⟨_, v, v', hw, hv, ?_, hv', ?_, p', q', by rw [List.append_assoc]⟩
    · rintro rfl
      exact hq (List.prefix_append _ _)
    · rintro rfl
      exact hq' (List.prefix_append _ _)
  · rintro ⟨w, v, v', hw, hv, hvne, hv', hvne', p, q, rfl⟩
    obtain ⟨r, hr, a, b, rfl⟩ := exists_deletes_thinkTag hw hv hv' hvne' p q
    obtain ⟨r', hr', hinfix⟩ := exists_deletes_endThinkTag hw hv hvne a b
    refine ⟨w, hw, ?_⟩
    rw [List.append_assoc] at hr
    rw [List.append_assoc, delete_eq hthink hr, delete_eq hendThink hr']
    exact hinfix

/-! ## What the client gets -/

theorem not_isSpace_of_ignoreCase {e x : Char} (he : e ∈ endThinkTag) (h : ignoreCase e x = true) :
    Text.isSpace x = false := by
  have hletters : (endThinkTag.all fun e => [e, e.toUpper, 'İ', 'ı', 'K'].all fun x => !Text.isSpace x) = true := by
    decide
  have hspace := List.all_eq_true.mp (List.all_eq_true.mp hletters e he) x
  rw [Bool.not_eq_true'] at hspace
  refine hspace ?_
  unfold ignoreCase at h
  split at h
  all_goals
    simp only [List.mem_cons, List.not_mem_nil, or_false, decide_eq_true_eq] at h ⊢
    tauto

theorem IsTag.trimmed {w : List Char} (h : IsTag w) : Trimmed Text.isSpace w := by
  obtain ⟨qs, hqs, hlength, hw⟩ := h
  have hletter : ∀ q ∈ qs, ∃ e ∈ endThinkTag, q = ignoreCase e := by
    have hopening : thinkBlock.opening = thinkTag.map ignoreCase := rfl
    have hclosing : thinkBlock.closing = endThinkTag.map ignoreCase := rfl
    have hsubset : (thinkTag.all (· ∈ endThinkTag)) = true := by decide
    intro q hq
    rcases List.mem_pair.mp hqs with rfl | rfl
    · rw [hopening] at hq
      obtain ⟨e, he, rfl⟩ := List.mem_map.mp hq
      exact ⟨e, of_decide_eq_true (List.all_eq_true.mp hsubset e he), rfl⟩
    · rw [hclosing] at hq
      obtain ⟨e, he, rfl⟩ := List.mem_map.mp hq
      exact ⟨e, he, rfl⟩
  have hall : ∀ x ∈ w, Text.isSpace x = false := by
    intro x hx
    by_contra hspace
    refine not_mem_of_startsWith (fun q hq => ?_) hlength hw hx
    obtain ⟨e, he, rfl⟩ := hletter q hq
    by_contra hmatch
    exact hspace (not_isSpace_of_ignoreCase he ((Bool.not_eq_false _).mp hmatch))
  exact ⟨fun x hx => hall x (List.mem_of_mem_head? hx), fun x hx => hall x (List.mem_of_mem_getLast? hx)⟩

/-- What is left of a text is free of tags just if the text outside of the closed blocks leaves none. -/
theorem tagFree_sanitizeText_iff (s : List Char) :
    TagFree (sanitizeText s) ↔ ¬ LeavesTag (outside (thinkBlock.marked [] s)) := by
  rw [← exists_tag_iff, tagFree_iff, ← Delimiters.removeBlocks_eq]
  push Not
  refine forall_congr' fun w => forall_congr' fun hw => not_congr ?_
  obtain ⟨d, w', hweq, -, -⟩ := hw.cases
  exact infix_trim_iff hw.trimmed (by rw [hweq]; simp)

theorem sanitize_qwen (s : List Char) :
    sanitizeAssistantText false (some "qwen") (.str s) = .ok (.str (sanitizeText s)) := rfl

/-- **When sanitising is complete and idempotent.** -/
theorem complete_iff (content : List Char) :
    (∃ text, sanitizeAssistantText false (some "qwen") (.str content) = .ok (.str text) ∧ TagFree text ∧
      sanitizeAssistantText false (some "qwen") (.str text) = .ok (.str text)) ↔
    ¬ LeavesTag (outside (thinkBlock.marked [] content)) := by
  rw [← tagFree_sanitizeText_iff]
  simp only [sanitize_qwen, Except.ok.injEq, Json.str.injEq, exists_eq_left']
  refine ⟨And.left, fun h => ⟨h, ?_⟩⟩
  rw [sanitizeText_of_tagFree h]
  exact trim_trim _

/-- **A tag in capital letters** is left. -/
theorem capital_tag_left : ¬ ∀ content : List Char,
    ∃ text, sanitizeAssistantText false (some "qwen") (.str content) = .ok (.str text) ∧ TagFree text ∧
      sanitizeAssistantText false (some "qwen") (.str text) = .ok (.str text) := by
  intro h
  obtain ⟨text, htext, hfree, -⟩ := h "<THINK>".toList
  have hkept : sanitizeText "<THINK>".toList = "<THINK>".toList := by decide +kernel
  rw [sanitize_qwen, hkept] at htext
  obtain rfl := Json.str.inj (Except.ok.inj htext)
  exact absurd (hfree _ (List.suffix_refl _)).1 (by decide)

end LlmStore.Inference
