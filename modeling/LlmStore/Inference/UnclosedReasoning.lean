import LlmStore.Inference.LeftTags
import LlmStore.Inference.ReadableAnswer

/-!
# Reasoning that is cut off

A completion whose reasoning has no `</think>`, as the token limit leaves it. Blocks are removed where they are closed, and
of a `<think>` that is not closed the tag alone, so what follows it is shown: of two such completions the client gets the
same just if the same is left of their texts without the tags (`unclosed_iff`).
-/

namespace LlmStore.Inference

open Blocks LlmStore.Lib

/-! ## Completions -/

/-- A choice with a message, without the content of the message. -/
structure MessageFrame where
  choice : Hole "message"
  message : Hole "content"

/-- A choice of a completion: a fixed one, or one whose message has the content. -/
inductive Slot
  | fixed (item : Json)
  | frame (f : MessageFrame)

def Slot.fill (content : List Char) : Slot → Json
  | .fixed item => item
  | .frame f => f.choice.fill (f.message.fill (.str content))

/-- A completion with any number of choices, without the contents of messages. -/
structure Template where
  payload : Hole "choices"
  slots : List Slot

def Template.fill (t : Template) (content : List Char) : Json :=
  t.payload.fill (.arr (t.slots.map (Slot.fill content)))

/-- The choices can be normalised. -/
def Template.Readable (t : Template) : Prop :=
  ∀ slot ∈ t.slots, ChoiceReadable false (some "qwen") (slot.fill [])

/-- What `normalize_chat_completion` makes of the completion. -/
def Template.shown (t : Template) (content : List Char) :
    Except PyError (List (String × Json) × List (List (String × Json))) :=
  normalizeChatCompletion false (some "qwen") (t.fill content)

/-- There is no `</think>` in the text, in any letter case. -/
def Unclosed (s : List Char) : Prop := ∀ t, t <:+ s → startsWith thinkBlock.closing t = false

/-- The text before a tag and the one after it without its `<think>`s, and without the `</think>`s of both together. -/
def withoutTags (u s : List Char) : List Char := Text.delete endThinkTag (u ++ Text.delete thinkTag s)

/-! ## What is shown -/

namespace MessageFrame

variable (f : MessageFrame)

/-- The message with a text. -/
def shownMessage (text : List Char) : List (String × Json) :=
  let fields := f.message.before ++ f.message.after
  entry "role" fields ++ [("content", .str text)] ++ [] ++ entry "tool_calls" fields

theorem messageEntry_message (content : List Char) :
    messageEntry false (some "qwen") "message" (some (f.message.fill (.str content))) =
      .ok [("message", .obj (f.shownMessage (sanitizeText content)))] := by
  have htext : messageText (f.message.before ++ ("content", .str content) :: f.message.after) = some (.str content) := by
    rw [messageText, f.message.lookup_fill]
    rfl
  rw [messageEntry, Hole.fill, orObject_obj, normalizeMessage_obj, htext, contentEntry, sanitize_qwen]
  simp [Except.map, entry, f.message.lookup_fill_of_ne, shownMessage, reasoningEntry]

theorem normalizeChoice_fill (content : List Char) :
    normalizeChoice false (some "qwen") (Slot.fill content (.frame f)) =
      (messageEntry false (some "qwen") "delta" ((f.choice.before ++ f.choice.after).lookup "delta")).map fun delta =>
        choiceFields (f.choice.before ++ f.choice.after)
          [("message", .obj (f.shownMessage (sanitizeText content)))] delta := by
  rw [Slot.fill, Hole.fill, normalizeChoice_obj, f.choice.lookup_fill, f.messageEntry_message,
    f.choice.lookup_fill_of_ne (by decide)]
  cases messageEntry false (some "qwen") "delta" ((f.choice.before ++ f.choice.after).lookup "delta") with
  | error e => rfl
  | ok delta => simp [bind, Except.bind, pure, Except.pure, Except.map, choiceFields, entry, f.choice.lookup_fill_of_ne]

/-- The text of the message can be read off the choice. -/
theorem text_of_choice {fields delta delta' : List (String × Json)} {text text' : List Char}
    (h : choiceFields fields [("message", .obj (f.shownMessage text))] delta =
      choiceFields fields [("message", .obj (f.shownMessage text'))] delta') : text = text' := by
  have hmessage : ∀ (text : List Char) (delta : List (String × Json)),
      (choiceFields fields [("message", .obj (f.shownMessage text))] delta).lookup "message" =
        some (.obj (f.shownMessage text)) := fun text delta => by simp [choiceFields, List.lookup_cons]
  have hcontent : ∀ text : List Char, (f.shownMessage text).lookup "content" = some (.str text) := fun text => by
    simp [shownMessage, Hole.lookup_append, lookup_entry]
  have hobj := congrArg (List.lookup "message") h
  rw [hmessage, hmessage] at hobj
  have hstr := congrArg (List.lookup "content") (Json.obj.inj (Option.some.inj hobj))
  rw [hcontent, hcontent] at hstr
  exact Json.str.inj (Option.some.inj hstr)

end MessageFrame

theorem Slot.normalizeChoice_congr (slot : Slot) {content content' : List Char}
    (h : sanitizeText content = sanitizeText content') :
    normalizeChoice false (some "qwen") (slot.fill content) = normalizeChoice false (some "qwen") (slot.fill content') := by
  cases slot with
  | fixed item => rfl
  | frame f => rw [f.normalizeChoice_fill, f.normalizeChoice_fill, h]

/-- A choice that can be normalised with one content can be with any. -/
theorem Slot.returns_normalizeChoice_iff (slot : Slot) (content : List Char) :
    Returns (normalizeChoice false (some "qwen") (slot.fill content)) ↔
      ChoiceReadable false (some "qwen") (slot.fill []) := by
  rw [← Inference.returns_normalizeChoice_iff]
  cases slot with
  | fixed item => rfl
  | frame f => rw [f.normalizeChoice_fill, f.normalizeChoice_fill, returns_map_iff, returns_map_iff]

/-- A choice that cannot be normalised fails alike with any content. -/
theorem Slot.normalizeChoice_of_not_returns {slot : Slot} {content : List Char}
    (h : ¬ Returns (normalizeChoice false (some "qwen") (slot.fill content))) (content' : List Char) :
    normalizeChoice false (some "qwen") (slot.fill content) = normalizeChoice false (some "qwen") (slot.fill content') := by
  cases slot with
  | fixed item => rfl
  | frame f =>
    rw [f.normalizeChoice_fill] at h ⊢
    rw [f.normalizeChoice_fill]
    cases hdelta : messageEntry false (some "qwen") "delta" ((f.choice.before ++ f.choice.after).lookup "delta") with
    | error e => rfl
    | ok delta =>
      rw [hdelta] at h
      exact absurd (returns_ok _) h

theorem Slot.text_of_normalizeChoice {f : MessageFrame} {content content' : List Char} {choice : List (String × Json)}
    (h : normalizeChoice false (some "qwen") (Slot.fill content (.frame f)) = .ok choice)
    (h' : normalizeChoice false (some "qwen") (Slot.fill content' (.frame f)) = .ok choice) :
    sanitizeText content = sanitizeText content' := by
  rw [f.normalizeChoice_fill] at h h'
  obtain ⟨delta, -, rfl⟩ := map_eq_ok_iff.mp h
  obtain ⟨delta', -, h'⟩ := map_eq_ok_iff.mp h'
  exact (f.text_of_choice h').symm

theorem Template.shown_eq (t : Template) (content : List Char) : t.shown content =
    ((t.slots.map (Slot.fill content)).mapM (normalizeChoice false (some "qwen"))).map fun choices =>
      (completionFields (t.payload.before ++ t.payload.after) choices, choices) := by
  have hitems : items (t.payload.before ++ ("choices", .arr (t.slots.map (Slot.fill content))) :: t.payload.after) =
      .ok (t.slots.map (Slot.fill content)) := by
    rw [items, t.payload.lookup_fill]
    rfl
  have hfields : ∀ choices, completionFields
      (t.payload.before ++ ("choices", .arr (t.slots.map (Slot.fill content))) :: t.payload.after) choices =
        completionFields (t.payload.before ++ t.payload.after) choices := fun choices => by
    simp [completionFields, entry, t.payload.lookup_fill_of_ne]
  rw [Template.shown, Template.fill, Hole.fill, normalizeChatCompletion_obj, hitems]
  simp only [hfields, bind, Except.bind]
  cases (t.slots.map (Slot.fill content)).mapM (normalizeChoice false (some "qwen")) <;> rfl

/-- If two lists of choices are normalised to the same, each choice is. -/
theorem normalizeChoice_of_mapM {f g : Slot → Except PyError (List (String × Json))} {slots : List Slot}
    {choices : List (List (String × Json))} (hf : slots.mapM f = .ok choices) (hg : slots.mapM g = .ok choices) :
    ∀ slot ∈ slots, ∃ choice, f slot = .ok choice ∧ g slot = .ok choice := by
  induction slots generalizing choices with
  | nil => simp
  | cons slot slots ih =>
    rw [List.mapM_cons] at hf hg
    obtain ⟨choice, hchoice, hf⟩ := bind_eq_ok_iff.mp hf
    obtain ⟨rest, hrest, hf⟩ := bind_eq_ok_iff.mp hf
    obtain ⟨choice', hchoice', hg⟩ := bind_eq_ok_iff.mp hg
    obtain ⟨rest', hrest', hg⟩ := bind_eq_ok_iff.mp hg
    cases hf
    cases hg
    exact List.forall_mem_cons.mpr ⟨⟨choice, hchoice, hchoice'⟩, ih hrest hrest'⟩

theorem mapM_of_eq {f g : Slot → Except PyError (List (String × Json))} {slots : List Slot}
    (h : ∀ slot ∈ slots, f slot = g slot) : slots.mapM f = slots.mapM g := by
  induction slots with
  | nil => rfl
  | cons slot slots ih => rw [List.mapM_cons, List.mapM_cons, h slot (by simp), ih fun s hs => h s (by simp [hs])]

/-- Choices that fail alike make the completion fail alike. -/
theorem mapM_of_not_returns {f g : Slot → Except PyError (List (String × Json))} {slots : List Slot}
    (hreturns : ∀ slot ∈ slots, Returns (f slot) → Returns (g slot))
    (hfails : ∀ slot ∈ slots, ¬ Returns (f slot) → f slot = g slot) (h : ¬ Returns (slots.mapM f)) :
    slots.mapM f = slots.mapM g := by
  induction slots with
  | nil => rfl
  | cons slot slots ih =>
    rw [List.mapM_cons] at h ⊢
    rw [List.mapM_cons]
    by_cases hslot : Returns (f slot)
    · have hrest : ¬ Returns (slots.mapM f) := fun hrest => h (hslot.bind fun _ _ => hrest.bind fun _ _ => returns_ok _)
      have heq := ih (fun s hs => hreturns s (by simp [hs])) (fun s hs => hfails s (by simp [hs])) hrest
      obtain ⟨a, ha⟩ := hslot
      obtain ⟨b, hb⟩ := hreturns slot (by simp) ⟨a, ha⟩
      rw [ha, hb, ← heq]
      cases hm : slots.mapM f with
      | error e => rfl
      | ok choices => exact absurd ⟨choices, hm⟩ hrest
    · rw [← hfails slot (by simp) hslot]
      cases hs : f slot with
      | error e => rfl
      | ok choice => exact absurd ⟨choice, hs⟩ hslot

/-- Two contents are shown alike just if the sanitiser leaves the same of them, where they are shown at all. -/
theorem Template.shown_eq_iff (t : Template) (content content' : List Char) : t.shown content = t.shown content' ↔
    (t.Readable → (∃ f, .frame f ∈ t.slots) → sanitizeText content = sanitizeText content') := by
  have hreadable : ∀ content, Returns (t.slots.mapM (normalizeChoice false (some "qwen") ∘ Slot.fill content)) ↔
      t.Readable := fun content => by
    rw [returns_mapM_iff]
    exact forall₂_congr fun slot _ => slot.returns_normalizeChoice_iff content
  rw [t.shown_eq, t.shown_eq, List.mapM_map, List.mapM_map]
  constructor
  · intro h ht ⟨f, hf⟩
    obtain ⟨choices, hchoices⟩ := (hreadable content).mpr ht
    obtain ⟨choices', hchoices'⟩ := (hreadable content').mpr ht
    rw [hchoices, hchoices'] at h
    obtain rfl : choices = choices' := (Prod.mk.inj (Except.ok.inj h)).2
    obtain ⟨choice, hchoice, hchoice'⟩ := normalizeChoice_of_mapM hchoices hchoices' _ hf
    exact Slot.text_of_normalizeChoice hchoice hchoice'
  · intro h
    congr 1
    by_cases ht : t.Readable
    · refine mapM_of_eq fun slot hslot => ?_
      cases slot with
      | fixed item => rfl
      | frame f => exact Slot.normalizeChoice_congr _ (h ht ⟨f, hslot⟩)
    · refine mapM_of_not_returns (fun slot _ hslot => ?_) (fun slot _ hslot => ?_) (mt (hreadable content).mp ht)
      · exact (slot.returns_normalizeChoice_iff content').mpr ((slot.returns_normalizeChoice_iff content).mp hslot)
      · exact Slot.normalizeChoice_of_not_returns hslot content'

/-! ## The text of a cut-off answer -/

/-- A text that matches up to an element which no later one of the pattern matches has matched before it. -/
theorem startsWith_of_append {qs : List (Char → Bool)} {x : Char} (hqs : ∀ q ∈ qs, q x = false) :
    ∀ {a : List Char} (b : List Char), startsWith qs (a ++ x :: b) = true → startsWith qs a = true := by
  induction qs with
  | nil =>
    intro a b _
    cases a <;> rfl
  | cons q qs ih =>
    intro a b h
    cases a with
    | nil =>
      simp only [List.nil_append, startsWith, Bool.and_eq_true] at h
      rw [hqs q (by simp)] at h
      cases h.1
    | cons y a =>
      simp only [List.cons_append, startsWith, Bool.and_eq_true] at h ⊢
      exact ⟨h.1, ih (fun q hq => hqs q (by simp [hq])) b h.2⟩

/-- No block is removed from a text without a `</think>`. -/
theorem removeBlocks_of_unclosed {s : List Char} (h : Unclosed s) : thinkBlock.removeBlocks s = s := by
  refine thinkBlock.removeBlocks_eq_self fun t ht => ?_
  have hnone : thinkBlock.findClose (t.drop thinkBlock.opening.length) = none :=
    thinkBlock.findClose_eq_none fun r hr => h r ((hr.trans (List.drop_suffix _ _)).trans ht)
  rw [Delimiters.block, hnone]
  split <;> rfl

/-- Neither does the `<think>` after a text without tags close anything. -/
theorem unclosed_append {u s : List Char} (hu : TagFree u) (hs : Unclosed s) : Unclosed (u ++ (thinkTag ++ s)) := by
  have hclosing : thinkBlock.closing = ignoreCase '<' :: "/think>".toList.map ignoreCase := rfl
  have htails : ∀ a ∈ thinkTag.tails, a ≠ [] → ∀ s, startsWith thinkBlock.closing (a ++ s) = false := by
    simp [thinkTag_eq, hclosing, startsWith, ignoreCase]
  intro t ht
  rcases List.suffix_or_suffix_of_suffix ht (List.suffix_append u (thinkTag ++ s)) with hshort | ⟨a, rfl⟩
  · rcases List.suffix_or_suffix_of_suffix hshort (List.suffix_append thinkTag s) with hshort' | ⟨a, rfl⟩
    · exact hs t hshort'
    · obtain ⟨b, hb⟩ := hshort
      have ha : a <:+ thinkTag := ⟨b, List.append_cancel_right (by rw [← hb, List.append_assoc])⟩
      by_cases hnil : a = []
      · rw [hnil, List.nil_append]
        exact hs s (List.suffix_refl s)
      · exact htails a ((List.mem_tails a _).mpr ha) hnil s
  · obtain ⟨b, hb⟩ := ht
    have ha : a <:+ u := ⟨b, List.append_cancel_right (by rw [← hb, List.append_assoc])⟩
    cases a with
    | nil => exact htails thinkTag (by simp) (by decide) s
    | cons x a =>
      by_contra hstarts
      have hstarts := (Bool.not_eq_false _).mp hstarts
      rw [hclosing, thinkTag_eq] at hstarts
      simp only [List.cons_append, startsWith, Bool.and_eq_true] at hstarts
      -- A `</think>` has no other `<`, so it would be in the text before.
      have hrest := startsWith_of_append (by decide) _ hstarts.2
      have hfree := (hu _ ha).2
      rw [hclosing] at hfree
      simp only [startsWith, hstarts.1, hrest, Bool.and_self] at hfree
      cases hfree

/-- What the sanitiser leaves. -/
theorem sanitizeText_unclosed {u s : List Char} (hu : TagFree u) (hs : Unclosed s) :
    sanitizeText (u ++ thinkTag ++ s) = Text.strip (withoutTags u s) := by
  have hdelete : Text.delete thinkTag u = u :=
    delete_of_not_occurs fun t ht => not_isPrefixOf_tag (by decide : startsWith thinkBlock.opening thinkTag = true) (hu t ht).1
  have hdeletes : Deletes thinkTag u u := by
    have h := deletes_delete (by decide : thinkTag ≠ []) u
    rwa [hdelete] at h
  have hboth : Deletes thinkTag (u ++ (thinkTag ++ s)) (u ++ Text.delete thinkTag s) := by
    have htag := (deletes_delete (by decide : thinkTag ≠ []) s).word
    rw [thinkTag_eq] at hdeletes htag ⊢
    exact hdeletes.append (by decide) htag
  rw [sanitizeText, List.append_assoc, removeBlocks_of_unclosed (unclosed_append hu hs), delete_eq (by decide) hboth,
    withoutTags]

/-- A letter that is in no tag and no space is shown as often as it is there. -/
theorem count_strip_withoutTags (u s : List Char) :
    (Text.strip (withoutTags u s)).count 'z' = u.count 'z' + s.count 'z' := by
  rw [Text.count_strip (by decide), withoutTags, Text.count_delete (by decide) (by decide), List.count_append,
    Text.count_delete (by decide) (by decide)]

theorem unclosed_cons {s : List Char} (h : Unclosed s) : Unclosed ('z' :: s) := by
  intro t ht
  rcases List.suffix_cons_iff.mp ht with rfl | hsuffix
  · simp [startsWith, Delimiters.closing, thinkBlock, ignoreCase]
  · exact h t hsuffix

/-- **What follows a `<think>` that is not closed is shown**: of two texts the client gets the same just if the same is
left of them without the tags, and for each there is another of which it gets something else. -/
theorem unclosed_iff (t : Template) {u s₁ s₂ : List Char} (hu : TagFree u) (h₁ : Unclosed s₁) (h₂ : Unclosed s₂) :
    (t.shown (u ++ thinkTag ++ s₁) = t.shown (u ++ thinkTag ++ s₂) ↔
        (t.Readable → (∃ f, .frame f ∈ t.slots) → Text.strip (withoutTags u s₁) = Text.strip (withoutTags u s₂))) ∧
      (t.Readable → (∃ f, .frame f ∈ t.slots) →
        ∃ s, Unclosed s ∧ t.shown (u ++ thinkTag ++ s₁) ≠ t.shown (u ++ thinkTag ++ s)) := by
  have hiff : ∀ {s}, Unclosed s → (t.shown (u ++ thinkTag ++ s₁) = t.shown (u ++ thinkTag ++ s) ↔
      (t.Readable → (∃ f, .frame f ∈ t.slots) → Text.strip (withoutTags u s₁) = Text.strip (withoutTags u s))) :=
    fun {s} hs => by rw [Template.shown_eq_iff, sanitizeText_unclosed hu h₁, sanitizeText_unclosed hu hs]
  refine ⟨hiff h₂, fun ht hf => ⟨'z' :: s₁, unclosed_cons h₁, fun hshown => ?_⟩⟩
  have hcount := congrArg (List.count 'z') ((hiff (unclosed_cons h₁)).mp hshown ht hf)
  rw [count_strip_withoutTags, count_strip_withoutTags, List.count_cons_self] at hcount
  omega

/-- A completion with one choice. -/
def oneChoice : Template where
  payload := ⟨[], [], by simp⟩
  slots := [.frame ⟨⟨[], [], by simp⟩, ⟨[], [], by simp⟩⟩]

theorem oneChoice_readable : oneChoice.Readable := by
  simp [Template.Readable, oneChoice, ChoiceReadable, Slot.fill, Hole.fill, orObject, Json.truthy, MessageReadable,
    messageText, TextReadable, List.lookup_cons]

theorem tagFree_a : TagFree ['a'] := fun t ht =>
  (by decide : ∀ t ∈ List.tails ['a'], startsWith thinkBlock.opening t = false ∧ startsWith thinkBlock.closing t = false)
    t ((List.mem_tails t _).mpr ht)

theorem unclosed_nil : Unclosed [] := fun t ht => by
  rw [List.suffix_nil.mp ht]
  rfl

theorem unclosed_iff_shown : oneChoice.shown "a<think>".toList ≠ oneChoice.shown "a<think>z".toList := by
  obtain ⟨hiff, -⟩ := unclosed_iff oneChoice tagFree_a unclosed_nil (unclosed_cons unclosed_nil)
  refine fun hshown => absurd (hiff.mp hshown oneChoice_readable ⟨_, List.mem_singleton_self _⟩) ?_
  decide +kernel

/-- **Cut-off reasoning is shown.** -/
theorem cut_off_reasoning_shown : ¬ ∀ (t : Template) (u s₁ s₂ : List Char), TagFree u → Unclosed s₁ → Unclosed s₂ →
    t.shown (u ++ thinkTag ++ s₁) = t.shown (u ++ thinkTag ++ s₂) := by
  intro h
  have hshown := h oneChoice ['a'] [] ['z'] tagFree_a unclosed_nil (unclosed_cons unclosed_nil)
  have htext := (oneChoice.shown_eq_iff _ _).mp hshown oneChoice_readable ⟨_, List.mem_singleton_self _⟩
  exact absurd htext (by decide +kernel)

end LlmStore.Inference
