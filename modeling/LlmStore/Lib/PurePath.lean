import LlmStore.Lib.FileTree
import LlmStore.Lib.Words

/-!
# Paths as text

What `pathlib` makes of the text of a path: a root, and the parts between slashes without those that are empty or a dot.
So many texts have one path, and `name_eq_self_iff` says which texts are their own last part.
-/

namespace LlmStore.Lib

/-! ## Paths -/

/-- `PurePosixPath`. -/
structure PurePath where
  root : List Char
  tail : List (List Char)
  deriving DecidableEq

namespace PurePath

/-- `posixpath.splitroot`; two slashes are a root of their own, three are not. -/
def splitroot : List Char → List Char × List Char
  | '/' :: '/' :: '/' :: rest => (['/'], '/' :: '/' :: rest)
  | '/' :: '/' :: rest => (['/', '/'], rest)
  | '/' :: rest => (['/'], rest)
  | s => ([], s)

/-- `PurePosixPath(s)`. -/
def parse (s : List Char) : PurePath where
  root := (splitroot s).1
  tail := (words (· == '/') (splitroot s).2).filter (· ≠ ".".toList)

/-- `p.is_absolute()`. -/
def isAbsolute (p : PurePath) : Prop := p.root ≠ []

instance (p : PurePath) : Decidable p.isAbsolute := by unfold isAbsolute; infer_instance

/-- `p.parts`. -/
def parts (p : PurePath) : List (List Char) := if p.root = [] then p.tail else p.root :: p.tail

/-- `p.name`. -/
def name (p : PurePath) : List Char := p.tail.getLast?.getD []

example : parse "//models/./a.gguf/".toList = ⟨"//".toList, ["models".toList, "a.gguf".toList]⟩ := by decide +kernel

variable {s : List Char}

theorem splitroot_of_head (h : s.head? ≠ some '/') : splitroot s = ([], s) := by
  unfold splitroot
  split
  · simp at h
  · simp at h
  · simp at h
  · rfl

/-- A text is absolute if it begins with a slash. -/
theorem isAbsolute_parse_iff (s : List Char) : (parse s).isAbsolute ↔ s.head? = some '/' := by
  by_cases h : s.head? = some '/'
  · obtain ⟨rest, rfl⟩ := List.head?_eq_some_iff.mp h
    unfold isAbsolute parse splitroot
    split <;> simp_all
  · rw [isAbsolute, parse, splitroot_of_head h]
    simp [h]

/-- The parts of a path that is not absolute. -/
theorem parts_parse (h : s.head? ≠ some '/') :
    (parse s).parts = (words (· == '/') s).filter (· ≠ ".".toList) := by
  rw [parts, parse, splitroot_of_head h, if_pos rfl]

/-- A part of a path is not empty, no dot, and has no slash. -/
theorem of_mem_tail {part : List Char} (h : part ∈ (parse s).tail) : part ≠ [] ∧ '/' ∉ part ∧ part ≠ ".".toList := by
  obtain ⟨hword, hdot⟩ := List.mem_filter.mp h
  obtain ⟨hne, hslash⟩ := isWord_of_mem_words hword
  refine ⟨hne, fun hmem => ?_, by simpa using hdot⟩
  simpa using hslash '/' hmem

/-- A text without a slash is one part. -/
theorem parse_of_plain (hne : s ≠ []) (hslash : '/' ∉ s) (hdot : s ≠ ".".toList) : parse s = ⟨[], [s]⟩ := by
  have hhead : s.head? ≠ some '/' := fun h => hslash (List.mem_of_head? h)
  have hword : IsWord (· == '/') s := by
    refine ⟨hne, fun c hc => ?_⟩
    rw [beq_eq_false_iff_ne]
    rintro rfl
    exact hslash hc
  rw [parse, splitroot_of_head hhead, words_word hword]
  simpa using hdot

/-- **A text is its own last part** if it has no slash and is no dot. -/
theorem name_eq_self_iff (s : List Char) : (parse s).name = s ↔ '/' ∉ s ∧ s ≠ ".".toList := by
  constructor
  · intro h
    cases hlast : (parse s).tail.getLast? with
    | none =>
      rw [name, hlast, Option.getD_none] at h
      subst h
      simp
    | some part =>
      rw [name, hlast, Option.getD_some] at h
      subst h
      exact (of_mem_tail (List.mem_of_getLast? hlast)).2
  · rintro ⟨hslash, hdot⟩
    by_cases hne : s = []
    · subst hne
      rfl
    · rw [parse_of_plain hne hslash hdot]
      rfl

end PurePath

/-! ## Names in a tree -/

/-- A name that a directory can have for something in it. -/
structure IsFileName (s : List Char) : Prop where
  ne_nil : s ≠ []
  slash : '/' ∉ s
  null : Char.ofNat 0 ∉ s
  ne_dot : s ≠ ".".toList
  ne_dots : s ≠ "..".toList

instance (s : List Char) : Decidable (IsFileName s) :=
  decidable_of_iff (s ≠ [] ∧ '/' ∉ s ∧ Char.ofNat 0 ∉ s ∧ s ≠ ".".toList ∧ s ≠ "..".toList)
    ⟨fun ⟨h₁, h₂, h₃, h₄, h₅⟩ => ⟨h₁, h₂, h₃, h₄, h₅⟩, fun ⟨h₁, h₂, h₃, h₄, h₅⟩ => ⟨h₁, h₂, h₃, h₄, h₅⟩⟩

/-- The names in a tree. -/
abbrev FileName := { s : List Char // IsFileName s }

open FileTree

/-- A part of a path as it is looked up; the system takes no null character. -/
def component (part : List Char) : Option (Component FileName) :=
  if part = "..".toList then some .up
  else if h : IsFileName part then some (.down ⟨part, h⟩)
  else none

/-- `p.parents`, for the names of an absolute path. -/
def parents (path : List FileName) : List (List FileName) := path.inits.dropLast.reverse

/-- `dir / s`, as it is looked up. -/
def joinpath (dir : List FileName) (s : List Char) : Option (List (Component FileName)) :=
  let path := PurePath.parse s
  (path.tail.mapM component).map fun parts => if path.isAbsolute then parts else dir.map .down ++ parts

variable {s : List Char}

theorem component_fileName (name : FileName) : component name.val = some (.down name) := by
  rw [component, if_neg name.property.ne_dots, dif_pos name.property]

/-- A text with a null character names nothing. -/
theorem component_null (hnull : Char.ofNat 0 ∈ s) : component s = none := by
  have hdots : s ≠ "..".toList := by
    rintro rfl
    revert hnull
    decide
  rw [component, if_neg hdots, dif_neg fun h => h.null hnull]

/-- The parents of a path are what it continues. -/
theorem mem_parents_iff {loc path : List FileName} : loc ∈ parents path ↔ loc <+: path ∧ loc ≠ path := by
  rw [parents, List.mem_reverse]
  induction path using List.reverseRecOn with
  | nil => simp
  | append_singleton path name _ =>
    have hinits : (path ++ [name]).inits = path.inits ++ [path ++ [name]] := by simp [List.inits_append]
    rw [hinits, List.dropLast_concat, List.mem_inits, List.prefix_concat_iff]
    constructor
    · intro h
      refine ⟨.inr h, fun heq => ?_⟩
      have hle := h.length_le
      rw [heq, List.length_append, List.length_singleton] at hle
      omega
    · rintro ⟨heq | h, hne⟩
      · exact absurd heq hne
      · exact h

/-- The path of a name in a directory. -/
theorem joinpath_fileName (dir : List FileName) (name : FileName) :
    joinpath dir name.val = some ((dir ++ [name]).map .down) := by
  have h := name.property
  rw [joinpath, PurePath.parse_of_plain h.ne_nil h.slash h.ne_dot]
  simp [component_fileName, PurePath.isAbsolute]

theorem joinpath_null (dir : List FileName) (hslash : '/' ∉ s) (hnull : Char.ofNat 0 ∈ s) : joinpath dir s = none := by
  have hdot : s ≠ ".".toList := by
    rintro rfl
    revert hnull
    decide
  rw [joinpath, PurePath.parse_of_plain (List.ne_nil_of_mem hnull) hslash hdot]
  simp [component_null hnull]

end LlmStore.Lib
