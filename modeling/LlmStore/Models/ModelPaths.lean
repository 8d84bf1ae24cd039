import LlmStore.Lib.PurePath
import LlmStore.Models.ModelFiles

/-!
# Where model files are

`sanitize_model_filename` and `ensure_model_file_exists` on any tree of files with symbolic links, with `pathlib` as it
is documented. A name is accepted exactly if it is plain, `.gguf` for `llama.cpp` (`sanitizeModelFilename_eq_ok_iff`).
The path that is returned is resolved, so nothing on it leads elsewhere: it is that of a regular file in the resolved
directory (`ensureModelFileExists_eq_ok_iff`). `checkModelFile_eq_ok_iff` says the same of the handlers' check.
-/

namespace LlmStore.Models.ModelPaths

open LlmStore.Lib LlmStore.Lib.FileTree

/-! ## Names -/

/-- `sanitize_model_filename`; the error is the text of its `ValueError`. -/
def sanitizeModelFilename (filename provider : String) : Except String String :=
  let value := Text.strip filename.toList
  if value = [] then .error "model file is required"
  else
    let path := PurePath.parse value
    if path.isAbsolute ∨ path.parts.contains "..".toList then .error "model file must stay inside /models"
    else
      let normalized := path.name
      if normalized ≠ value then .error "model file must be a filename inside /models"
      else if provider = "llama.cpp" ∧ ¬ ".gguf".toList <:+ lower normalized then
        .error "llama.cpp models must use .gguf files"
      else .ok (String.ofList normalized)

/-- The text ends in `.gguf`, in any letter case. -/
def EndsInGguf (s : List Char) : Prop :=
  ∃ stem ending, s = stem ++ ending ∧ ending.map Char.toLower = ".gguf".toList

/-- The text is a name of a file, one for the provider. -/
structure PlainName (provider : String) (s : List Char) : Prop where
  ne_nil : s ≠ []
  slash : '/' ∉ s
  ne_dot : s ≠ ".".toList
  ne_dots : s ≠ "..".toList
  gguf : provider = "llama.cpp" → EndsInGguf s

/-! ## Files -/

/-- The files of a system, and how many links it follows on one way. -/
structure FileSystem where
  tree : NodeTree FileName
  symloopMax : ℕ

namespace FileSystem

variable (fs : FileSystem) (path : List FileName)

/-- `path.stat()`, or that it fails. -/
def stat : Option (Node FileName) :=
  match walk fs.tree fs.symloopMax [] (path.map .down) with
  | .ok loc => fs.tree.nodes.lookup loc
  | .error _ => none

/-- `path.exists()`. -/
def pathExists : Bool := (fs.stat path).isSome

/-- `path.is_dir()`. -/
def isDir : Bool := fs.stat path = some .directory

/-- `path.is_file()`. -/
def isFile : Bool := fs.stat path = some .regular

end FileSystem

theorem isFileName_models : IsFileName "models".toList := by decide

/-- The name of the directory. -/
def models : FileName := ⟨"models".toList, isFileName_models⟩

/-- `resolve_models_dir`. -/
def resolveModelsDir (fs : FileSystem) (projectRoot : List FileName) : List FileName :=
  ([[models], projectRoot ++ [models]].find? fun candidate => fs.pathExists candidate && fs.isDir candidate).getD
    [models]

/-- `str(path)`. -/
def pathText (path : List FileName) : String := String.ofList ('/' :: ['/'].intercalate (path.map (·.val)))

/-- What is raised. -/
inductive PathError where
  | valueError (text : String)
  | fileNotFoundError (text : String)
  /-- `RuntimeError`, for a loop of links. -/
  | runtimeError
  deriving DecidableEq

/-- `path.resolve()` as it is documented: a link that leads to itself is a `RuntimeError`, wherever it is on the way. -/
def resolvePath (fs : FileSystem) (path : List (Component FileName)) : Except PathError (List FileName) :=
  match resolve fs.tree path with
  | some resolved => .ok resolved
  | none => .error .runtimeError

/-- `(models_dir / normalized).resolve()`. -/
def candidateOf (fs : FileSystem) (modelsDir : List FileName) (normalized : String) :
    Except PathError (List FileName) :=
  match joinpath modelsDir normalized.toList with
  | some path => resolvePath fs path
  | none => .error (.valueError "embedded null byte")

/-- The condition under which the candidate is refused. -/
def isOutside (fs : FileSystem) (modelsDir candidate : List FileName) : Except PathError Bool :=
  if fs.pathExists modelsDir then do
    let dir ← resolvePath fs (modelsDir.map .down)
    return dir ∉ parents candidate ∧ candidate ≠ dir
  else return false

/-- `ensure_model_file_exists`. -/
def ensureModelFileExists (fs : FileSystem) (projectRoot : List FileName) (filename provider : String) :
    Except PathError (List FileName) := do
  let normalized ← (sanitizeModelFilename filename provider).mapError .valueError
  let modelsDir := resolveModelsDir fs projectRoot
  let candidate ← candidateOf fs modelsDir normalized
  if ← isOutside fs modelsDir candidate then
    .error (.valueError "model file must stay inside /models")
  else if ¬ fs.pathExists candidate ∨ ¬ fs.isFile candidate then
    .error (.fileNotFoundError ("model file not found in " ++ pathText modelsDir))
  else return candidate

/-- The file that `create_model` and `patch_model` take for the one they are given. -/
def checkModelFile (fs : FileSystem) (projectRoot : List FileName) (filename provider : String) :
    Except PathError String := do
  let modelFile ← (sanitizeModelFilename filename provider).mapError .valueError
  if provider = "llama.cpp" then
    let _ ← ensureModelFileExists fs projectRoot modelFile provider
  return modelFile

/-- The path resolves to itself, and the system finds a regular file there that is in the directory or below. -/
structure RegularInside (fs : FileSystem) (dir path : List FileName) : Prop where
  resolved : resolve fs.tree (path.map .down) = some path
  regular : fs.stat path = some .regular
  inside : dir <+: path ∧ dir ≠ path

/-! ## What is accepted -/

section Endings

variable {α β : Type} {f : α → List β} {l img w : List β} {t : β}

/-- A last element that is only ever all of an image ends a list with the image if it is the image. -/
theorem concat_isSuffix_append_iff (hne : img ≠ []) (hlast : t ∈ img → img = [t]) :
    w ++ [t] <:+ l ++ img ↔ img = [t] ∧ w <:+ l := by
  constructor
  · rintro ⟨pre, hpre⟩
    have ht : t ∈ img := by
      obtain ⟨front, u, hu⟩ := (List.eq_nil_or_concat img).resolve_left hne
      rw [hu, List.concat_eq_append, ← List.append_assoc, ← List.append_assoc] at hpre
      obtain rfl := List.singleton_inj.mp (List.append_inj' hpre rfl).2
      rw [hu]
      simp
    have himg := hlast ht
    rw [himg, ← List.append_assoc] at hpre
    exact ⟨himg, pre, (List.append_inj' hpre rfl).1⟩
  · rintro ⟨rfl, pre, rfl⟩
    exact ⟨pre, (List.append_assoc pre w [t]).symm⟩

/-- Elements that are only ever all of an image end a list of images exactly if their images end it. -/
theorem isSuffix_flatMap_iff (hne : ∀ x, f x ≠ []) (hw : ∀ t ∈ w, ∀ x, t ∈ f x → f x = [t]) (s : List α) :
    w <:+ s.flatMap f ↔ ∃ stem ending, s = stem ++ ending ∧ ending.map f = w.map ([·]) := by
  induction s using List.reverseRecOn generalizing w with
  | nil =>
    constructor
    · intro h
      obtain rfl := List.suffix_nil.mp h
      exact ⟨[], [], rfl, rfl⟩
    · rintro ⟨stem, ending, hs, hending⟩
      obtain ⟨-, rfl⟩ := List.append_eq_nil_iff.mp hs.symm
      obtain rfl := List.map_eq_nil_iff.mp hending.symm
      exact List.nil_suffix
  | append_singleton s x ih =>
    rcases List.eq_nil_or_concat w with rfl | ⟨w, t, rfl⟩
    · exact ⟨fun _ => ⟨s ++ [x], [], (List.append_nil _).symm, rfl⟩, fun _ => List.nil_suffix⟩
    · rw [List.concat_eq_append] at hw ⊢
      rw [List.flatMap_append, List.flatMap_singleton, concat_isSuffix_append_iff (hne x) (hw t (by simp) x),
        ih fun u hu => hw u (by simp [hu])]
      constructor
      · rintro ⟨hx, stem, ending, rfl, hending⟩
        exact ⟨stem, ending ++ [x], by simp, by simp [hending, hx]⟩
      · rintro ⟨stem, ending, hs, hending⟩
        rcases List.eq_nil_or_concat ending with rfl | ⟨ending, y, rfl⟩
        · simp at hending
        · rw [List.concat_eq_append, ← List.append_assoc] at hs
          obtain ⟨rfl, hxy⟩ := List.append_inj' hs rfl
          obtain rfl := List.singleton_inj.mp hxy
          rw [List.concat_eq_append, List.map_append, List.map_append] at hending
          obtain ⟨hending, hx⟩ := List.append_inj' hending rfl
          exact ⟨List.singleton_inj.mp hx, stem, ending, rfl, hending⟩

end Endings

/-- `lower` of one character. -/
def lowerChar (c : Char) : List Char :=
  if 'A' ≤ c ∧ c ≤ 'Z' then [Char.ofNat (c.toNat + 32)]
  else if c.toNat = 0x130 then ['i', Char.ofNat 0x307]
  else if c.toNat = 0x212A then ['k']
  else [c]

theorem lower_eq (s : List Char) : lower s = s.flatMap lowerChar := rfl

theorem lowerChar_ne_nil (c : Char) : lowerChar c ≠ [] := by
  unfold lowerChar
  split_ifs <;> simp

/-- The characters of the ending come from one character each. -/
theorem lowerChar_of_mem {t : Char} (ht : t ∈ ".gguf".toList) {c : Char} (h : t ∈ lowerChar c) :
    lowerChar c = [t] := by
  unfold lowerChar at h ⊢
  split_ifs at h ⊢ with hupper hdotted hkelvin
  · rw [List.mem_singleton.mp h]
  · exfalso
    rcases List.mem_pair.mp h with rfl | rfl
    · revert ht
      decide
    · revert ht
      decide
  · rw [List.mem_singleton.mp h]
  · rw [List.mem_singleton.mp h]

theorem toLower_of_upper {c : Char} (h : 'A' ≤ c ∧ c ≤ 'Z') : c.toLower = Char.ofNat (c.toNat + 32) := by
  have hval : c.val ≥ 'A'.val ∧ c.val ≤ 'Z'.val := h
  have hhigh : c.toNat ≤ 90 := h.2
  have hvalid : (c.toNat + 32).isValidChar := .inl (by omega)
  have hof : Char.ofNat (c.toNat + 32) = Char.ofNatAux (c.toNat + 32) hvalid := dif_pos hvalid
  have hlower : c.toLower.val = c.val + ('a'.val - 'A'.val) := congrArg Char.val (dif_pos hval)
  rw [hof]
  apply Char.ext
  rw [hlower]
  apply UInt32.toNat_inj.mp
  rw [UInt32.toNat_add]
  show (c.toNat + 32) % _ = c.toNat + 32
  omega

theorem toLower_of_not_upper {c : Char} (h : ¬ ('A' ≤ c ∧ c ≤ 'Z')) : c.toLower = c := dif_neg h

/-- Between the letters of the ending, `lower` is the change of case. -/
theorem lowerChar_eq_iff {t : Char} (ht : t ∈ ".gguf".toList) (c : Char) : lowerChar c = [t] ↔ c.toLower = t := by
  have hsmall : t.toNat < 0x130 := by
    have hall : (".gguf".toList.all fun t => t.toNat < 0x130) = true := by decide
    simpa using List.all_eq_true.mp hall t ht
  have hne : t ≠ 'k' := by
    rintro rfl
    revert ht
    decide
  by_cases hupper : 'A' ≤ c ∧ c ≤ 'Z'
  · rw [lowerChar, if_pos hupper, toLower_of_upper hupper, List.singleton_inj]
  · rw [lowerChar, if_neg hupper, toLower_of_not_upper hupper]
    split_ifs with hdotted hkelvin
    · simp only [List.cons.injEq, List.cons_ne_nil, and_false, false_iff]
      rintro rfl
      omega
    · rw [List.singleton_inj]
      refine ⟨fun h => absurd h.symm hne, ?_⟩
      rintro rfl
      omega
    · exact List.singleton_inj

theorem map_lowerChar_iff {w : List Char} (hw : ∀ t ∈ w, t ∈ ".gguf".toList) (s : List Char) :
    s.map lowerChar = w.map ([·]) ↔ s.map Char.toLower = w := by
  induction s generalizing w with
  | nil => cases w <;> simp
  | cons c s ih =>
    cases w with
    | nil => simp
    | cons t w =>
      rw [List.map_cons, List.map_cons, List.map_cons, List.cons.injEq, List.cons.injEq,
        lowerChar_eq_iff (hw t List.mem_cons_self), ih fun u hu => hw u (List.mem_cons_of_mem t hu)]

/-- The check of the ending. -/
theorem gguf_isSuffix_lower_iff (s : List Char) : ".gguf".toList <:+ lower s ↔ EndsInGguf s := by
  rw [lower_eq, isSuffix_flatMap_iff lowerChar_ne_nil fun t ht c => lowerChar_of_mem ht]
  unfold EndsInGguf
  simp only [map_lowerChar_iff fun t ht => ht]

/-! ## Names that are accepted -/

/-- **A name is accepted exactly if it is plain**, and then without the spaces around it. -/
theorem sanitizeModelFilename_eq_ok_iff {filename provider file : String} :
    sanitizeModelFilename filename provider = .ok file ↔
      PlainName provider (Text.strip filename.toList) ∧ file = String.ofList (Text.strip filename.toList) := by
  generalize hvalue : Text.strip filename.toList = value
  have hplain : PlainName provider value ↔ value ≠ [] ∧ ('/' ∉ value ∧ value ≠ ".".toList) ∧ value ≠ "..".toList ∧
      (provider = "llama.cpp" → EndsInGguf value) :=
    ⟨fun ⟨h₁, h₂, h₃, h₄, h₅⟩ => ⟨h₁, ⟨h₂, h₃⟩, h₄, h₅⟩, fun ⟨h₁, ⟨h₂, h₃⟩, h₄, h₅⟩ => ⟨h₁, h₂, h₃, h₄, h₅⟩⟩
  unfold sanitizeModelFilename
  rw [hplain, hvalue, ← gguf_isSuffix_lower_iff]
  dsimp only
  by_cases hne : value = []
  · simp [hne]
  rw [if_neg hne]
  by_cases hname : (PurePath.parse value).name = value
  · obtain ⟨hslash, hdot⟩ := (PurePath.name_eq_self_iff value).mp hname
    have habsolute : ¬ (⟨[], [value]⟩ : PurePath).isAbsolute := fun h => h rfl
    have hparts : (⟨[], [value]⟩ : PurePath).parts.contains "..".toList = true ↔ value = "..".toList := by
      rw [List.contains_iff_mem, PurePath.parts, if_pos rfl, List.mem_singleton, eq_comm]
    rw [hname, PurePath.parse_of_plain hne hslash hdot]
    simp only [habsolute, hparts, hne, hslash, hdot, false_or, ne_eq, not_true_eq_false, not_false_eq_true, if_false,
      true_and]
    by_cases hdots : value = "..".toList
    · simp [hdots]
    · by_cases hgguf : provider = "llama.cpp" ∧ ¬ ".gguf".toList <:+ lower value
      · rw [if_neg hdots, if_pos hgguf]
        simp only [reduceCtorEq, false_iff]
        exact fun h => hgguf.2 (h.1.2 hgguf.1)
      · rw [if_neg hdots, if_neg hgguf]
        push Not at hgguf
        simp only [Except.ok.injEq, hdots, not_false_eq_true, true_and]
        exact ⟨fun h => ⟨hgguf, h.symm⟩, fun h => h.2.symm⟩
  · have hnot : ¬ ('/' ∉ value ∧ value ≠ ".".toList) := fun h => hname ((PurePath.name_eq_self_iff value).mpr h)
    simp only [hnot, false_and, and_false, iff_false]
    split_ifs <;> simp

theorem text_eq_llamaCpp_iff (provider : Provider) :
    provider.text = "llama.cpp" ↔ some provider = some .llamaCpp := by
  cases provider <;> decide

/-- The check as the handlers' model has it, without paths. -/
theorem sanitizeModelFilename_eq (filename : String) (provider : Provider) :
    sanitizeModelFilename filename provider.text = Models.sanitizeModelFilename filename (some provider) := by
  generalize hvalue : Text.strip filename.toList = value
  have houtside : ((PurePath.parse value).isAbsolute ∨ (PurePath.parse value).parts.contains "..".toList) ↔
      (value.head? = some '/' ∨ "..".toList ∈ value.splitOn '/') := by
    rw [PurePath.isAbsolute_parse_iff, List.contains_iff_mem]
    refine or_congr_right' fun hhead => ?_
    rw [PurePath.parts_parse hhead, words, List.mem_filter, List.mem_filter, List.splitOn_eq_splitOnP]
    simp
  have hname : (PurePath.parse value).name ≠ value ↔ ('/' ∈ value ∨ value = ".".toList) := by
    rw [Ne, PurePath.name_eq_self_iff, not_and_or, not_not, not_not]
  have hllama := text_eq_llamaCpp_iff provider
  unfold sanitizeModelFilename Models.sanitizeModelFilename
  rw [hvalue]
  dsimp only
  by_cases hself : (PurePath.parse value).name = value
  · have hnot : ¬ ('/' ∈ value ∨ value = ".".toList) := fun h => hname.mpr h hself
    simp only [houtside, hllama, hself, hnot, ne_eq, not_true_eq_false, if_false]
  · simp only [houtside, hllama, ne_eq, hself, hname.mp hself, not_false_eq_true, if_true]

/-! ## Where files are -/

section Paths

variable {fs : FileSystem} {projectRoot modelsDir dir path candidate : List FileName} {filename provider : String}

/-- On a path without links the system finds what is there. -/
theorem stat_linkFree (h : LinkFree fs.tree path) : fs.stat path = fs.tree.nodes.lookup path := by
  have hwalk : ∀ found, walk fs.tree fs.symloopMax [] (path.map .down) = .ok found ↔
      found = path ∧ (fs.tree.nodes.lookup path).isSome := fun found =>
    walk_down_iff h (by rw [fs.tree.root]; rfl)
  unfold FileSystem.stat
  cases hfound : walk fs.tree fs.symloopMax [] (path.map .down) with
  | ok found => rw [((hwalk found).mp hfound).1]
  | error e =>
    cases hnode : fs.tree.nodes.lookup path with
    | none => rfl
    | some node =>
      have := (hwalk path).mpr ⟨rfl, by rw [hnode]; rfl⟩
      rw [hfound] at this
      cases this

/-- What exists resolves to where it is. -/
theorem exists_resolve (h : fs.pathExists path = true) : ∃ loc, resolve fs.tree (path.map .down) = some loc ∧
    fs.stat path = fs.tree.nodes.lookup loc := by
  unfold FileSystem.pathExists FileSystem.stat at h
  unfold FileSystem.stat
  cases hwalk : walk fs.tree fs.symloopMax [] (path.map .down) with
  | ok loc => exact ⟨loc, resolve_of_walk hwalk, rfl⟩
  | error e =>
    rw [hwalk] at h
    cases h

theorem resolvePath_eq_ok_iff {parts : List (Component FileName)} :
    resolvePath fs parts = .ok path ↔ resolve fs.tree parts = some path := by
  unfold resolvePath
  cases resolve fs.tree parts <;> simp

/-- The candidate of a name in the directory is what its path resolves to. -/
theorem candidateOf_fileName (name : FileName) :
    candidateOf fs modelsDir (String.ofList name.val) = .ok candidate ↔
      resolve fs.tree (modelsDir.map .down ++ [.down name]) = some candidate := by
  rw [candidateOf, String.toList_ofList, joinpath_fileName, List.map_append, resolvePath_eq_ok_iff]
  rfl

/-- An accepted text with a candidate is a name in the directory. -/
theorem fileName_of_candidate {value : List Char} (hplain : PlainName provider value)
    (h : candidateOf fs modelsDir (String.ofList value) = .ok candidate) : IsFileName value := by
  refine ⟨hplain.ne_nil, hplain.slash, fun hnull => ?_, hplain.ne_dot, hplain.ne_dots⟩
  rw [candidateOf, String.toList_ofList, joinpath_null modelsDir hplain.slash hnull] at h
  cases h

/-- A candidate is not refused if it is the directory or inside it. -/
theorem isOutside_eq_false_iff (hexists : fs.pathExists modelsDir = true)
    (hdir : resolve fs.tree (modelsDir.map .down) = some dir) :
    isOutside fs modelsDir candidate = .ok false ↔ dir ∈ parents candidate ∨ candidate = dir := by
  rw [isOutside, if_pos hexists, resolvePath_eq_ok_iff.mpr hdir]
  change Except.ok (decide _) = Except.ok false ↔ _
  rw [Except.ok.injEq, decide_eq_false_iff_not, not_and_or, not_not, not_not]

theorem mapError_eq_ok_iff {ε ε' α : Type} {f : ε → ε'} {x : Except ε α} {a : α} :
    x.mapError f = .ok a ↔ x = .ok a := by
  cases x <;> simp [Except.mapError]

/-- The steps of a call that returns. -/
theorem ensureModelFileExists_steps : ensureModelFileExists fs projectRoot filename provider = .ok path ↔
    ∃ normalized, sanitizeModelFilename filename provider = .ok normalized ∧
      candidateOf fs (resolveModelsDir fs projectRoot) normalized = .ok path ∧
      isOutside fs (resolveModelsDir fs projectRoot) path = .ok false ∧ fs.stat path = some .regular := by
  have hfile : ∀ candidate, ¬ (¬ fs.pathExists candidate = true ∨ ¬ fs.isFile candidate = true) ↔
      fs.stat candidate = some .regular := by
    intro candidate
    rw [FileSystem.pathExists, FileSystem.isFile, decide_eq_true_iff, not_or, not_not, not_not]
    refine ⟨fun h => h.2, fun h => ⟨?_, h⟩⟩
    rw [h]
    rfl
  unfold ensureModelFileExists
  simp only [bind_eq_ok_iff, mapError_eq_ok_iff]
  constructor
  · rintro ⟨normalized, hname, candidate, hcandidate, outside, houtside, h⟩
    split_ifs at h with hout hnot
    obtain rfl := Except.ok.inj h
    rw [Bool.not_eq_true] at hout
    subst hout
    exact ⟨normalized, hname, hcandidate, houtside, (hfile candidate).mp hnot⟩
  · rintro ⟨normalized, hname, hcandidate, houtside, hstat⟩
    refine ⟨normalized, hname, path, hcandidate, false, houtside, ?_⟩
    rw [if_neg Bool.false_ne_true, if_neg ((hfile path).mpr hstat)]
    rfl

/-- A name that resolves to a regular file does not resolve to the directory. -/
theorem ne_dir_of_regular {name : FileName} (hdir : resolve fs.tree (modelsDir.map .down) = some dir)
    (hname : resolve fs.tree (modelsDir.map .down ++ [.down name]) = some path)
    (hregular : fs.tree.nodes.lookup path = some .regular) : path ≠ dir := by
  rintro rfl
  -- nothing is in a regular file, so the name would have been passed
  have hnone : fs.tree.nodes.lookup (path ++ [name]) = none := by
    cases hnode : fs.tree.nodes.lookup (path ++ [name]) with
    | none => rfl
    | some node =>
      have hdirectory := fs.tree.parents path name node hnode
      rw [hregular] at hdirectory
      cases hdirectory
  have hpassed := hname.symm.trans (resolve_concat_of_none hdir hnone)
  simp at hpassed

/-- **Only files inside the directory**: while there is one, a path is returned exactly if a plain name in the directory
resolves to it and it is that of a regular file in the resolved directory or below. -/
theorem ensureModelFileExists_eq_ok_iff (hexists : fs.pathExists (resolveModelsDir fs projectRoot) = true)
    (hdir : resolve fs.tree ((resolveModelsDir fs projectRoot).map .down) = some dir) :
    ensureModelFileExists fs projectRoot filename provider = .ok path ↔
      ∃ name : FileName, name.val = Text.strip filename.toList ∧ PlainName provider name.val ∧
        resolve fs.tree ((resolveModelsDir fs projectRoot).map .down ++ [.down name]) = some path ∧
        RegularInside fs dir path := by
  rw [ensureModelFileExists_steps]
  constructor
  · rintro ⟨normalized, hname, hcandidate, houtside, hstat⟩
    obtain ⟨hplain, rfl⟩ := sanitizeModelFilename_eq_ok_iff.mp hname
    have hfileName := fileName_of_candidate hplain hcandidate
    have hresolve := (candidateOf_fileName ⟨_, hfileName⟩).mp hcandidate
    have hfree := resolve_linkFree hresolve
    have hregular : fs.tree.nodes.lookup path = some .regular := by rw [← stat_linkFree hfree, hstat]
    have hresolved : Resolved fs.tree path := ⟨hfree, by rw [hregular]; rfl⟩
    have hparent := ((isOutside_eq_false_iff hexists hdir).mp houtside).resolve_right
      (ne_dir_of_regular hdir hresolve hregular)
    exact ⟨⟨_, hfileName⟩, rfl, hplain, hresolve, hresolved.resolve, hstat, mem_parents_iff.mp hparent⟩
  · rintro ⟨name, hvalue, hplain, hresolve, hinside⟩
    refine ⟨String.ofList name.val, ?_, (candidateOf_fileName name).mpr hresolve, ?_, hinside.regular⟩
    · rw [sanitizeModelFilename_eq_ok_iff, ← hvalue]
      exact ⟨hplain, rfl⟩
    · exact (isOutside_eq_false_iff hexists hdir).mpr (.inl (mem_parents_iff.mpr hinside.inside))

/-! ## The check of the handlers -/

/-- **What the handlers accept**: a plain name, and for `llama.cpp` one under which there is a file. -/
theorem checkModelFile_eq_ok_iff {file : String} : checkModelFile fs projectRoot filename provider = .ok file ↔
    sanitizeModelFilename filename provider = .ok file ∧
      (provider = "llama.cpp" → ∃ path, ensureModelFileExists fs projectRoot file provider = .ok path) := by
  unfold checkModelFile
  rw [bind_eq_ok_iff]
  simp only [mapError_eq_ok_iff]
  by_cases hllama : provider = "llama.cpp"
  · simp only [hllama, if_true, true_imp_iff]
    constructor
    · rintro ⟨file', hname, h⟩
      obtain ⟨path, hpath, h⟩ := bind_eq_ok_iff.mp h
      obtain rfl := Except.ok.inj h
      exact ⟨hname, path, hpath⟩
    · rintro ⟨hname, path, hpath⟩
      exact ⟨file, hname, bind_eq_ok_iff.mpr ⟨path, hpath, rfl⟩⟩
  · simp only [hllama, if_false, false_imp_iff, and_true]
    constructor
    · rintro ⟨file', hname, h⟩
      obtain rfl := Except.ok.inj h
      exact hname
    · intro hname
      exact ⟨file, hname, rfl⟩

/-- The check of the requests' model, where it is told which names are there, is this one. -/
theorem checkModelFile_iff {env : Env} {files : String → FileCheck} (provider : Provider) {file : String}
    (hfiles : ∀ file, files file = .present ↔
      ∃ path, ensureModelFileExists fs projectRoot file "llama.cpp" = .ok path) :
    Models.checkModelFile env files filename (some provider) = .ok file ↔
      checkModelFile fs projectRoot filename provider.text = .ok file := by
  have hllama := text_eq_llamaCpp_iff provider
  rw [checkModelFile_eq_ok_iff, sanitizeModelFilename_eq, Models.checkModelFile, hllama]
  cases hname : Models.sanitizeModelFilename filename (some provider) with
  | error text => simp [refuse]
  | ok file' =>
    dsimp only
    by_cases hprovider : some provider = some .llamaCpp
    · rw [if_pos hprovider, hllama.mpr hprovider]
      simp only [hprovider, true_imp_iff, Except.ok.injEq]
      constructor
      · intro h
        cases hfile : files file' with
        | present =>
          rw [hfile] at h
          obtain rfl := Except.ok.inj h
          exact ⟨rfl, (hfiles file').mp hfile⟩
        | missing =>
          rw [hfile] at h
          cases h
        | outside =>
          rw [hfile] at h
          cases h
      · rintro ⟨rfl, hpath⟩
        rw [(hfiles file').mpr hpath]
    · rw [if_neg hprovider]
      simp [hprovider]

/-- The file of a model of `llama.cpp` is inside the directory. -/
theorem checkModelFile_inside {file : String} (hexists : fs.pathExists (resolveModelsDir fs projectRoot) = true)
    (h : checkModelFile fs projectRoot filename "llama.cpp" = .ok file) :
    ∃ dir path, resolve fs.tree ((resolveModelsDir fs projectRoot).map .down) = some dir ∧
      ensureModelFileExists fs projectRoot file "llama.cpp" = .ok path ∧ RegularInside fs dir path := by
  obtain ⟨path, hpath⟩ := (checkModelFile_eq_ok_iff.mp h).2 rfl
  obtain ⟨dir, hdir, -⟩ := exists_resolve hexists
  obtain ⟨name, -, -, -, hinside⟩ := (ensureModelFileExists_eq_ok_iff hexists hdir).mp hpath
  exact ⟨dir, path, hdir, hpath, hinside⟩

end Paths

/-! ## All calls -/

/-- **Model files stay in the models directory.** A name is accepted exactly if it is plain; and while there is a models
directory, only paths of regular files are returned that resolve to a place in the resolved directory or below. -/
theorem model_files_contained :
    (∀ filename provider file, sanitizeModelFilename filename provider = .ok file ↔
      PlainName provider (Text.strip filename.toList) ∧ file = String.ofList (Text.strip filename.toList)) ∧
    ∀ fs projectRoot filename provider path, fs.pathExists (resolveModelsDir fs projectRoot) = true →
      ensureModelFileExists fs projectRoot filename provider = .ok path →
        ∃ dir, resolve fs.tree ((resolveModelsDir fs projectRoot).map .down) = some dir ∧
          RegularInside fs dir path := by
  refine ⟨fun filename provider file => sanitizeModelFilename_eq_ok_iff, ?_⟩
  intro fs projectRoot filename provider path hexists h
  obtain ⟨dir, hdir, -⟩ := exists_resolve hexists
  obtain ⟨name, -, -, -, hinside⟩ := (ensureModelFileExists_eq_ok_iff hexists hdir).mp h
  exact ⟨dir, hdir, hinside⟩

theorem isFileName_data : IsFileName "data".toList := by decide

theorem isFileName_a : IsFileName "a.gguf".toList := by decide

theorem isFileName_b : IsFileName "b.GGUF".toList := by decide

def data : FileName := ⟨"data".toList, isFileName_data⟩

def aGguf : FileName := ⟨"a.gguf".toList, isFileName_a⟩

def bGguf : FileName := ⟨"b.GGUF".toList, isFileName_b⟩

/-- The models are in `/data/models`; `/models` is a link to it, and `a.gguf` one to `b.GGUF`. -/
def linkedNodes : Table (List FileName) (Node FileName) :=
  ((((((∅ : Table (List FileName) (Node FileName)).insert [data, models, bGguf] .regular).insert
    [data, models, aGguf] (.link false [.up, .down models, .here, .down bGguf])).insert
    [data, models] .directory).insert [data] .directory).insert
    [models] (.link true [.down data, .down models])).insert [] .directory

theorem linkedNodes_root : linkedNodes.lookup [] = some .directory := by decide +kernel

theorem linkedNodes_parents : ∀ e ∈ linkedNodes.entries,
    e.1 = [] ∨ linkedNodes.lookup e.1.dropLast = some .directory := by decide +kernel

def linked : FileSystem where
  tree := { nodes := linkedNodes, root := linkedNodes_root, parents := parents_of_entries linkedNodes_parents }
  symloopMax := 40

theorem model_files_contained_linked :
    ensureModelFileExists linked [] " a.gguf" "llama.cpp" = .ok [data, models, bGguf] ∧
      ∃ dir, resolve linked.tree ((resolveModelsDir linked []).map .down) = some dir ∧
        RegularInside linked dir [data, models, bGguf] := by
  have hensure : ensureModelFileExists linked [] " a.gguf" "llama.cpp" = .ok [data, models, bGguf] := by decide +kernel
  exact ⟨hensure, model_files_contained.2 linked [] _ _ _ (by decide +kernel) hensure⟩

end LlmStore.Models.ModelPaths
