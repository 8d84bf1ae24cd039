import Mathlib.Data.List.Induction
import Mathlib.Data.List.Infix
import Mathlib.Data.Nat.Find
import LlmStore.Lib.Table

/-!
# Trees of files with symbolic links

A tree knows what is at each location, a list of names from the root. `walk` is how the system looks a path up: it goes
from directory to directory and through symbolic links, and gives up after `budget` links. `resolve` makes a path into
one without links and without `..`: what does not exist is passed, and a link that is met while it is itself resolved
is a loop.

A resolved path has no link on it (`resolve_linkFree`), so the system finds what it names there or nothing
(`walk_down_iff`); and what the system finds is where the path resolves to (`resolve_of_walk`). That resolving stops at
a depth is no bound: a greater one changes nothing (`resolveIn_depth`).
-/

namespace LlmStore.Lib.FileTree

universe u

variable {ν : Type u}

/-! ## Trees -/

/-- A part of a path. -/
inductive Component (ν : Type u) where
  | here
  | up
  | down (name : ν)
  deriving DecidableEq

/-- What is at a location. -/
inductive Node (ν : Type u) where
  | directory
  | regular
  /-- A device, a socket or a pipe. -/
  | other
  | link (absolute : Bool) (target : List (Component ν))
  deriving DecidableEq

/-- A tree: the root is a directory, and everything else is in one. -/
structure NodeTree (ν : Type u) [DecidableEq ν] where
  nodes : Table (List ν) (Node ν)
  root : nodes.lookup [] = some .directory
  parents : ∀ loc name node, nodes.lookup (loc ++ [name]) = some node → nodes.lookup loc = some .directory

/-- To see that everything is in a directory it is enough to look at what there is. -/
theorem parents_of_entries [DecidableEq ν] {nodes : Table (List ν) (Node ν)}
    (h : ∀ e ∈ nodes.entries, e.1 = [] ∨ nodes.lookup e.1.dropLast = some .directory) (loc : List ν) (name : ν)
    (node : Node ν) (hnode : nodes.lookup (loc ++ [name]) = some node) : nodes.lookup loc = some .directory := by
  rcases h ⟨loc ++ [name], node⟩ (Table.mem_entries_iff.mpr hnode) with hnil | hdir
  · simp at hnil
  · rwa [List.dropLast_concat] at hdir

/-- Why a path is not found. -/
inductive LookupError where
  | noEntry
  | notDirectory
  | tooManyLinks
  deriving DecidableEq

/-- Where the target of a link in `dir` begins. -/
def linkStart (absolute : Bool) (dir : List ν) : List ν := if absolute then [] else dir

variable [DecidableEq ν]

/-- How the way goes on at a part of a path. -/
inductive Move (ν : Type u) where
  | to (loc : List ν)
  /-- Through a link. -/
  | jump (start : List ν) (target : List (Component ν))
  deriving DecidableEq

section Lookup

variable (tree : NodeTree ν)

/-- One part of a path, looked up in `loc`. -/
def move (loc : List ν) (part : Component ν) : Except LookupError (Move ν) :=
  if tree.nodes.lookup loc = some .directory then
    match part with
    | .here => .ok (.to loc)
    | .up => .ok (.to loc.dropLast)
    | .down name =>
      match tree.nodes.lookup (loc ++ [name]) with
      | none => .error .noEntry
      | some (.link absolute target) => .ok (.jump (linkStart absolute loc) target)
      | some _ => .ok (.to (loc ++ [name]))
  else .error .notDirectory

/-- The way along a path from `loc`; `jump` says how it goes on from the start of a link. -/
def walkWith (jump : List ν → List (Component ν) → Except LookupError (List ν)) :
    List ν → List (Component ν) → Except LookupError (List ν)
  | loc, [] => .ok loc
  | loc, part :: rest =>
    match move tree loc part with
    | .error e => .error e
    | .ok (.to loc) => walkWith jump loc rest
    | .ok (.jump start target) => jump start (target ++ rest)

/-- The location that a path from `loc` leads to, through `budget` links at most. -/
def walk : ℕ → List ν → List (Component ν) → Except LookupError (List ν)
  | 0 => walkWith tree fun _ _ => .error .tooManyLinks
  | budget + 1 => walkWith tree (walk budget)

/-- The way along a path without links, from `path`; `descend` resolves the target of a link. -/
def resolveWith (descend : List ν → List ν → List (Component ν) → Option (List ν)) :
    List ν → List (Component ν) → Option (List ν)
  | path, [] => some path
  | path, .here :: rest => resolveWith descend path rest
  | path, .up :: rest => resolveWith descend path.dropLast rest
  | path, .down name :: rest =>
    match tree.nodes.lookup (path ++ [name]) with
    | some (.link absolute target) =>
      (descend (path ++ [name]) (linkStart absolute path) target).bind fun path => resolveWith descend path rest
    | _ => resolveWith descend (path ++ [name]) rest

/-- The path without links, while those in `active` are being resolved, to a depth of `depth`; `none` for a loop. -/
def resolveIn : ℕ → List (List ν) → List ν → List (Component ν) → Option (List ν)
  | 0, _ => resolveWith tree fun _ _ _ => none
  | depth + 1, active => resolveWith tree fun link start target =>
      if link ∈ active then none else resolveIn depth (link :: active) start target

/-- The path without links; a tree cannot nest more links than it has. -/
def resolve (path : List (Component ν)) : Option (List ν) := resolveIn tree tree.nodes.keys.length [] [] path

/-- No link is on the way to the location. -/
def LinkFree (path : List ν) : Prop :=
  ∀ prior, prior <+: path → ∀ absolute target, tree.nodes.lookup prior ≠ some (.link absolute target)

end Lookup

/-! ## Paths without links -/

section LinkFree

variable {tree : NodeTree ν} {path loc : List ν} {name : ν} {parts rest : List (Component ν)}

theorem linkFree_nil : LinkFree tree [] := by
  intro prior hprior absolute target
  rw [List.prefix_nil.mp hprior, tree.root]
  simp

theorem LinkFree.of_prefix (h : LinkFree tree path) (hloc : loc <+: path) : LinkFree tree loc := fun prior hprior =>
  h prior (hprior.trans hloc)

theorem LinkFree.dropLast (h : LinkFree tree path) : LinkFree tree path.dropLast := h.of_prefix path.dropLast_prefix

theorem LinkFree.concat (h : LinkFree tree path)
    (hname : ∀ absolute target, tree.nodes.lookup (path ++ [name]) ≠ some (.link absolute target)) :
    LinkFree tree (path ++ [name]) := by
  intro prior hprior
  rcases List.prefix_concat_iff.mp hprior with rfl | hprior
  · exact hname
  · exact h prior hprior

theorem LinkFree.linkStart (h : LinkFree tree path) (absolute : Bool) :
    LinkFree tree (linkStart absolute path) := by
  cases absolute
  · exact h
  · exact linkFree_nil

/-- A way that descends to paths without links ends on one. -/
theorem resolveWith_linkFree {descend : List ν → List ν → List (Component ν) → Option (List ν)}
    (hdescend : ∀ link start target p, LinkFree tree start → descend link start target = some p → LinkFree tree p)
    (hloc : LinkFree tree loc) (h : resolveWith tree descend loc parts = some path) : LinkFree tree path := by
  induction parts generalizing loc with
  | nil =>
    obtain rfl := Option.some.inj h
    exact hloc
  | cons part rest ih =>
    cases part with
    | here => exact ih hloc h
    | up => exact ih hloc.dropLast h
    | down name =>
      rw [resolveWith] at h
      split at h
      · rename_i absolute target hlink
        obtain ⟨p, hp, h⟩ := Option.bind_eq_some_iff.mp h
        exact ih (hdescend _ _ _ p (hloc.linkStart absolute) hp) h
      · rename_i hlink
        exact ih (hloc.concat fun absolute target he => hlink absolute target he) h

theorem resolveIn_linkFree {depth : ℕ} {active : List (List ν)} (hloc : LinkFree tree loc)
    (h : resolveIn tree depth active loc parts = some path) : LinkFree tree path := by
  induction depth generalizing active loc parts path with
  | zero =>
    refine resolveWith_linkFree (fun link start target p _ hp => ?_) hloc h
    cases hp
  | succ depth ih =>
    refine resolveWith_linkFree (fun link start target p hstart hp => ?_) hloc h
    split_ifs at hp
    exact ih hstart hp

/-- **A resolved path has no link on it.** -/
theorem resolve_linkFree (h : resolve tree parts = some path) : LinkFree tree path := resolveIn_linkFree linkFree_nil h

/-- Everything before something that exists is a directory. -/
theorem lookup_before {node : Node ν} (hnode : tree.nodes.lookup path = some node) (hloc : loc <+: path)
    (hne : loc ≠ path) : tree.nodes.lookup loc = some .directory := by
  induction path using List.reverseRecOn generalizing node with
  | nil => exact absurd (List.prefix_nil.mp hloc) hne
  | append_singleton path name ih =>
    have hparent := tree.parents path name node hnode
    rcases List.prefix_concat_iff.mp hloc with rfl | hloc
    · exact absurd rfl hne
    · by_cases heq : loc = path
      · rw [heq]
        exact hparent
      · exact ih hparent hloc heq

/-- The walk with its jumps. -/
theorem walk_eq (tree : NodeTree ν) (budget : ℕ) : ∃ jump, walk tree budget = walkWith tree jump := by
  cases budget with
  | zero => exact ⟨_, rfl⟩
  | succ budget => exact ⟨_, rfl⟩

/-- **Along names without links** the system finds what is there. -/
theorem walk_down_iff {budget : ℕ} {names found : List ν} (hfree : LinkFree tree (loc ++ names))
    (hloc : (tree.nodes.lookup loc).isSome) :
    walk tree budget loc (names.map .down) = .ok found ↔
      found = loc ++ names ∧ (tree.nodes.lookup (loc ++ names)).isSome := by
  obtain ⟨jump, hjump⟩ := walk_eq tree budget
  rw [hjump]
  induction names generalizing loc with
  | nil =>
    rw [List.map_nil, walkWith, List.append_nil, Except.ok.injEq, eq_comm]
    exact ⟨fun he => ⟨he, hloc⟩, fun h => h.1⟩
  | cons name names ih =>
    have hsplit : loc ++ name :: names = loc ++ [name] ++ names := by simp
    rw [hsplit] at hfree ⊢
    -- what is behind the name is there only if the name is
    have hback : (tree.nodes.lookup (loc ++ [name] ++ names)).isSome →
        (tree.nodes.lookup (loc ++ [name])).isSome ∧ tree.nodes.lookup loc = some .directory := by
      intro hsome
      obtain ⟨node, hnode⟩ := Option.isSome_iff_exists.mp hsome
      have hparent : ∀ node, tree.nodes.lookup (loc ++ [name]) = some node →
          tree.nodes.lookup loc = some .directory := tree.parents loc name
      by_cases heq : loc ++ [name] = loc ++ [name] ++ names
      · rw [← heq] at hnode
        exact ⟨Option.isSome_iff_exists.mpr ⟨node, hnode⟩, hparent node hnode⟩
      · have hdir := lookup_before hnode (List.prefix_append _ names) heq
        exact ⟨Option.isSome_iff_exists.mpr ⟨_, hdir⟩, hparent _ hdir⟩
    rw [List.map_cons, walkWith, move]
    by_cases hdir : tree.nodes.lookup loc = some .directory
    · rw [if_pos hdir]
      cases hname : tree.nodes.lookup (loc ++ [name]) with
      | none =>
        simp only [reduceCtorEq, false_iff, not_and]
        rintro - hsome
        rw [hname] at hback
        exact absurd (hback hsome).1 (by simp)
      | some node =>
        have hih := ih hfree (by rw [hname]; rfl)
        cases node with
        | link absolute target => exact absurd hname (hfree _ (List.prefix_append _ names) absolute target)
        | directory => exact hih
        | regular => exact hih
        | other => exact hih
    · rw [if_neg hdir]
      simp only [reduceCtorEq, false_iff, not_and]
      rintro - hsome
      exact hdir (hback hsome).2

end LinkFree

/-! ## What the system finds -/

section Walk

variable {tree : NodeTree ν} {loc found : List ν} {parts rest : List (Component ν)} {budget : ℕ}

/-- A link that is met. -/
theorem link_of_move {part : Component ν} {start : List ν} {target : List (Component ν)}
    (h : move tree loc part = .ok (.jump start target)) : ∃ name absolute, part = .down name ∧
      tree.nodes.lookup (loc ++ [name]) = some (.link absolute target) ∧ start = linkStart absolute loc := by
  unfold move at h
  split_ifs at h with hdir
  cases part with
  | here => cases h
  | up => cases h
  | down name =>
    cases hname : tree.nodes.lookup (loc ++ [name]) with
    | none => simp [hname] at h
    | some node =>
      cases node with
      | link absolute target' =>
        simp only [hname, Except.ok.injEq, Move.jump.injEq] at h
        exact ⟨name, absolute, rfl, by rw [← h.2]; exact hname, h.1.symm⟩
      | directory => simp [hname] at h
      | regular => simp [hname] at h
      | other => simp [hname] at h

/-- The first part of a way: it goes on from a location, or it jumps. -/
theorem walkWith_cons_iff {jump : List ν → List (Component ν) → Except LookupError (List ν)} {part : Component ν} :
    walkWith tree jump loc (part :: rest) = .ok found ↔
      (∃ loc', move tree loc part = .ok (.to loc') ∧ walkWith tree jump loc' rest = .ok found) ∨
      ∃ start target, move tree loc part = .ok (.jump start target) ∧ jump start (target ++ rest) = .ok found := by
  rw [walkWith]
  cases hmove : move tree loc part with
  | error e => simp
  | ok m => cases m <;> simp

theorem walk_cons_iff {part : Component ν} :
    walk tree budget loc (part :: rest) = .ok found ↔
      (∃ loc', move tree loc part = .ok (.to loc') ∧ walk tree budget loc' rest = .ok found) ∨
      ∃ less start target, budget = less + 1 ∧ move tree loc part = .ok (.jump start target) ∧
        walk tree less start (target ++ rest) = .ok found := by
  cases budget with
  | zero =>
    rw [walk, walkWith_cons_iff]
    simp
  | succ less =>
    rw [walk, walkWith_cons_iff]
    simp

theorem walkWith_mono {jump jump' : List ν → List (Component ν) → Except LookupError (List ν)}
    (hjump : ∀ start parts found, jump start parts = .ok found → jump' start parts = .ok found)
    (h : walkWith tree jump loc parts = .ok found) : walkWith tree jump' loc parts = .ok found := by
  induction parts generalizing loc with
  | nil => exact h
  | cons part rest ih =>
    rw [walkWith_cons_iff] at h ⊢
    rcases h with ⟨loc', hmove, h⟩ | ⟨start, target, hmove, h⟩
    · exact .inl ⟨loc', hmove, ih h⟩
    · exact .inr ⟨start, target, hmove, hjump _ _ found h⟩

theorem walk_succ (h : walk tree budget loc parts = .ok found) : walk tree (budget + 1) loc parts = .ok found := by
  induction budget generalizing loc parts found with
  | zero => exact walkWith_mono (fun start parts found hjump => by cases hjump) h
  | succ budget ih => exact walkWith_mono (fun start parts found hjump => ih hjump) h

/-- A larger budget finds no less. -/
theorem walk_mono {budget' : ℕ} (hle : budget ≤ budget') (h : walk tree budget loc parts = .ok found) :
    walk tree budget' loc parts = .ok found := by
  induction budget', hle using Nat.le_induction with
  | base => exact h
  | succ budget' _ ih => exact walk_succ ih

theorem walkWith_append {jump : List ν → List (Component ν) → Except LookupError (List ν)}
    (hjump : ∀ start parts rest found, jump start (parts ++ rest) = .ok found →
      ∃ mid, jump start parts = .ok mid ∧ walkWith tree jump mid rest = .ok found)
    (h : walkWith tree jump loc (parts ++ rest) = .ok found) :
    ∃ mid, walkWith tree jump loc parts = .ok mid ∧ walkWith tree jump mid rest = .ok found := by
  induction parts generalizing loc with
  | nil => exact ⟨loc, rfl, h⟩
  | cons part parts ih =>
    rw [List.cons_append, walkWith_cons_iff] at h
    rcases h with ⟨loc', hmove, h⟩ | ⟨start, target, hmove, h⟩
    · obtain ⟨mid, hmid, h⟩ := ih h
      exact ⟨mid, walkWith_cons_iff.mpr (.inl ⟨loc', hmove, hmid⟩), h⟩
    · rw [← List.append_assoc] at h
      obtain ⟨mid, hmid, h⟩ := hjump _ _ _ found h
      exact ⟨mid, walkWith_cons_iff.mpr (.inr ⟨start, target, hmove, hmid⟩), h⟩

/-- The way along a path goes by where a part of it leads to. -/
theorem walk_append (h : walk tree budget loc (parts ++ rest) = .ok found) :
    ∃ mid, walk tree budget loc parts = .ok mid ∧ walk tree budget mid rest = .ok found := by
  induction budget generalizing loc parts rest found with
  | zero => exact walkWith_append (fun start parts rest found hjump => by cases hjump) h
  | succ budget ih =>
    refine walkWith_append (fun start parts rest found hjump => ?_) h
    obtain ⟨mid, hmid, hrest⟩ := ih hjump
    exact ⟨mid, hmid, walk_succ hrest⟩

end Walk

/-! ## Resolving what the system finds -/

section Agreement

variable {tree : NodeTree ν} {loc found : List ν} {parts : List (Component ν)} {budget depth : ℕ}
  {active : List (List ν)}

/-- The links that are being resolved are links of the tree, each once, and the depth is enough for the others. -/
structure Nested (tree : NodeTree ν) (depth : ℕ) (active : List (List ν)) : Prop where
  nodup : active.Nodup
  there : ∀ link ∈ active, link ∈ tree.nodes.keys
  enough : tree.nodes.keys.length ≤ depth + active.length

theorem nested_nil (tree : NodeTree ν) : Nested tree tree.nodes.keys.length [] := ⟨List.nodup_nil, by simp, by simp⟩

/-- A link that is met for the first time leaves some depth. -/
theorem Nested.cons (h : Nested tree depth active) {link : List ν} {node : Node ν}
    (hnode : tree.nodes.lookup link = some node) (hnew : link ∉ active) :
    ∃ depth', depth = depth' + 1 ∧ Nested tree depth' (link :: active) := by
  have hthere : ∀ l ∈ link :: active, l ∈ tree.nodes.keys := by
    intro l hl
    rcases List.mem_cons.mp hl with rfl | hl
    · exact AList.mem_keys.mp (AList.lookup_isSome.mp (by rw [hnode]; rfl))
    · exact h.there l hl
  have hnodup : (link :: active).Nodup := List.nodup_cons.mpr ⟨hnew, h.nodup⟩
  have hle : (link :: active).length ≤ tree.nodes.keys.length := (List.subperm_of_subset hnodup hthere).length_le
  have henough := h.enough
  rw [List.length_cons] at hle
  refine ⟨depth - 1, by omega, hnodup, hthere, ?_⟩
  rw [List.length_cons]
  omega

/-- The targets of the links that are being resolved lead nowhere with less than `budget`. -/
def Pending (tree : NodeTree ν) (budget : ℕ) (active : List (List ν)) : Prop :=
  ∀ dir name absolute target, dir ++ [name] ∈ active →
    tree.nodes.lookup (dir ++ [name]) = some (.link absolute target) →
      ∀ less < budget, ∀ found, walk tree less (linkStart absolute dir) target ≠ .ok found

theorem resolveWith_of_not_link {descend : List ν → List ν → List (Component ν) → Option (List ν)} {name : ν}
    (h : ∀ absolute target, tree.nodes.lookup (loc ++ [name]) ≠ some (.link absolute target))
    (rest : List (Component ν)) :
    resolveWith tree descend loc (.down name :: rest) = resolveWith tree descend (loc ++ [name]) rest := by
  rw [resolveWith]
  split
  · rename_i absolute target hlink
    exact absurd hlink (h absolute target)
  · rfl

/-- Where the system goes on without a link, resolving goes on too. -/
theorem resolveWith_of_to {descend : List ν → List ν → List (Component ν) → Option (List ν)} {part : Component ν}
    {loc' : List ν} (h : move tree loc part = .ok (.to loc')) (rest : List (Component ν)) :
    resolveWith tree descend loc (part :: rest) = resolveWith tree descend loc' rest := by
  unfold move at h
  split_ifs at h
  cases part with
  | here =>
    cases h
    rfl
  | up =>
    cases h
    rfl
  | down name =>
    have hlink : ∀ absolute target, tree.nodes.lookup (loc ++ [name]) ≠ some (.link absolute target) := by
      intro absolute target hlink
      simp [hlink] at h
    rw [resolveWith_of_not_link hlink]
    cases hname : tree.nodes.lookup (loc ++ [name]) with
    | none => simp [hname] at h
    | some node =>
      have hloc : loc ++ [name] = loc' := by cases node <;> simp [hname] at h <;> exact h
      rw [hloc]

theorem resolveWith_of_link {descend : List ν → List ν → List (Component ν) → Option (List ν)} {name : ν}
    {absolute : Bool} {target : List (Component ν)}
    (h : tree.nodes.lookup (loc ++ [name]) = some (.link absolute target)) (rest : List (Component ν)) :
    resolveWith tree descend loc (.down name :: rest) =
      (descend (loc ++ [name]) (linkStart absolute loc) target).bind fun path =>
        resolveWith tree descend path rest := by
  rw [resolveWith, h]

/-- A link that is being resolved is a loop. -/
theorem resolveIn_of_mem {name : ν} {absolute : Bool} {target : List (Component ν)}
    (h : tree.nodes.lookup (loc ++ [name]) = some (.link absolute target)) (hmem : loc ++ [name] ∈ active)
    (rest : List (Component ν)) : resolveIn tree depth active loc (.down name :: rest) = none := by
  cases depth with
  | zero => rw [resolveIn, resolveWith_of_link h, Option.bind_none]
  | succ depth => rw [resolveIn, resolveWith_of_link h, if_pos hmem, Option.bind_none]

/-- Another link is resolved before what comes after it. -/
theorem resolveIn_of_notMem {name : ν} {absolute : Bool} {target : List (Component ν)}
    (h : tree.nodes.lookup (loc ++ [name]) = some (.link absolute target)) (hnew : loc ++ [name] ∉ active)
    (rest : List (Component ν)) :
    resolveIn tree (depth + 1) active loc (.down name :: rest) =
      (resolveIn tree depth ((loc ++ [name]) :: active) (linkStart absolute loc) target).bind fun path =>
        resolveIn tree (depth + 1) active path rest := by
  rw [resolveIn, resolveWith_of_link h, if_neg hnew]

theorem resolveIn_eq (tree : NodeTree ν) (depth : ℕ) (active : List (List ν)) :
    ∃ descend, resolveIn tree depth active = resolveWith tree descend := by
  cases depth with
  | zero => exact ⟨_, rfl⟩
  | succ depth => exact ⟨_, rfl⟩

/-- Resolving goes from part to part. -/
theorem resolveIn_append (loc : List ν) (parts rest : List (Component ν)) :
    resolveIn tree depth active loc (parts ++ rest) =
      (resolveIn tree depth active loc parts).bind fun path => resolveIn tree depth active path rest := by
  obtain ⟨descend, hdescend⟩ := resolveIn_eq tree depth active
  rw [hdescend]
  induction parts generalizing loc with
  | nil => rfl
  | cons part parts ih =>
    cases part with
    | here => exact ih loc
    | up => exact ih loc.dropLast
    | down name =>
      by_cases hlink : ∃ absolute target, tree.nodes.lookup (loc ++ [name]) = some (.link absolute target)
      · obtain ⟨absolute, target, hlink⟩ := hlink
        rw [List.cons_append, resolveWith_of_link hlink, resolveWith_of_link hlink, Option.bind_assoc]
        congr 1
        funext path
        exact ih path
      · have hnot : ∀ absolute target, tree.nodes.lookup (loc ++ [name]) ≠ some (.link absolute target) :=
          fun absolute target he => hlink ⟨absolute, target, he⟩
        rw [List.cons_append, resolveWith_of_not_link hnot, resolveWith_of_not_link hnot]
        exact ih (loc ++ [name])

/-- What does not exist is passed. -/
theorem resolve_concat_of_none {path : List ν} {name : ν} (h : resolve tree parts = some path)
    (hnone : tree.nodes.lookup (path ++ [name]) = none) :
    resolve tree (parts ++ [.down name]) = some (path ++ [name]) := by
  obtain ⟨descend, hdescend⟩ := resolveIn_eq tree tree.nodes.keys.length []
  rw [resolve] at h ⊢
  rw [resolveIn_append, h, Option.bind_some, hdescend, resolveWith_of_not_link (by simp [hnone])]
  rfl

/-- By strong induction on the budget: a link that is met leads on with less than the budget, so it is not one of those
that are being resolved; and with the least budget for its target it can join them. -/
theorem resolveIn_of_walk (hnested : Nested tree depth active) (hpending : Pending tree budget active)
    (h : walk tree budget loc parts = .ok found) : resolveIn tree depth active loc parts = some found := by
  induction budget using Nat.strong_induction_on generalizing depth active loc parts found with
  | _ budget ihb =>
    induction parts generalizing loc with
    | nil =>
      obtain ⟨jump, hjump⟩ := walk_eq tree budget
      obtain ⟨descend, hdescend⟩ := resolveIn_eq tree depth active
      rw [hjump] at h
      obtain rfl := Except.ok.inj h
      rw [hdescend]
      rfl
    | cons part rest ih =>
      rcases walk_cons_iff.mp h with ⟨loc', hmove, hrest⟩ | ⟨less, start, target, rfl, hmove, hrest⟩
      · obtain ⟨descend, hdescend⟩ := resolveIn_eq tree depth active
        rw [hdescend, resolveWith_of_to hmove, ← hdescend]
        exact ih hrest
      · obtain ⟨name, absolute, rfl, hlink, rfl⟩ := link_of_move hmove
        obtain ⟨mid, hmid, hrest⟩ := walk_append hrest
        have hnew : loc ++ [name] ∉ active := fun hmem =>
          hpending loc name absolute target hmem hlink less (Nat.lt_succ_self less) mid hmid
        obtain ⟨depth, rfl, hnested'⟩ := hnested.cons hlink hnew
        -- the least budget for the target
        have hex : ∃ least, walk tree least (linkStart absolute loc) target = .ok mid := ⟨less, hmid⟩
        have hle : Nat.find hex ≤ less := Nat.find_min' hex hmid
        have hpending' : Pending tree (Nat.find hex) ((loc ++ [name]) :: active) := by
          intro dir name' absolute' target' hmem hlink' b hb q hq
          rcases List.mem_cons.mp hmem with heq | hmem
          · obtain ⟨rfl, hsingle⟩ := List.append_inj' heq rfl
            obtain rfl := List.singleton_inj.mp hsingle
            obtain ⟨rfl, rfl⟩ : absolute' = absolute ∧ target' = target := by
              simpa using hlink'.symm.trans hlink
            have hsame := (walk_mono (hb.le.trans hle) hq).symm.trans hmid
            obtain rfl := Except.ok.inj hsame
            exact Nat.find_min hex hb hq
          · exact hpending dir name' absolute' target' hmem hlink' b (by omega) q hq
        have hdescend := ihb (Nat.find hex) (Nat.lt_succ_of_le hle) hnested' hpending' (Nat.find_spec hex)
        rw [resolveIn_of_notMem hlink hnew, hdescend]
        exact ih (walk_succ hrest)

/-- More depth than there are links resolves no more: a path without a resolution has a loop. -/
theorem resolveIn_depth {depth' : ℕ} (h : Nested tree depth active) (h' : Nested tree depth' active) :
    resolveIn tree depth active loc parts = resolveIn tree depth' active loc parts := by
  induction depth using Nat.strong_induction_on generalizing depth' active loc parts with
  | _ depth ihd =>
    obtain ⟨descend, hdescend⟩ := resolveIn_eq tree depth active
    obtain ⟨descend', hdescend'⟩ := resolveIn_eq tree depth' active
    induction parts generalizing loc with
    | nil =>
      rw [hdescend, hdescend']
      rfl
    | cons part rest ih =>
      cases part with
      | here =>
        rw [hdescend, hdescend'] at ih ⊢
        exact ih
      | up =>
        rw [hdescend, hdescend'] at ih ⊢
        exact ih
      | down name =>
        by_cases hlink : ∃ absolute target, tree.nodes.lookup (loc ++ [name]) = some (.link absolute target)
        · obtain ⟨absolute, target, hlink⟩ := hlink
          by_cases hmem : loc ++ [name] ∈ active
          · rw [resolveIn_of_mem hlink hmem, resolveIn_of_mem hlink hmem]
          · obtain ⟨less, rfl, hnested⟩ := h.cons hlink hmem
            obtain ⟨less', rfl, hnested'⟩ := h'.cons hlink hmem
            rw [resolveIn_of_notMem hlink hmem, resolveIn_of_notMem hlink hmem,
              ihd less (Nat.lt_succ_self less) hnested hnested']
            congr 1
            funext path
            exact ih
        · have hnot : ∀ absolute target, tree.nodes.lookup (loc ++ [name]) ≠ some (.link absolute target) :=
            fun absolute target he => hlink ⟨absolute, target, he⟩
          rw [hdescend, hdescend'] at ih ⊢
          rw [resolveWith_of_not_link hnot, resolveWith_of_not_link hnot]
          exact ih

/-- **A path resolves to where the system finds it.** -/
theorem resolve_of_walk (h : walk tree budget [] parts = .ok found) : resolve tree parts = some found :=
  resolveIn_of_walk (nested_nil tree) (fun _ _ _ _ hmem => absurd hmem List.not_mem_nil) h

/-- A location that is there, with no link on it. -/
structure Resolved (tree : NodeTree ν) (loc : List ν) : Prop where
  linkFree : LinkFree tree loc
  exists_node : (tree.nodes.lookup loc).isSome

/-- A location that is there resolves to itself. -/
theorem Resolved.resolve (h : Resolved tree loc) : resolve tree (loc.map .down) = some loc := by
  have hroot : (tree.nodes.lookup []).isSome := by rw [tree.root]; rfl
  have hwalk : walk tree 0 [] (loc.map .down) = .ok loc := (walk_down_iff h.linkFree hroot).mpr ⟨rfl, h.exists_node⟩
  exact resolve_of_walk hwalk

end Agreement

end LlmStore.Lib.FileTree
