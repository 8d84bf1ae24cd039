import LlmStore.Core.JsonText

/-!
# Equal JSON values

Two values are the same (`Same`) if they differ at most in the order of the keys of their objects; an integer and a float
are not the same, nor are the two zeros. The text with sorted keys is canonical: two values have one exactly if they are
the same (`dumps_canonical_iff`). Values with two texts can be equal all the same, where numbers are compared by their
values (`Equal`).
-/

namespace LlmStore.JsonText

/-- The values are the same but for the order of the keys of an object. -/
inductive Same : Json → Json → Prop
  | null : Same .null .null
  | bool (b : Bool) : Same (.bool b) (.bool b)
  | int (n : ℤ) : Same (.int n) (.int n)
  | float (x : PyFloat) : Same (.float x) (.float x)
  | str (s : List Char) : Same (.str s) (.str s)
  | arr {items items' : List Json} : List.Forall₂ Same items items' → Same (.arr items) (.arr items')
  | obj {fields fields' : List (String × Json)} :
    (∀ key, Option.Rel Same (fields.lookup key) (fields'.lookup key)) → Same (.obj fields) (.obj fields')

/-- The value of a number; a boolean is none. -/
def numeric? : Json → Option ℚ
  | .int n => some n
  | .float x => x.value?
  | _ => none

/-- Equality of JSON values, with numbers compared by their values. -/
inductive Equal : Json → Json → Prop
  | null : Equal .null .null
  | bool (b : Bool) : Equal (.bool b) (.bool b)
  | number {v w : Json} {q : ℚ} : numeric? v = some q → numeric? w = some q → Equal v w
  | str (s : List Char) : Equal (.str s) (.str s)
  | arr {items items' : List Json} : List.Forall₂ Equal items items' → Equal (.arr items) (.arr items')
  | obj {fields fields' : List (String × Json)} :
    (∀ key, Option.Rel Equal (fields.lookup key) (fields'.lookup key)) → Equal (.obj fields) (.obj fields')

mutual

/-- The value with the keys of every object in order. -/
def sorted : Json → Json
  | .null => .null
  | .bool b => .bool b
  | .int n => .int n
  | .float x => .float x
  | .str s => .str s
  | .arr items => .arr (sortedItems items)
  | .obj fields => .obj (sortFields (sortedFields fields))

def sortedItems : List Json → List Json
  | [] => []
  | item :: items => sorted item :: sortedItems items

def sortedFields : List (String × Json) → List (String × Json)
  | [] => []
  | (key, value) :: fields => (key, sorted value) :: sortedFields fields

end

theorem sortedItems_eq (items : List Json) : sortedItems items = items.map sorted := by
  induction items with
  | nil => rfl
  | cons item items ih => rw [sortedItems, ih, List.map_cons]

/-- A function of the values of an object. -/
def onValues {α β : Type*} (f : α → β) (field : String × α) : String × β := (field.1, f field.2)

theorem sortedFields_eq (fields : List (String × Json)) : sortedFields fields = fields.map (onValues sorted) := by
  induction fields with
  | nil => rfl
  | cons field fields ih => rw [sortedFields, ih, List.map_cons]; rfl

/-! ## Sorting fields -/

section Sorting

variable {α β : Type*}

theorem sortFields_perm (fields : List (String × α)) : (sortFields fields).Perm fields := List.perm_insertionSort _ _

theorem map_sortFields (f : α → β) (fields : List (String × α)) :
    sortFields (fields.map (onValues f)) = (sortFields fields).map (onValues f) :=
  (List.map_insertionSort _ _ (onValues f) fields fun _ _ _ _ => Iff.rfl).symm

theorem keys_onValues (f : α → β) (fields : List (String × α)) :
    (fields.map (onValues f)).map Prod.fst = fields.map Prod.fst := by
  rw [List.map_map]
  rfl

/-- Sorting forgets the order, and nothing else: the keys are distinct. -/
theorem sortFields_eq_iff {fields fields' : List (String × α)} (h : (fields.map Prod.fst).Nodup) :
    sortFields fields = sortFields fields' ↔ fields.Perm fields' := by
  constructor
  · intro heq
    exact (sortFields_perm fields).symm.trans (heq ▸ sortFields_perm fields')
  · intro hperm
    have hsort : (sortFields fields).Perm (sortFields fields') :=
      (sortFields_perm fields).trans (hperm.trans (sortFields_perm fields').symm)
    have htrans : IsTrans (String × α) fun a b => a.1 ≤ b.1 := ⟨fun _ _ _ hab hbc => le_trans hab hbc⟩
    have htotal : Std.Total (α := String × α) fun a b => a.1 ≤ b.1 := ⟨fun a b => le_total a.1 b.1⟩
    apply List.Perm.eq_of_pairwise _ (List.pairwise_insertionSort _ fields) (List.pairwise_insertionSort _ fields') hsort
    intro a b ha hb hab hba
    have ha' : a ∈ fields := (sortFields_perm fields).mem_iff.mp ha
    have hb' : b ∈ fields := hperm.mem_iff.mpr ((sortFields_perm fields').mem_iff.mp hb)
    exact List.inj_on_of_nodup_map h ha' hb' (le_antisymm hab hba)

theorem lookup_eq_some_iff {fields : List (String × α)} (h : (fields.map Prod.fst).Nodup) (key : String) (value : α) :
    fields.lookup key = some value ↔ (key, value) ∈ fields := by
  induction fields with
  | nil => simp
  | cons field fields ih =>
    obtain ⟨k, v⟩ := field
    rw [List.map_cons, List.nodup_cons] at h
    rw [List.lookup_cons, List.mem_cons, Prod.mk.injEq]
    by_cases hk : key = k
    · subst hk
      have hnot : (key, value) ∉ fields := fun hm => h.1 (List.mem_map.mpr ⟨_, hm, rfl⟩)
      simp [hnot, eq_comm]
    · have hne : (key == k) = false := by simpa using hk
      simp [hne, hk, ih h.2]

/-- With distinct keys, a permutation is what lookups cannot tell apart. -/
theorem perm_iff_lookup {fields fields' : List (String × α)} (h : (fields.map Prod.fst).Nodup)
    (h' : (fields'.map Prod.fst).Nodup) : fields.Perm fields' ↔ ∀ key, fields.lookup key = fields'.lookup key := by
  rw [List.perm_ext_iff_of_nodup h.of_map h'.of_map]
  constructor
  · intro hm key
    apply Option.ext
    intro value
    rw [lookup_eq_some_iff h, lookup_eq_some_iff h', hm]
  · rintro hl ⟨key, value⟩
    rw [← lookup_eq_some_iff h, ← lookup_eq_some_iff h', hl]

theorem lookup_onValues (f : α → β) (fields : List (String × α)) (key : String) :
    (fields.map (onValues f)).lookup key = (fields.lookup key).map f := by
  induction fields with
  | nil => rfl
  | cons field fields ih =>
    obtain ⟨k, v⟩ := field
    rw [List.map_cons, List.lookup_cons, List.lookup_cons, ih]
    show (match key == k with | true => some (f v) | false => _) = _
    cases key == k <;> rfl

end Sorting

/-! ## The canonical text -/

theorem Proper.sorted {v : Json} (hv : Proper v) : Proper (sorted v) := by
  induction hv with
  | null => exact .null
  | bool b => exact .bool b
  | int n => exact .int n
  | float hx => exact .float hx
  | str s => exact .str s
  | arr _ ih =>
    rw [JsonText.sorted, sortedItems_eq]
    refine .arr fun item hm => ?_
    obtain ⟨item, hmem, rfl⟩ := List.mem_map.mp hm
    exact ih item hmem
  | obj hkeys _ ih =>
    rw [JsonText.sorted, sortedFields_eq]
    refine .obj ?_ fun field hm => ?_
    · rw [((sortFields_perm _).map Prod.fst).nodup_iff, keys_onValues]
      exact hkeys
    · obtain ⟨field, hmem, rfl⟩ := List.mem_map.mp ((sortFields_perm _).mem_iff.mp hm)
      exact ih field hmem

theorem forall₂_iff_map {items items' : List Json}
    (h : ∀ item ∈ items, ∀ item' ∈ items', sorted item = sorted item' ↔ Same item item') :
    items.map sorted = items'.map sorted ↔ List.Forall₂ Same items items' := by
  induction items generalizing items' with
  | nil => cases items' <;> simp
  | cons item items ih =>
    cases items' with
    | nil => simp
    | cons item' items' =>
      rw [List.map_cons, List.map_cons, List.cons.injEq, List.forall₂_cons, h item (by simp) item' (by simp),
        ih fun v hv w hw => h v (by simp [hv]) w (by simp [hw])]

/-- Sorted values are equal exactly if the values are. -/
theorem sorted_eq_iff {v : Json} (hv : Proper v) : ∀ {w : Json}, Proper w → (sorted v = sorted w ↔ Same v w) := by
  induction hv with
  | null => exact fun {w} _ => ⟨fun h => by cases w <;> cases h; exact .null, fun h => by cases h; rfl⟩
  | bool b => exact fun {w} _ => ⟨fun h => by cases w <;> cases h; exact .bool b, fun h => by cases h; rfl⟩
  | int n => exact fun {w} _ => ⟨fun h => by cases w <;> cases h; exact .int n, fun h => by cases h; rfl⟩
  | @float x _ => exact fun {w} _ => ⟨fun h => by cases w <;> cases h; exact .float x, fun h => by cases h; rfl⟩
  | str s => exact fun {w} _ => ⟨fun h => by cases w <;> cases h; exact .str s, fun h => by cases h; rfl⟩
  | @arr items _ ih =>
    intro w hw
    cases hw with
    | @arr items' hitems' =>
      have hiff := forall₂_iff_map fun item hm item' hm' => ih item hm (hitems' item' hm')
      rw [sorted, sorted, sortedItems_eq, sortedItems_eq, Json.arr.injEq, hiff]
      exact ⟨.arr, fun h => by cases h; assumption⟩
    | _ => constructor <;> (intro h; cases h)
  | @obj fields hkeys _ ih =>
    intro w hw
    cases hw with
    | @obj fields' hkeys' hfields' =>
      have hnodup : ((fields.map (onValues sorted)).map Prod.fst).Nodup := by rwa [keys_onValues]
      have hnodup' : ((fields'.map (onValues sorted)).map Prod.fst).Nodup := by rwa [keys_onValues]
      have hlookup : ∀ key, (fields.lookup key).map sorted = (fields'.lookup key).map sorted ↔
          Option.Rel Same (fields.lookup key) (fields'.lookup key) := by
        intro key
        cases hl : fields.lookup key with
        | none => cases fields'.lookup key <;> simp [Option.rel_none_none]
        | some value =>
          cases hl' : fields'.lookup key with
          | none => simp
          | some value' =>
            have hm := (lookup_eq_some_iff hkeys key value).mp hl
            have hm' := (lookup_eq_some_iff hkeys' key value').mp hl'
            simp [ih _ hm (hfields' _ hm')]
      rw [sorted, sorted, sortedFields_eq, sortedFields_eq, Json.obj.injEq, sortFields_eq_iff hnodup,
        perm_iff_lookup hnodup hnodup']
      simp only [lookup_onValues, hlookup]
      exact ⟨.obj, fun h => by cases h; assumption⟩
    | _ => constructor <;> (intro h; cases h)

/-- Sorting while encoding is encoding the sorted value. -/
theorem dumps_sorted {style : Style} (hsort : style.sortKeys = true) {v : Json} (hv : Proper v) :
    dumps style v = dumps { style with sortKeys := false } (sorted v) := by
  induction hv with
  | arr _ ih =>
    rw [sorted, dumps, dumps, dumpsItems_eq, dumpsItems_eq, sortedItems_eq, List.map_map]
    rw [List.map_congr_left ih]
    rfl
  | @obj fields _ _ ih =>
    have hparts : fields.map (onValues (dumps style)) =
        (fields.map (onValues sorted)).map (onValues (dumps { style with sortKeys := false })) := by
      rw [List.map_map]
      exact List.map_congr_left fun field hm => congrArg (Prod.mk field.1) (ih field hm)
    have hfields : ∀ style, dumpsFields style = List.map (onValues (dumps style)) := fun style =>
      funext (dumpsFields_eq style)
    rw [sorted, dumps, dumps, hfields, hfields, sortedFields_eq]
    simp only [hsort, if_true, Bool.false_eq_true, if_false]
    rw [hparts, map_sortFields]
  | _ => rfl

theorem readable_canonical : { Style.canonical with sortKeys := false }.Readable := ⟨⟨[], rfl, rfl⟩, ⟨[], rfl, rfl⟩⟩

theorem readable_default : Style.default.Readable := ⟨⟨[' '], rfl, rfl⟩, ⟨[' '], rfl, rfl⟩⟩

/-- The text with sorted keys tells two values apart exactly if they are not equal. -/
theorem dumps_canonical_iff {v w : Json} (hv : Proper v) (hw : Proper w) :
    dumps .canonical v = dumps .canonical w ↔ Same v w := by
  rw [dumps_sorted rfl hv, dumps_sorted rfl hw, ← sorted_eq_iff hv hw]
  constructor
  · intro h
    have hload := loads_dumps readable_canonical rfl hv.sorted
    rw [h, loads_dumps readable_canonical rfl hw.sorted] at hload
    exact (Except.ok.inj hload).symm
  · intro h
    rw [h]

end LlmStore.JsonText
