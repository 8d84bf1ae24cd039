import LlmStore.Lib.CutNames
import LlmStore.Models.PublicNames

/-!
# The names of archived models

`archive_model_identity` appends a marker and the first group of the model's id to both of its names, and then cuts
them to the columns. Where the whole tag fits, the new names are met nowhere else in the registry, also after several
archived generations of one name. A name that is cut may be one that is there already: always if the old name fills
its column (`full_id_kept`), and else if another model holds the same beginning. `archiving_releases_names` says that
nothing else goes wrong.
-/

namespace LlmStore.Models

open LlmStore.Lib

/-! ## Markers -/

/-- The characters of `str(uuid)` between the hyphens. -/
def isHexDigit (c : Char) : Bool := c.isDigit || ('a' ≤ c && c ≤ 'f')

theorem idMarker_short :
    ∀ t ∈ (':' :: ":deleted:".toList ++ [':']).inits, (t.rtakeWhile isHexDigit).length < 8 := by
  decide

theorem aliasMarker_short :
    ∀ t ∈ ('-' :: "deleted".toList ++ ['-']).inits, (t.rtakeWhile isHexDigit).length < 8 := by
  decide

theorem isHexDigit_colon : isHexDigit ':' = false := rfl

theorem isHexDigit_hyphen : isHexDigit '-' = false := rfl

/-- `"::deleted::"`. -/
def idMarker : Marker isHexDigit 8 where
  first := ':'
  middle := ":deleted:".toList
  last := ':'
  first_not_digit := isHexDigit_colon
  last_not_digit := isHexDigit_colon
  short t ht := idMarker_short t ((List.mem_inits _ _).mpr ht)

/-- `"-deleted-"`. -/
def aliasMarker : Marker isHexDigit 8 where
  first := '-'
  middle := "deleted".toList
  last := '-'
  first_not_digit := isHexDigit_hyphen
  last_not_digit := isHexDigit_hyphen
  short t ht := aliasMarker_short t ((List.mem_inits _ _).mpr ht)

theorem idMarker_text : idMarker.text = "::deleted::".toList := rfl

theorem aliasMarker_text : aliasMarker.text = "-deleted-".toList := rfl

def markers : List (Marker isHexDigit 8) := [idMarker, aliasMarker]

/-! ## Registries -/

/-- The digits that stand for a model. -/
def Uuid.digits (pk : Uuid) : List Char := pk.firstGroup.toList

/-- What archiving makes of the id, before it is cut. -/
def taggedId (pk : Uuid) (name : String) : List Char := (name ++ "::deleted::" ++ pk.firstGroup).toList

/-- What archiving makes of the alias, before it is cut. -/
def taggedAlias (pk : Uuid) (name : String) : List Char := (name ++ "-deleted-" ++ pk.firstGroup).toList

theorem taggedId_eq (pk : Uuid) (name : String) : taggedId pk name = name.toList ++ idMarker.tag pk.digits := by
  simp [taggedId, Marker.tag, idMarker_text, Uuid.digits]

theorem taggedAlias_eq (pk : Uuid) (name : String) :
    taggedAlias pk name = name.toList ++ aliasMarker.tag pk.digits := by
  simp [taggedAlias, Marker.tag, aliasMarker_text, Uuid.digits]

/-- The first groups of the models' ids are eight digits each, and pairwise distinct. -/
structure Faces.DistinctGroups (fs : Faces) : Prop where
  groups : ∀ pk f, fs pk = some f → IsGroup isHexDigit 8 pk.digits
  distinct : ∀ pk pk' f f', fs pk = some f → fs pk' = some f' → pk.firstGroup = pk'.firstGroup → pk = pk'

/-- The names are no longer than their columns. A live name has no marker in it; the others are archived names of
the model. -/
structure Face.OwnNames (pk : Uuid) (f : Face) : Prop where
  modelId : Archived markers 255 idMarker pk.digits f.modelId.toList
  modelAlias : ∀ name, f.modelAlias = some name → Archived markers 128 aliasMarker pk.digits name.toList

def Faces.OwnNames (fs : Faces) : Prop := ∀ pk f, fs pk = some f → f.OwnNames pk

/-- Some model is found under the name. -/
def Faces.HasName (fs : Faces) (name : String) : Prop := ∃ pk f, fs pk = some f ∧ f.HasName name

section Names

variable {fs : Faces} {pk : Uuid} {f : Face} {name : String}

/-- **The cut id clashes with a name exactly if that is what is left of it.** -/
theorem truncate_id_iff (hg : fs.DistinctGroups) (ho : fs.OwnNames) (hf : fs pk = some f) (hname : fs.HasName name) :
    truncate 255 (f.modelId ++ "::deleted::" ++ pk.firstGroup) = name ↔
      CutOff 255 (taggedId pk f.modelId) name.toList := by
  have hcut : truncate 255 (f.modelId ++ "::deleted::" ++ pk.firstGroup) = name ↔
      (taggedId pk f.modelId).take 255 = name.toList := by
    rw [truncate, ← String.toList_inj, String.toList_ofList]
    rfl
  rw [hcut, taggedId_eq]
  obtain ⟨pk', f', hf', hid | halias⟩ := hname
  · subst hid
    by_cases hpk : pk' = pk
    · subst hpk
      obtain rfl := Option.some.inj (hf'.symm.trans hf)
      exact take_tagged_self_iff
    · refine (ho pk' f' hf').modelId.take_tagged_iff (hg.groups pk f hf) (hg.groups pk' f' hf') (by simp [markers])
        (.inl ?_)
      exact fun he => hpk (hg.distinct pk' pk f' f hf' hf (String.toList_inj.mp he))
  · exact ((ho pk' f' hf').modelAlias name halias).take_tagged_iff (hg.groups pk f hf) (hg.groups pk' f' hf')
      (by simp [markers]) (.inr (by decide))

/-- **The cut alias clashes with a name exactly if that is what is left of it.** -/
theorem truncate_alias_iff (hg : fs.DistinctGroups) (ho : fs.OwnNames) (hf : fs pk = some f) {a : String}
    (ha : f.modelAlias = some a) (hname : fs.HasName name) :
    truncate 128 (a ++ "-deleted-" ++ pk.firstGroup) = name ↔ CutOff 128 (taggedAlias pk a) name.toList := by
  have hcut : truncate 128 (a ++ "-deleted-" ++ pk.firstGroup) = name ↔
      (taggedAlias pk a).take 128 = name.toList := by
    rw [truncate, ← String.toList_inj, String.toList_ofList]
    rfl
  rw [hcut, taggedAlias_eq]
  obtain ⟨pk', f', hf', hid | halias⟩ := hname
  · subst hid
    exact (ho pk' f' hf').modelId.take_tagged_iff (hg.groups pk f hf) (hg.groups pk' f' hf') (by simp [markers])
      (.inr (by decide))
  · by_cases hpk : pk' = pk
    · subst hpk
      obtain rfl := Option.some.inj (hf'.symm.trans hf)
      obtain rfl := Option.some.inj (halias.symm.trans ha)
      exact take_tagged_self_iff
    · refine ((ho pk' f' hf').modelAlias name halias).take_tagged_iff (hg.groups pk f hf) (hg.groups pk' f' hf')
        (by simp [markers]) (.inl ?_)
      exact fun he => hpk (hg.distinct pk' pk f' f hf' hf (String.toList_inj.mp he))

end Names

/-! ## Runs -/

/-- The name fits the column and has no marker in it. -/
def IsLive (limit : ℕ) (name : String) : Prop := name.length ≤ limit ∧ ∀ m ∈ markers, ¬ m.text <:+: name.toList

/-- The names that the operation asks for are live names. -/
def Step.AsksLive (settings : Settings) (s : Step) : Prop :=
  match s.operation with
  | .createModel _ payload => IsLive 255 payload.modelId.val ∧ ∀ a, payload.modelAlias = some a → IsLive 128 a.val
  | .patchModel _ _ payload => ∀ a, payload.modelAlias = some (some a) → IsLive 128 a.val
  | .ensureDefaultModel => ∀ n ∈ seedNames settings, IsLive 255 n.1 ∧ IsLive 128 n.2
  | _ => True

section Runs

variable {fs : Faces} {pk : Uuid}

theorem IsLive.archived {limit : ℕ} {name : String} (h : IsLive limit name) (mark : Marker isHexDigit 8)
    (group : List Char) : Archived markers limit mark group name.toList := .live h.1 h.2

theorem Faces.OwnNames.clear (h : fs.OwnNames) (keep : Option Uuid) : (fs.clear keep).OwnNames := by
  intro k f' hf'
  obtain ⟨f, hf, rfl⟩ := Option.map_eq_some_iff.mp hf'
  split_ifs
  · exact h k f hf
  · exact ⟨(h k f hf).modelId, (h k f hf).modelAlias⟩

theorem Faces.OwnNames.update (h : fs.OwnNames) {f : Face} (hf : f.OwnNames pk) :
    OwnNames (Function.update fs pk (some f)) := by
  intro k f' hf'
  by_cases hk : k = pk
  · subst hk
    rw [Function.update_self, Option.some.injEq] at hf'
    exact hf' ▸ hf
  · rw [Function.update_of_ne hk] at hf'
    exact h k f' hf'

theorem Faces.OwnNames.set (h : fs.OwnNames) {g : Face → Option Face}
    (hg : ∀ f f', f.OwnNames pk → g f = some f' → f'.OwnNames pk) : (fs.set pk g).OwnNames := by
  intro k f' hf'
  by_cases hk : k = pk
  · subst hk
    rw [Faces.set, Function.update_self] at hf'
    obtain ⟨f, hf, hgf⟩ := Option.bind_eq_some_iff.mp hf'
    exact hg f f' (h k f hf) hgf
  · rw [Faces.set, Function.update_of_ne hk] at hf'
    exact h k f' hf'

/-- A model that is archived, perhaps again, keeps names of its own. -/
theorem Face.OwnNames.archived {f : Face} (h : f.OwnNames pk) : (f.archived pk).OwnNames pk where
  modelId := by
    show Archived _ _ _ _ (truncate 255 (f.modelId ++ "::deleted::" ++ pk.firstGroup)).toList
    have hid := h.modelId.archive
    rw [← taggedId_eq] at hid
    rw [truncate, String.toList_ofList]
    exact hid
  modelAlias name hname := by
    obtain ⟨a, ha, rfl⟩ := Option.map_eq_some_iff.mp hname
    have hal := h.modelAlias a ha
    split_ifs
    · exact hal
    · have hcut := hal.archive
      rw [← taggedAlias_eq] at hcut
      rw [truncate, String.toList_ofList]
      exact hcut

/-- A seeded model gets live names. -/
theorem EntryStep.ownNames {env : Env} {settings : Settings} {e : ModelEntry} {models models' : Table Uuid ModelRow}
    {base : ModelRow} (h : EntryStep env settings e models pk base models') (ho : (faces models).OwnNames)
    (hlive : IsLive 255 e.modelId ∧ IsLive 128 e.modelAlias) : (faces models').OwnNames := by
  rw [h.faces_eq]
  refine ho.update ⟨?_, fun name hname => ?_⟩
  · rcases h.origin with hbase | ⟨-, rfl⟩
    · exact (ho pk base.face (faces_eq_some_iff.mpr ⟨base, hbase, rfl⟩)).modelId
    · exact hlive.1.archived idMarker pk.digits
  · obtain rfl := Option.some.inj hname
    exact hlive.2.archived aliasMarker pk.digits

theorem Ensured.ownNames {env : Env} {settings : Settings} {t t' : Tables} (h : Ensured env settings t t')
    (ho : (faces t.models).OwnNames) (hlive : ∀ n ∈ seedNames settings, IsLive 255 n.1 ∧ IsLive 128 n.2) :
    (faces t'.models).OwnNames := by
  obtain ⟨gemma, bonsai, bonzai, m₁, m₂, m₃, models₁, models₂, models₃, h₁, h₂, h₃, hmodels⟩ := h.steps
  have ho₁ := h₁.ownNames ho (hlive (settings.modelId, "gemma") (by simp [seedNames]))
  rw [← faces_addFallback env settings t gemma models₁] at ho₁
  have ho₂ := h₂.ownNames ho₁ (hlive (settings.bonsaiModelId, "bonsai") (by simp [seedNames]))
  have ho₃ := h₃.ownNames ho₂ (hlive (settings.bonsaiModelId ++ "/alias-bonzai", "bonzai") (by simp [seedNames]))
  rw [hmodels, faces_clearDefaults]
  exact ho₃.clear _

/-- A patched model gets a live alias or none, or keeps its own. -/
theorem ModelRegistryPatch.face_ownNames {payload : ModelRegistryPatch} {f : Face} (hf : f.OwnNames pk)
    (hlive : ∀ a, payload.modelAlias = some (some a) → IsLive 128 a.val) : (payload.face f).OwnNames pk := by
  refine ⟨hf.modelId, fun name hname => ?_⟩
  cases hp : payload.modelAlias with
  | none => exact hf.modelAlias name (by simpa [ModelRegistryPatch.face, hp] using hname)
  | some patched =>
    cases patched with
    | none => simp [ModelRegistryPatch.face, hp] at hname
    | some a =>
      obtain rfl : a.val = name := by simpa [ModelRegistryPatch.face, hp] using hname
      exact (hlive a hp).archived _ _

/-- What an operation commits has names of its own. -/
theorem Step.AsksLive.commits {settings : Settings} {r : Registry} {s : Step} (h : s.AsksLive settings)
    (ho : (faces r.models).OwnNames) : ∀ r' ∈ registryCommits settings r s, (faces r'.models).OwnNames := by
  intro r' hr'
  have hattempt := mem_registryCommits.mp hr'
  have hfaces := faces_of_attempt hattempt
  obtain ⟨env, op⟩ := s
  cases op with
  | createModel files payload =>
    rw [hfaces (by simp), asked_create]
    have hface : payload.face.OwnNames (env.uuids.next r.models.keys) := by
      refine ⟨h.1.archived _ _, fun name hname => ?_⟩
      obtain ⟨a, ha, rfl⟩ := Option.map_eq_some_iff.mp hname
      exact (h.2 a ha).archived _ _
    split_ifs
    · exact (ho.clear none).update hface
    · exact ho.update hface
  | patchModel files pk payload =>
    rw [hfaces (by simp)]
    have hface : ∀ f f', f.OwnNames pk → some (payload.face f) = some f' → f'.OwnNames pk := by
      intro f f' hf he
      obtain rfl := Option.some.inj he
      exact payload.face_ownNames hf h
    show (Faces.set pk _ (if _ then _ else _)).OwnNames
    split_ifs
    · exact (ho.clear _).set hface
    · exact ho.set hface
  | setDefaultModel pk =>
    rw [hfaces (by simp)]
    refine (ho.clear (some pk)).set fun f f' hf he => ?_
    obtain rfl := Option.some.inj he
    exact ⟨hf.modelId, hf.modelAlias⟩
  | enableModel pk =>
    rw [hfaces (by simp)]
    refine ho.set fun f f' hf he => ?_
    obtain rfl := Option.some.inj he
    exact ⟨hf.modelId, hf.modelAlias⟩
  | disableModel pk =>
    rw [hfaces (by simp)]
    refine ho.set fun f f' hf he => ?_
    obtain rfl := Option.some.inj he
    exact ⟨hf.modelId, hf.modelAlias⟩
  | deleteModel pk payload deletedAt log hasJobs =>
    rw [hfaces (by simp)]
    refine ho.set fun f f' hf he => ?_
    split_ifs at he
    obtain rfl := Option.some.inj he
    exact hf.archived
  | ensureDefaultModel => exact (ensured_of_ok env settings (attempt_eq_ok_iff.mp hattempt)).ownNames ho h
  | _ =>
    rw [hfaces (by simp)]
    exact ho

end Runs

/-- **In every run that asks for live names only, all names are live or archived names of their model.** -/
theorem ownNames_run (settings : Settings) (plans : List BillingPlan) (steps : List Step)
    (h : Along (commitStep (registryCommits settings)) (fun _ s => s.AsksLive settings) (emptyRegistry plans) steps) :
    ∀ r ∈ emptyRegistry plans :: history (registryCommits settings) (emptyRegistry plans) steps,
      (faces r.models).OwnNames := by
  refine forall_history_of_along (I := fun r : Registry => (faces r.models).OwnNames) (fun _ _ ho hs => hs.commits ho)
    (fun pk f hf => ?_) h
  cases hf

/-! ## Archiving one model -/

/-- No name of the registry, those of the model among them, is what is left of the model's new names where these are
cut to their columns. -/
structure Registry.FitsColumns (r : Registry) (pk : Uuid) (m : ModelRow) : Prop where
  id_shorter : m.modelId.length < 255
  alias_shorter : ∀ a, m.modelAlias = some a → a.length < 128
  id_not_cut : ∀ name, (faces r.models).HasName name → ¬ CutOff 255 (taggedId pk m.modelId) name.toList
  alias_not_cut : ∀ a name, m.modelAlias = some a → (faces r.models).HasName name →
    ¬ CutOff 128 (taggedAlias pk a) name.toList

/-- The names of `m` are free in `r'`, where the model has the row `m'`: the new names are none of the old ones and
those of no other model, a model can be created with the old ones, and these are recorded. -/
structure Registry.Released (r' : Registry) (pk : Uuid) (m m' : ModelRow) : Prop where
  id_new : ¬ m.face.HasName m'.modelId
  alias_new : ∀ a, m'.modelAlias = some a → ¬ m.face.HasName a
  id_unique : ∀ k n, k ≠ pk → r'.models.lookup k = some n → ¬ n.face.HasName m'.modelId
  alias_unique : ∀ a k n, k ≠ pk → r'.models.lookup k = some n → m'.modelAlias = some a → ¬ n.face.HasName a
  apart : m'.modelAlias ≠ some m'.modelId
  passes : ∀ payload : ModelRegistryCreate, payload.modelId.val = m.modelId →
    payload.modelAlias.map (·.val) = m.modelAlias → createModelSearch payload r'.toTables = .ok ()
  id_recorded : (parseMetadata m'.metadataJson).lookup "deleted_public_model_id" = some (.str m.modelId.toList)
  alias_recorded : (parseMetadata m'.metadataJson).lookup "deleted_public_model_alias" =
    some ((m.modelAlias.map fun a => Json.str a.toList).getD .null)

/-- Names of at most 236 and 111 characters are not cut. -/
theorem Registry.fitsColumns_of_short (r : Registry) {pk : Uuid} {m : ModelRow} (hg : pk.firstGroup.length = 8)
    (hid : m.modelId.length ≤ 236) (halias : ∀ a, m.modelAlias = some a → a.length ≤ 111) : r.FitsColumns pk m where
  id_shorter := by omega
  alias_shorter a ha := (halias a ha).trans_lt (by omega)
  id_not_cut name _ hcut := by
    have hlen := hcut.2.1
    rw [taggedId, String.length_toList, String.length_append, String.length_append, hg] at hlen
    have : "::deleted::".length = 11 := by decide
    omega
  alias_not_cut a name ha _ hcut := by
    have hlen := hcut.2.1
    rw [taggedAlias, String.length_toList, String.length_append, String.length_append, hg] at hlen
    have : "-deleted-".length = 9 := by decide
    have := halias a ha
    omega

section Archive

variable {settings : Settings} {env : Env} {r r' : Registry} {pk : Uuid} {m m' : ModelRow}
  {payload : ModelDeleteRequest} {deletedAt : String} {log : List String} {hasJobs : Bool}

/-- A soft deletion that is not refused archives the row. -/
theorem deleteModel_soft {t : Tables} (hm : t.models.lookup pk = some m) (hdefault : m.isDefault = false)
    (hroutes : m.backendRoutes.entries = [] ∨ payload.confirmRouteRemoval = true) (hmode : payload.mode = .soft) :
    deleteModel pk payload deletedAt log hasJobs t = .ok (t.setModel pk (archiveModelIdentity pk deletedAt)) := by
  have hget : getModel t pk = .ok m := getModel_eq_ok_iff.mpr hm
  have hconfirm : refuseIf (m.backendRoutes.entries ≠ [] ∧ ¬ payload.confirmRouteRemoval) 409
      "model still has active backend routes; confirm route removal" = .ok () := by
    rw [refuseIf_eq_ok_iff]
    rintro ⟨hne, hno⟩
    exact hroutes.elim hne hno
  rw [deleteModel, hget]
  show (refuseIf _ _ _ >>= fun _ => refuseIf _ _ _ >>= fun _ => _) = _
  rw [hconfirm]
  simp [hdefault, hmode, refuseIf, bind, Except.bind, pure, Except.pure]

/-- The names of an archived row. -/
theorem archived_modelId (pk : Uuid) (deletedAt : String) (m : ModelRow) :
    (archiveModelIdentity pk deletedAt m).modelId = truncate 255 (m.modelId ++ "::deleted::" ++ pk.firstGroup) := rfl

theorem archived_modelAlias {deletedAt : String} (halias : m.modelAlias ≠ some "") :
    (archiveModelIdentity pk deletedAt m).modelAlias =
      m.modelAlias.map fun a => truncate 128 (a ++ "-deleted-" ++ pk.firstGroup) := by
  show (m.modelAlias.map fun a => if a = "" then a else _) = _
  cases ha : m.modelAlias with
  | none => rfl
  | some a =>
    have hne : a ≠ "" := fun he => halias (by rw [ha, he])
    simp [hne]

/-- What a soft deletion commits. -/
theorem lookup_of_attempt_soft (hm : r.models.lookup pk = some m) (hdefault : m.isDefault = false)
    (hroutes : m.backendRoutes.entries = [] ∨ payload.confirmRouteRemoval = true) (hmode : payload.mode = .soft)
    (h : attempt settings r ⟨env, .deleteModel pk payload deletedAt log hasJobs⟩ = .ok r') :
    r'.toTables = r.toTables.setModel pk (archiveModelIdentity pk deletedAt) := by
  have hwrite := attempt_eq_ok_iff.mp h
  have hok : deleteModel pk payload deletedAt log hasJobs r.toTables =
      .ok (r.toTables.setModel pk (archiveModelIdentity pk deletedAt)) := deleteModel_soft hm hdefault hroutes hmode
  exact (Except.ok.inj (hok.symm.trans hwrite)).symm

/-- The others are as they were. -/
theorem lookup_archived (hm : r.models.lookup pk = some m)
    (h : r'.toTables = r.toTables.setModel pk (archiveModelIdentity pk deletedAt)) :
    r'.models.lookup pk = some (archiveModelIdentity pk deletedAt m) ∧
      ∀ k, k ≠ pk → r'.models.lookup k = r.models.lookup k := by
  have hmodels : r'.models = r.models.modify pk (archiveModelIdentity pk deletedAt) := congrArg Tables.models h
  rw [hmodels]
  refine ⟨?_, fun k hk => Table.lookup_modify_ne hk _ _⟩
  rw [Table.lookup_modify_self, hm]
  rfl

/-- A name of the registry is one of the model or one of another, which still has it. -/
theorem hasName_cases (hm : r.models.lookup pk = some m) {name : String} (hname : (faces r.models).HasName name) :
    m.face.HasName name ∨ ∃ k n, k ≠ pk ∧ r.models.lookup k = some n ∧ n.face.HasName name := by
  obtain ⟨k, f, hf, hn⟩ := hname
  obtain ⟨n, hlookup, rfl⟩ := faces_eq_some_iff.mp hf
  by_cases hk : k = pk
  · subst hk
    obtain rfl := Option.some.inj (hlookup.symm.trans hm)
    exact .inl hn
  · exact .inr ⟨k, n, hk, hlookup, hn⟩

/-- Released names are not cut to names that are there. -/
theorem Registry.Released.fitsColumns (hg : (faces r.models).DistinctGroups) (ho : (faces r.models).OwnNames)
    (hm : r.models.lookup pk = some m) (halias : m.modelAlias ≠ some "")
    (htab : r'.toTables = r.toTables.setModel pk (archiveModelIdentity pk deletedAt))
    (hm' : r'.models.lookup pk = some m') (h : r'.Released pk m m') : r.FitsColumns pk m := by
  obtain ⟨hnew, hothers⟩ := lookup_archived hm htab
  obtain rfl := Option.some.inj (hm'.symm.trans hnew)
  have hf : faces r.models pk = some m.face := faces_eq_some_iff.mpr ⟨m, hm, rfl⟩
  have hid : ∀ name, (faces r.models).HasName name → ¬ CutOff 255 (taggedId pk m.modelId) name.toList := by
    intro name hname hcut
    have he : (archiveModelIdentity pk deletedAt m).modelId = name := (truncate_id_iff hg ho hf hname).mpr hcut
    rcases hasName_cases hm hname with hown | ⟨k, n, hk, hlookup, hn⟩
    · exact h.id_new (he ▸ hown)
    · exact h.id_unique k n hk ((hothers k hk).trans hlookup) (he ▸ hn)
  have hal : ∀ a name, m.modelAlias = some a → (faces r.models).HasName name →
      ¬ CutOff 128 (taggedAlias pk a) name.toList := by
    intro a name ha hname hcut
    have he : (archiveModelIdentity pk deletedAt m).modelAlias = some name := by
      rw [archived_modelAlias halias, ha]
      exact congrArg some ((truncate_alias_iff hg ho hf ha hname).mpr hcut)
    rcases hasName_cases hm hname with hown | ⟨k, n, hk, hlookup, hn⟩
    · exact h.alias_new name he hown
    · exact h.alias_unique name k n hk ((hothers k hk).trans hlookup) he hn
  refine ⟨?_, fun a ha => ?_, hid, hal⟩
  · have hle : m.modelId.length ≤ 255 := (ho pk _ hf).modelId.length_le
    refine lt_of_le_of_ne hle fun he => hid m.modelId ⟨pk, m.face, hf, .inl rfl⟩ ?_
    rw [taggedId_eq]
    exact cutOff_self_iff.mpr he
  · have hle : a.length ≤ 128 := ((ho pk _ hf).modelAlias a ha).length_le
    refine lt_of_le_of_ne hle fun he => hal a a ha ⟨pk, m.face, hf, .inr ha⟩ ?_
    rw [taggedAlias_eq]
    exact cutOff_self_iff.mpr he

/-- The new names are nowhere in the registry. -/
theorem Registry.FitsColumns.fresh (h : r.FitsColumns pk m) (hg : (faces r.models).DistinctGroups)
    (ho : (faces r.models).OwnNames) (hm : r.models.lookup pk = some m) (halias : m.modelAlias ≠ some "")
    (deletedAt : String) : ¬ (faces r.models).HasName (archiveModelIdentity pk deletedAt m).modelId ∧
      ∀ a, (archiveModelIdentity pk deletedAt m).modelAlias = some a → ¬ (faces r.models).HasName a := by
  have hf : faces r.models pk = some m.face := faces_eq_some_iff.mpr ⟨m, hm, rfl⟩
  constructor
  · intro hname
    exact h.id_not_cut _ hname ((truncate_id_iff hg ho hf hname).mp rfl)
  · intro a ha hname
    rw [archived_modelAlias halias] at ha
    obtain ⟨b, hb, rfl⟩ := Option.map_eq_some_iff.mp ha
    exact h.alias_not_cut b _ hb hname ((truncate_alias_iff hg ho hf hb hname).mp rfl)

/-- The new id is not the new alias. -/
theorem archived_apart (hg : (faces r.models).DistinctGroups) (ho : (faces r.models).OwnNames)
    (hm : r.models.lookup pk = some m) (halias : m.modelAlias ≠ some "") :
    (archiveModelIdentity pk deletedAt m).modelAlias ≠ some (archiveModelIdentity pk deletedAt m).modelId := by
  have hf : faces r.models pk = some m.face := faces_eq_some_iff.mpr ⟨m, hm, rfl⟩
  intro he
  rw [archived_modelAlias halias, archived_modelId] at he
  obtain ⟨a, ha, he⟩ := Option.map_eq_some_iff.mp he
  have hlists : (m.modelId.toList ++ idMarker.tag pk.digits).take 255 =
      (a.toList ++ aliasMarker.tag pk.digits).take 128 := by
    rw [← taggedId_eq, ← taggedAlias_eq]
    simpa [truncate, taggedId, taggedAlias] using (congrArg String.toList he).symm
  have hgroup := hg.groups pk _ hf
  have harchived := ((ho pk _ hf).modelAlias a ha).archive
  have hcut := (harchived.take_tagged_iff hgroup hgroup (by simp [markers]) (.inr (by decide))).mp hlists
  have hlen := hcut.1
  have hle := harchived.length_le
  omega

/-- What is recorded of the names. -/
theorem archived_metadata (pk : Uuid) (deletedAt : String) (m : ModelRow) :
    (parseMetadata (archiveModelIdentity pk deletedAt m).metadataJson).lookup "deleted_public_model_id" =
        some (.str m.modelId.toList) ∧
      (parseMetadata (archiveModelIdentity pk deletedAt m).metadataJson).lookup "deleted_public_model_alias" =
        some ((m.modelAlias.map fun a => Json.str a.toList).getD .null) := by
  constructor <;> simp [archiveModelIdentity, parseMetadata, Json.lookup_setItem]

/-- Names that fit the columns are released. -/
theorem Registry.FitsColumns.released (h : r.FitsColumns pk m) (hg : (faces r.models).DistinctGroups)
    (ho : (faces r.models).OwnNames) (hm : r.models.lookup pk = some m) (halias : m.modelAlias ≠ some "")
    (htab : r'.toTables = r.toTables.setModel pk (archiveModelIdentity pk deletedAt)) :
    r'.Released pk m (archiveModelIdentity pk deletedAt m) := by
  obtain ⟨hnew, hothers⟩ := lookup_archived hm htab
  obtain ⟨hid, hal⟩ := h.fresh hg ho hm halias deletedAt
  have hf : faces r.models pk = some m.face := faces_eq_some_iff.mpr ⟨m, hm, rfl⟩
  have hold : ∀ k n, k ≠ pk → r'.models.lookup k = some n → faces r.models k = some n.face := fun k n hk hn =>
    faces_eq_some_iff.mpr ⟨n, (hothers k hk).symm.trans hn, rfl⟩
  refine ⟨fun hn => hid ⟨pk, _, hf, hn⟩, fun a ha hn => hal a ha ⟨pk, _, hf, hn⟩,
    fun k n hk hn hname => hid ⟨k, _, hold k n hk hn, hname⟩,
    fun a k n hk hn ha hname => hal a ha ⟨k, _, hold k n hk hn, hname⟩, archived_apart hg ho hm halias, ?_,
    (archived_metadata pk deletedAt m).1, (archived_metadata pk deletedAt m).2⟩
  intro p hpid hpalias
  rw [createModelSearch_eq_ok_iff]
  intro k n hn
  have hids : n.modelId ≠ m.modelId := by
    intro he
    by_cases hk : k = pk
    · subst hk
      obtain rfl := Option.some.inj (hn.symm.trans hnew)
      exact hid ⟨k, _, hf, .inl he.symm⟩
    · exact hk (r.modelId_inj ((hothers k hk).symm.trans hn) hm he)
  have haliases : ∀ a, m.modelAlias = some a → n.modelAlias ≠ some a := by
    intro a ha he
    by_cases hk : k = pk
    · subst hk
      obtain rfl := Option.some.inj (hn.symm.trans hnew)
      exact hal a he ⟨k, _, hf, .inr ha⟩
    · exact hk (r.modelAlias_inj ((hothers k hk).symm.trans hn) hm he ha)
  rw [ModelRegistryCreate.duplicates, hpid]
  cases hp : p.modelAlias with
  | none => simp [hids]
  | some b =>
    rw [hp] at hpalias
    simp [hids, haliases b.val hpalias.symm]

/-- Names that fit the columns meet no unique key. -/
theorem Registry.FitsColumns.commits (h : r.FitsColumns pk m) (hg : (faces r.models).DistinctGroups)
    (ho : (faces r.models).OwnNames) (hm : r.models.lookup pk = some m) (halias : m.modelAlias ≠ some "")
    (deletedAt : String) : Constraints (r.toTables.setModel pk (archiveModelIdentity pk deletedAt)) := by
  obtain ⟨hid, hal⟩ := h.fresh hg ho hm halias deletedAt
  have hself : (r.models.modify pk (archiveModelIdentity pk deletedAt)).lookup pk =
      some (archiveModelIdentity pk deletedAt m) := by
    rw [Table.lookup_modify_self, hm]
    rfl
  have hother : ∀ k, k ≠ pk →
      (r.models.modify pk (archiveModelIdentity pk deletedAt)).lookup k = r.models.lookup k := fun k hk =>
    Table.lookup_modify_ne hk _ _
  refine ⟨r.constraints.backendNames, r.constraints.modelIds.set hself hother ?_,
    r.constraints.modelAliases.set hself hother ?_⟩
  · intro k n name _ hn hname he
    obtain rfl := Option.some.inj hname
    exact hid ⟨k, n.face, faces_eq_some_iff.mpr ⟨n, hn, rfl⟩, .inl (Option.some.inj he)⟩
  · intro k n name _ hn hname he
    exact hal name hname ⟨k, n.face, faces_eq_some_iff.mpr ⟨n, hn, rfl⟩, .inr he⟩

end Archive

/-- **Archiving releases the names of a model exactly if they fit the columns**: no name of the registry is what is
left of them where they are cut. -/
theorem archiving_releases_names (settings : Settings) (env : Env) (r : Registry) (pk : Uuid) (m : ModelRow)
    (payload : ModelDeleteRequest) (deletedAt : String) (log : List String) (hasJobs : Bool)
    (hg : (faces r.models).DistinctGroups) (ho : (faces r.models).OwnNames) (hm : r.models.lookup pk = some m)
    (halias : m.modelAlias ≠ some "") (hdefault : m.isDefault = false)
    (hroutes : m.backendRoutes.entries = [] ∨ payload.confirmRouteRemoval = true) (hmode : payload.mode = .soft) :
    (∃ r' m', attempt settings r ⟨env, .deleteModel pk payload deletedAt log hasJobs⟩ = .ok r' ∧
      r'.models.lookup pk = some m' ∧ r'.Released pk m m') ↔ r.FitsColumns pk m := by
  constructor
  · rintro ⟨r', m', hok, hm', hreleased⟩
    exact hreleased.fitsColumns hg ho hm halias (lookup_of_attempt_soft hm hdefault hroutes hmode hok) hm'
  · intro h
    have hok : attempt settings r ⟨env, .deleteModel pk payload deletedAt log hasJobs⟩ =
        .ok ⟨_, h.commits hg ho hm halias deletedAt⟩ :=
      attempt_eq_ok_iff.mpr (deleteModel_soft hm hdefault hroutes hmode)
    exact ⟨_, _, hok, (lookup_archived hm rfl).1, h.released hg ho hm halias rfl⟩

/-! ### One model -/

/-- A model without an alias and without routes. -/
def namedRow (modelId : String) : ModelRow where
  modelId
  modelAlias := none
  inferenceBackendId := none
  provider := .vllm
  modelFile := "model"
  contextLength := 4096
  isActive := true
  isDefault := false
  status := "configured"
  promptTemplate := none
  metadataJson := .absent
  createdAt := 0
  backendRoutes := ∅

/-- A registry of one model. -/
def loneRegistry (pk : Uuid) (m : ModelRow) : Registry where
  backends := ∅
  models := AList.singleton pk m
  plans := []
  constraints := ⟨List.Pairwise.nil, List.pairwise_singleton _ _, List.pairwise_singleton _ _⟩

section Lone

variable {pk : Uuid} {m : ModelRow}

theorem lone_lookup (pk : Uuid) (m : ModelRow) : (loneRegistry pk m).models.lookup pk = some m := by
  apply Table.mem_entries_iff.mp
  exact List.mem_singleton_self _

theorem lone_faces {k : Uuid} {f : Face} (h : faces (loneRegistry pk m).models k = some f) : k = pk ∧ f = m.face := by
  obtain ⟨n, hn, rfl⟩ := faces_eq_some_iff.mp h
  have hmem : (⟨k, n⟩ : (_ : Uuid) × ModelRow) ∈ [⟨pk, m⟩] := Table.mem_entries_iff.mpr hn
  rw [List.mem_singleton, Sigma.mk.injEq, heq_eq_eq] at hmem
  exact ⟨hmem.1, by rw [hmem.2]⟩

theorem lone_distinctGroups (hg : IsGroup isHexDigit 8 pk.digits) :
    (faces (loneRegistry pk m).models).DistinctGroups where
  groups _ _ hf := (lone_faces hf).1 ▸ hg
  distinct _ _ _ _ hf hf' _ := (lone_faces hf).1.trans (lone_faces hf').1.symm

theorem lone_ownNames (pk : Uuid) {name : String} (h : IsLive 255 name) :
    (faces (loneRegistry pk (namedRow name)).models).OwnNames := by
  intro k f hf
  obtain ⟨rfl, rfl⟩ := lone_faces hf
  exact ⟨h.archived _ _, fun a ha => by cases ha⟩

end Lone

def plainUuid : Uuid := ⟨"0a1b2c3d", 0⟩

theorem plainUuid_group : IsGroup isHexDigit 8 plainUuid.digits :=
  ⟨by decide, List.all_eq_true.mp (by decide)⟩

def softDelete : ModelDeleteRequest := ⟨false, .soft⟩

def otherUuid : Uuid := ⟨"4e5f6a7b", 0⟩

def aliasedRow (modelId modelAlias : String) : ModelRow := { namedRow modelId with modelAlias := some modelAlias }

/-- Two models with aliases. -/
def pairRegistry : Registry where
  backends := ∅
  models := (AList.singleton otherUuid (aliasedRow "c" "d")).insert plainUuid (aliasedRow "a" "b")
  plans := []
  constraints := by decide

theorem pair_faces {k : Uuid} {f : Face} (h : faces pairRegistry.models k = some f) :
    k = plainUuid ∧ f = (aliasedRow "a" "b").face ∨ k = otherUuid ∧ f = (aliasedRow "c" "d").face := by
  obtain ⟨n, hn, rfl⟩ := faces_eq_some_iff.mp h
  by_cases hk : k = plainUuid
  · subst hk
    exact .inl ⟨rfl, congrArg ModelRow.face (Option.some.inj (hn.symm.trans (AList.lookup_insert _)))⟩
  · rw [pairRegistry, AList.lookup_insert_ne hk] at hn
    have hmem : (⟨k, n⟩ : (_ : Uuid) × ModelRow) ∈ [⟨otherUuid, aliasedRow "c" "d"⟩] := Table.mem_entries_iff.mpr hn
    rw [List.mem_singleton, Sigma.mk.injEq, heq_eq_eq] at hmem
    exact .inr ⟨hmem.1, by rw [hmem.2]⟩

theorem pair_distinctGroups : (faces pairRegistry.models).DistinctGroups := by
  have hother : IsGroup isHexDigit 8 otherUuid.digits := ⟨by decide, List.all_eq_true.mp (by decide)⟩
  refine ⟨fun k f hf => ?_, fun k k' f f' hf hf' he => ?_⟩
  · rcases pair_faces hf with ⟨rfl, -⟩ | ⟨rfl, -⟩
    · exact plainUuid_group
    · exact hother
  · rcases pair_faces hf with ⟨rfl, -⟩ | ⟨rfl, -⟩ <;> rcases pair_faces hf' with ⟨rfl, -⟩ | ⟨rfl, -⟩
    · rfl
    · exact absurd he (by decide)
    · exact absurd he (by decide)
    · rfl

theorem pair_ownNames : (faces pairRegistry.models).OwnNames := by
  intro k f hf
  rcases pair_faces hf with ⟨rfl, rfl⟩ | ⟨rfl, rfl⟩
  · refine ⟨IsLive.archived ⟨by decide, by decide⟩ _ _, fun name hname => ?_⟩
    obtain rfl : "b" = name := Option.some.inj hname
    exact IsLive.archived ⟨by decide, by decide⟩ _ _
  · refine ⟨IsLive.archived ⟨by decide, by decide⟩ _ _, fun name hname => ?_⟩
    obtain rfl : "d" = name := Option.some.inj hname
    exact IsLive.archived ⟨by decide, by decide⟩ _ _

theorem archiving_releases_ab :
    ∃ r' m', attempt plainSettings pairRegistry
        ⟨plainEnv, .deleteModel plainUuid softDelete "2026-05-01T00:00:00+00:00" [] false⟩ = .ok r' ∧
      r'.models.lookup plainUuid = some m' ∧ r'.Released plainUuid (aliasedRow "a" "b") m' :=
  (archiving_releases_names plainSettings plainEnv pairRegistry plainUuid (aliasedRow "a" "b") softDelete
    "2026-05-01T00:00:00+00:00" [] false pair_distinctGroups pair_ownNames (AList.lookup_insert _) (by decide) rfl
    (.inl rfl) rfl).mpr
    (Registry.fitsColumns_of_short _ (by decide) (by decide) fun a ha => by
      obtain rfl : "b" = a := Option.some.inj ha
      decide)

/-- A name of `n` characters. -/
def longName (n : ℕ) : String := String.ofList (List.replicate n 'a')

theorem longName_length (n : ℕ) : (longName n).length = n := by simp [longName]

theorem longName_live (n : ℕ) : IsLive n (longName n) := by
  refine ⟨(longName_length n).le, fun mark _ hmark => ?_⟩
  have hfirst : mark.first ∈ (longName n).toList := hmark.subset List.mem_cons_self
  rw [longName, String.toList_ofList] at hfirst
  have hdigit := mark.first_not_digit
  rw [List.eq_of_mem_replicate hfirst] at hdigit
  exact absurd hdigit (by decide)

/-- **An id that fills its column is kept**: nothing of the tag is left. -/
theorem full_id_kept :
    (faces (loneRegistry plainUuid (namedRow (longName 255))).models).DistinctGroups ∧
      (faces (loneRegistry plainUuid (namedRow (longName 255))).models).OwnNames ∧
      ¬ ∃ r' m', attempt plainSettings (loneRegistry plainUuid (namedRow (longName 255)))
          ⟨plainEnv, .deleteModel plainUuid softDelete "2026-05-01T00:00:00+00:00" [] false⟩ = .ok r' ∧
        r'.models.lookup plainUuid = some m' ∧ r'.Released plainUuid (namedRow (longName 255)) m' := by
  have hg := lone_distinctGroups (m := namedRow (longName 255)) plainUuid_group
  have ho := lone_ownNames plainUuid (longName_live 255)
  refine ⟨hg, ho, ?_⟩
  rintro ⟨r', m', hok, hm', hreleased⟩
  have htab := lookup_of_attempt_soft (lone_lookup _ _) rfl (.inl rfl) rfl hok
  have hfits := hreleased.fitsColumns hg ho (lone_lookup _ _) (by simp [namedRow]) htab hm'
  exact absurd (longName_length 255) hfits.id_shorter.ne

end LlmStore.Models
