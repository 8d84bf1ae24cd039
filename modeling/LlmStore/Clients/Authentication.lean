import LlmStore.Clients.Deletion

/-!
# Who a key belongs to

The key lookup of `require_client` finds candidates by the first twelve characters of the text and compares their hashes.
Against a register that knows the plaintexts of the issued keys and which of them are still good, the lookup is exact
(`findApiKey_iff`), whatever keys share a prefix; and a key that is no longer good never is again (`Extends`). The
register is what the operations on keys say it is (`Register.after`), and the table of keys stands for it in every run
(`represents_run`).
-/

namespace LlmStore.Clients

open LlmStore.Calendar LlmStore.Lib LlmStore.Usage LlmStore.Inference LlmStore.Jobs

/-! ## The register -/

/-- An issued key: its holder, its plaintext, and whether it has been neither revoked nor rotated nor deleted with its
holder. -/
structure Issued where
  clientId : ClientId
  plaintext : List Char
  live : Bool

def Issued.retire (i : Issued) : Issued := { i with live := false }

/-- All keys ever issued, in the order of their creation. -/
abbrev Register := List Issued

/-- What an operation that is not refused does to the keys. -/
inductive KeyEvent where
  | issue (c : ClientId) (plaintext : List Char)
  | rotate (k : ApiKeyId) (plaintext : List Char)
  | revoke (k : ApiKeyId)
  | deleteClient (c : ClientId)

def Register.after (r : Register) : KeyEvent → Register
  | .issue c plaintext => r ++ [⟨c, plaintext, true⟩]
  | .rotate k plaintext => r.modify k Issued.retire ++ (r[k]?.map fun i => ⟨i.clientId, plaintext, true⟩).toList
  | .revoke k => r.modify k Issued.retire
  | .deleteClient c => r.map fun i => if i.clientId = c then i.retire else i

/-- The later register has the keys of the earlier one, with no key live that was not. -/
def Register.Extends (r r' : Register) : Prop :=
  ∀ (j : ℕ) i, r[j]? = some i → ∃ live, r'[j]? = some { i with live := live } ∧ (live = true → i.live = true)

namespace Register

theorem Extends.refl (r : Register) : r.Extends r := fun _ i h => ⟨i.live, h, id⟩

theorem Extends.trans {r₁ r₂ r₃ : Register} (h : r₁.Extends r₂) (h' : r₂.Extends r₃) : r₁.Extends r₃ := by
  intro j i hi
  obtain ⟨live, hj, hlive⟩ := h j i hi
  obtain ⟨live', hj', hlive'⟩ := h' j _ hj
  exact ⟨live', hj', fun h => hlive (hlive' h)⟩

theorem extends_append (r more : Register) : r.Extends (r ++ more) := fun _ i hi =>
  ⟨i.live, List.getElem?_append_left (List.getElem?_eq_some_iff.mp hi).1 ▸ hi, id⟩

theorem extends_modify (r : Register) (k : ApiKeyId) : r.Extends (r.modify k Issued.retire) := by
  intro j i hi
  by_cases hk : k = j
  · subst hk
    exact ⟨false, by rw [List.getElem?_modify_eq, hi]; rfl, nofun⟩
  · exact ⟨i.live, by rw [List.getElem?_modify_ne _ _ hk]; exact hi, id⟩

/-- No event makes a key live again. -/
theorem extends_after (r : Register) (e : KeyEvent) : r.Extends (r.after e) := by
  cases e with
  | issue c plaintext => exact extends_append r _
  | rotate k plaintext => exact (extends_modify r k).trans (extends_append _ _)
  | revoke k => exact extends_modify r k
  | deleteClient c =>
    intro j i hi
    by_cases hc : i.clientId = c
    · exact ⟨false, by simp [Register.after, hi, hc, Issued.retire], nofun⟩
    · exact ⟨i.live, by simp [Register.after, hi, hc], id⟩

theorem extends_foldl (events : List KeyEvent) : ∀ r : Register, r.Extends (events.foldl after r) := by
  induction events with
  | nil => exact Extends.refl
  | cons e events ih => exact fun r => (extends_after r e).trans (ih _)

end Register

/-! ## The table and the register -/

section Keys

-- `hashlib.pbkdf2_hmac` of a secret and a salt, in hexadecimal digits
variable (pbkdf2 : List Char → List Char → List Char)

/-- Different secrets have different digests under every salt. -/
def NoCollisions : Prop := ∀ salt, Function.Injective fun secret => pbkdf2 secret salt

/-- The row of an issued key. -/
structure Stands (key : ApiKey) (i : Issued) : Prop where
  clientId : key.clientId = i.clientId
  keyPrefix : key.keyPrefix = shortPrefix i.plaintext
  keyHash : ∃ salt, key.keyHash = hashSecret pbkdf2 i.plaintext salt
  live : key.revokedAt.isNone = i.live

abbrev Represents (apiKeys : List ApiKey) (r : Register) : Prop := List.Forall₂ (Stands pbkdf2) apiKeys r

/-- The client that the key lookup of `require_client` finds for the presented credentials. -/
def authenticate (s : System) (credentials : List Char) : Option ClientId :=
  (findApiKey pbkdf2 s.apiKeys (Text.strip credentials)).map (·.clientId)

/-- What an operation does to the keys, unless it is refused. -/
def keyEvent (s : System) : Operation → Option KeyEvent
  | .account (.deleteClient now c) => (deleteClient now c s).toOption.map fun _ => .deleteClient c
  | .publicSignup plan plaintext salt =>
    (createPublicSignup pbkdf2 plan plaintext salt s).toOption.map fun _ => .issue s.clients.length plaintext
  | .createApiKey c plaintext salt => (createApiKey pbkdf2 c plaintext salt s).toOption.map fun _ => .issue c plaintext
  | .rotateApiKey now k plaintext salt =>
    (rotateApiKey pbkdf2 now k plaintext salt s).toOption.map fun _ => .rotate k plaintext
  | .revokeApiKey now k => (revokeApiKey now k s).toOption.map fun _ => .revoke k
  | _ => none

variable {pbkdf2}

theorem forall₂_modify {α β : Type} {R : α → β → Prop} {f : α → α} {g : β → β} (h : ∀ a b, R a b → R (f a) (g b)) :
    ∀ {l : List α} {l' : List β}, List.Forall₂ R l l' → ∀ k, List.Forall₂ R (l.modify k f) (l'.modify k g)
  | _, _, .nil, k => by simp
  | _, _, .cons hab hl, 0 => .cons (h _ _ hab) hl
  | _, _, .cons hab hl, k + 1 => .cons hab (forall₂_modify h hl k)

theorem forall₂_getElem? {α β : Type} {R : α → β → Prop} {l : List α} {l' : List β} (h : List.Forall₂ R l l')
    {k : ℕ} {a : α} (ha : l[k]? = some a) : ∃ b, l'[k]? = some b ∧ R a b := by
  induction h generalizing k with
  | nil => simp at ha
  | cons hab _ ih =>
    cases k with
    | zero => exact ⟨_, rfl, by simpa using (by simpa using ha : _ = a) ▸ hab⟩
    | succ k => exact ih (by simpa using ha)

theorem Stands.revoke {key : ApiKey} {i : Issued} (h : Stands pbkdf2 key i) (now : Instant) :
    Stands pbkdf2 { key with revokedAt := some now } i.retire :=
  ⟨h.clientId, h.keyPrefix, h.keyHash, rfl⟩

theorem stands_newKey (c : ClientId) (plaintext salt : List Char) :
    Stands pbkdf2 (newKey pbkdf2 c plaintext salt) ⟨c, plaintext, true⟩ := ⟨rfl, rfl, ⟨salt, rfl⟩, rfl⟩

theorem Represents.snoc {apiKeys : List ApiKey} {r : Register} (h : Represents pbkdf2 apiKeys r) {key : ApiKey}
    {i : Issued} (hi : Stands pbkdf2 key i) : Represents pbkdf2 (apiKeys ++ [key]) (r ++ [i]) :=
  List.rel_append h (.cons hi .nil)

/-! ## The lookup -/

section Lookup

variable {apiKeys : List ApiKey} {r : Register} {plaintext : List Char}

/-- The key that is found is a live one with this plaintext. -/
theorem issued_of_findApiKey (hhash : NoCollisions pbkdf2) (h : Represents pbkdf2 apiKeys r) {key : ApiKey}
    (hfind : findApiKey pbkdf2 apiKeys plaintext = some key) :
    ∃ i ∈ r, i.clientId = key.clientId ∧ i.plaintext = plaintext ∧ i.live = true := by
  have hverify : verifySecret pbkdf2 plaintext key.keyHash = true := by
    have hsome := List.find?_some hfind
    exact hsome
  obtain ⟨hmem, hcandidate⟩ := List.mem_filter.mp (List.mem_of_find?_eq_some hfind)
  obtain ⟨k, hk⟩ := List.mem_iff_getElem?.mp (List.mem_reverse.mp hmem)
  obtain ⟨i, hi, hstands⟩ := forall₂_getElem? h hk
  obtain ⟨salt, hsalt⟩ := hstands.keyHash
  have hplaintext : i.plaintext = plaintext := by
    rw [hsalt] at hverify
    exact (hhash salt (of_decide_eq_true hverify)).symm
  have hnone : key.revokedAt.isNone = true := (of_decide_eq_true hcandidate).2
  exact ⟨i, List.mem_of_getElem? hi, hstands.clientId.symm, hplaintext, hstands.live.symm.trans hnone⟩

/-- A live key is found by its plaintext, or another one is. -/
theorem findApiKey_of_issued (h : Represents pbkdf2 apiKeys r) {i : Issued} (hi : i ∈ r) (hlive : i.live = true) :
    ∃ key, findApiKey pbkdf2 apiKeys i.plaintext = some key := by
  obtain ⟨k, hk⟩ := List.mem_iff_getElem?.mp hi
  obtain ⟨key, hkey, hstands⟩ := forall₂_getElem? h.flip hk
  obtain ⟨salt, hsalt⟩ := hstands.keyHash
  have hverify : verifySecret pbkdf2 i.plaintext key.keyHash = true := by
    rw [hsalt]
    exact decide_eq_true rfl
  have hcandidate : key ∈ apiKeys.reverse.filter fun key =>
      key.keyPrefix = shortPrefix i.plaintext ∧ key.revokedAt.isNone := by
    apply List.mem_filter.mpr
    refine ⟨List.mem_reverse.mpr (List.mem_of_getElem? hkey), decide_eq_true ⟨hstands.keyPrefix, ?_⟩⟩
    rw [hstands.live, hlive]
  exact Option.isSome_iff_exists.mp (List.find?_isSome.mpr ⟨key, hcandidate, hverify⟩)

/-- The lookup is exact if no plaintext is issued twice. -/
theorem findApiKey_iff (hhash : NoCollisions pbkdf2) (h : Represents pbkdf2 apiKeys r)
    (hdistinct : (r.map Issued.plaintext).Nodup) {c : ClientId} :
    (findApiKey pbkdf2 apiKeys plaintext).map (·.clientId) = some c ↔
      ∃ i ∈ r, i.clientId = c ∧ i.plaintext = plaintext ∧ i.live = true := by
  constructor
  · intro hfind
    obtain ⟨key, hkey, rfl⟩ := Option.map_eq_some_iff.mp hfind
    exact issued_of_findApiKey hhash h hkey
  · rintro ⟨i, hi, rfl, rfl, hlive⟩
    obtain ⟨key, hkey⟩ := findApiKey_of_issued h hi hlive
    obtain ⟨i', hi', hc, hplaintext, -⟩ := issued_of_findApiKey hhash h hkey
    obtain rfl : i' = i := List.inj_on_of_nodup_map hdistinct hi' hi hplaintext
    rw [hkey, Option.map_some, ← hc]

end Lookup

/-! ## Runs -/

section Runs

variable (pbkdf2) (settings : Settings) (suspendAfterDays : ℤ)

/-- The events of a run. -/
def keyEvents : System → List Operation → List KeyEvent
  | _, [] => []
  | s, op :: ops => (keyEvent pbkdf2 s op).toList ++ keyEvents (next pbkdf2 settings suspendAfterDays s op) ops

/-- The register after a run that starts without keys. -/
def registerAfter (s : System) (ops : List Operation) : Register :=
  (keyEvents pbkdf2 settings suspendAfterDays s ops).foldl Register.after []

variable {pbkdf2 settings suspendAfterDays}

theorem keyEvents_append (ops₁ ops₂ : List Operation) : ∀ s, keyEvents pbkdf2 settings suspendAfterDays s (ops₁ ++ ops₂) =
    keyEvents pbkdf2 settings suspendAfterDays s ops₁ ++
      keyEvents pbkdf2 settings suspendAfterDays (ops₁.foldl (next pbkdf2 settings suspendAfterDays) s) ops₂ := by
  induction ops₁ with
  | nil => exact fun s => rfl
  | cons op ops ih => exact fun s => by simp [keyEvents, ih]

/-- A refused handler does nothing, and one that is not refused does what its event says. -/
theorem represents_orSame {s : System} {r : Register} (h : Represents pbkdf2 s.apiKeys r) {e : KeyEvent}
    {result : Except HTTPException System}
    (hok : ∀ t, result = .ok t → Represents pbkdf2 t.apiKeys (r.after e)) :
    Represents pbkdf2 (s.orSame result).apiKeys ((result.toOption.map fun _ => e).toList.foldl Register.after r) := by
  cases result with
  | error _ => exact h
  | ok t => exact hok t rfl

/-- A handler that leaves the keys alone. -/
theorem apiKeys_orSame {s : System} {result : Except HTTPException System}
    (h : ∀ t, result = .ok t → t.apiKeys = s.apiKeys) : (s.orSame result).apiKeys = s.apiKeys := by
  cases result with
  | error _ => rfl
  | ok t => exact h t rfl

theorem apiKeys_changeAccess {f : ClientAccess → ClientAccess} {c : ClientId} {s t : System}
    (h : changeAccess f c s = .ok t) : t.apiKeys = s.apiKeys := by
  unfold changeAccess at h
  split_ifs at h
  cases h
  rfl

theorem apiKeys_patchClient {c : ClientId} {patch : ClientPatch} {s t : System} (h : patchClient c patch s = .ok t) :
    t.apiKeys = s.apiKeys := by
  unfold patchClient at h
  split at h
  · cases h
  · cases h
    rfl

theorem apiKeys_createClient {plan : Option Billing.BillingPlan} {quota : ℤ} {allow block : List String} {s t : System}
    (h : createClient plan quota allow block s = .ok t) : t.apiKeys = s.apiKeys := by
  cases plan with
  | none => cases h
  | some plan =>
    cases h
    rfl

theorem represents_deleteClient {now : Instant} {c : ClientId} {s t : System} {r : Register}
    (h : Represents pbkdf2 s.apiKeys r) (hdelete : deleteClient now c s = .ok t) :
    Represents pbkdf2 t.apiKeys (r.after (.deleteClient c)) := by
  unfold deleteClient at hdelete
  split at hdelete
  · cases hdelete
  · cases hdelete
    refine List.forall₂_map_left_iff.mpr (List.forall₂_map_right_iff.mpr (h.imp ?_))
    intro key i hstands
    by_cases hc : i.clientId = c
    · rw [if_pos hc, if_pos (hstands.clientId.trans hc)]
      exact hstands.revoke now
    · rw [if_neg hc, if_neg fun h => hc (hstands.clientId.symm.trans h)]
      exact hstands

theorem represents_rotateApiKey {now : Instant} {k : ApiKeyId} {plaintext salt : List Char} {s t : System}
    {r : Register} (h : Represents pbkdf2 s.apiKeys r) (hrotate : rotateApiKey pbkdf2 now k plaintext salt s = .ok t) :
    Represents pbkdf2 t.apiKeys (r.after (.rotate k plaintext)) := by
  unfold rotateApiKey at hrotate
  split at hrotate
  · cases hrotate
  · rename_i key hkey
    split_ifs at hrotate
    cases hrotate
    obtain ⟨i, hi, hstands⟩ := forall₂_getElem? h hkey
    rw [Register.after, hi, hstands.clientId]
    exact Represents.snoc (forall₂_modify (fun _ _ hst => hst.revoke now) h k) (stands_newKey _ _ _)

/-- The table stands for the register after every operation. -/
theorem represents_next {s : System} {r : Register} (h : Represents pbkdf2 s.apiKeys r) (op : Operation) :
    Represents pbkdf2 (next pbkdf2 settings suspendAfterDays s op).apiKeys
      ((keyEvent pbkdf2 s op).toList.foldl Register.after r) := by
  have hsame : ∀ t : System, t.apiKeys = s.apiKeys → Represents pbkdf2 t.apiKeys r := fun t ht => ht ▸ h
  cases op with
  | account op =>
    cases op with
    | deleteClient now c => exact represents_orSame h fun t ht => represents_deleteClient h ht
    | billing billing => exact h
    | changePlans plans quotas => exact h
  | createClient plan quota allow block => exact hsame _ (apiKeys_orSame fun t ht => apiKeys_createClient ht)
  | publicSignup plan plaintext salt =>
    refine represents_orSame h fun t ht => ?_
    cases plan with
    | error e => cases ht
    | ok plan =>
      cases ht
      exact Represents.snoc h (stands_newKey _ _ _)
  | blockClient c => exact hsame _ (apiKeys_orSame fun t ht => apiKeys_changeAccess ht)
  | unblockClient c => exact hsame _ (apiKeys_orSame fun t ht => apiKeys_changeAccess ht)
  | suspendClientSecurity c => exact hsame _ (apiKeys_orSame fun t ht => apiKeys_changeAccess ht)
  | unsuspendClientSecurity c => exact hsame _ (apiKeys_orSame fun t ht => apiKeys_changeAccess ht)
  | patchClient c patch => exact hsame _ (apiKeys_orSame fun t ht => apiKeys_patchClient ht)
  | createApiKey c plaintext salt =>
    refine represents_orSame h fun t ht => ?_
    unfold createApiKey at ht
    split_ifs at ht
    cases ht
    exact Represents.snoc h (stands_newKey _ _ _)
  | rotateApiKey now k plaintext salt => exact represents_orSame h fun t ht => represents_rotateApiKey h ht
  | revokeApiKey now k =>
    refine represents_orSame h fun t ht => ?_
    unfold revokeApiKey at ht
    split_ifs at ht
    cases ht
    exact forall₂_modify (fun _ _ hst => hst.revoke now) h k
  | request env credentials sourceIp request =>
    apply hsame
    show (handle pbkdf2 settings env credentials sourceIp request s).apiKeys = s.apiKeys
    unfold handle
    split <;> rfl
  | work env models => exact h
  | elsewhere e => exact h

/-- The table stands for the register after every run. -/
theorem represents_run (ops : List Operation) : ∀ {s : System} {r : Register}, Represents pbkdf2 s.apiKeys r →
    Represents pbkdf2 (ops.foldl (next pbkdf2 settings suspendAfterDays) s).apiKeys
      ((keyEvents pbkdf2 settings suspendAfterDays s ops).foldl Register.after r) := by
  induction ops with
  | nil => exact fun h => h
  | cons op ops ih =>
    intro s r h
    rw [keyEvents, List.foldl_append, List.foldl_cons]
    exact ih (represents_next h op)

/-- **Keys authenticate exactly their holders.** In every run that starts without keys, whatever else is done in it and
whatever prefixes the keys share, a text is let through as a client just if, stripped, it is the plaintext of a key of
that client that has been neither revoked nor rotated nor deleted with the client; and a key that has stopped
authenticating does not authenticate later. -/
theorem keys_authenticate_holders (hhash : NoCollisions pbkdf2) {s : System} (hs : s.apiKeys = [])
    (ops₁ ops₂ : List Operation)
    (hdistinct : ((registerAfter pbkdf2 settings suspendAfterDays s (ops₁ ++ ops₂)).map Issued.plaintext).Nodup) :
    (∀ credentials c, authenticate pbkdf2 ((ops₁ ++ ops₂).foldl (next pbkdf2 settings suspendAfterDays) s) credentials =
        some c ↔ ∃ i ∈ registerAfter pbkdf2 settings suspendAfterDays s (ops₁ ++ ops₂),
          i.clientId = c ∧ i.plaintext = Text.strip credentials ∧ i.live = true) ∧
      ∀ i ∈ registerAfter pbkdf2 settings suspendAfterDays s ops₁, ∀ credentials,
        Text.strip credentials = i.plaintext →
        authenticate pbkdf2 (ops₁.foldl (next pbkdf2 settings suspendAfterDays) s) credentials = none →
        authenticate pbkdf2 ((ops₁ ++ ops₂).foldl (next pbkdf2 settings suspendAfterDays) s) credentials = none := by
  have hempty : Represents pbkdf2 s.apiKeys [] := by
    rw [hs]
    exact .nil
  have hlater := @represents_run pbkdf2 settings suspendAfterDays (ops₁ ++ ops₂) _ _ hempty
  have hearlier := @represents_run pbkdf2 settings suspendAfterDays ops₁ _ _ hempty
  refine ⟨fun credentials c => findApiKey_iff hhash hlater hdistinct, ?_⟩
  intro i hi credentials hcredentials hnone
  by_contra hsome
  obtain ⟨c, hc⟩ := Option.ne_none_iff_exists'.mp hsome
  obtain ⟨i', hi', -, hplaintext, hlive'⟩ := (findApiKey_iff hhash hlater hdistinct).mp hc
  obtain ⟨j, hj⟩ := List.mem_iff_getElem?.mp hi
  have hextends : (registerAfter pbkdf2 settings suspendAfterDays s ops₁).Extends
      (registerAfter pbkdf2 settings suspendAfterDays s (ops₁ ++ ops₂)) := by
    rw [registerAfter, registerAfter, keyEvents_append, List.foldl_append]
    exact Register.extends_foldl _ _
  obtain ⟨live, hlater', hlive⟩ := hextends j i hj
  -- no other key has the plaintext
  obtain rfl : i' = { i with live := live } :=
    List.inj_on_of_nodup_map hdistinct hi' (List.mem_of_getElem? hlater') (hplaintext.trans hcredentials)
  obtain ⟨key, hkey⟩ := findApiKey_of_issued hearlier hi (hlive hlive')
  rw [authenticate, hcredentials, hkey] at hnone
  cases hnone

end Runs

end Keys

theorem joined_noCollisions : NoCollisions joined := fun salt => List.append_left_injective salt

/-- One client without keys. -/
def withoutKeys : System := { beforeDeletion with apiKeys := [] }

/-- Two keys with one prefix, of which the first is rotated. -/
def sharedPrefix : List Operation :=
  [.createApiKey 0 "sk-local-aaaa1".toList "5a".toList, .createApiKey 0 "sk-local-aaaa2".toList "6b".toList,
    .rotateApiKey 7 0 "sk-local-aaaa3".toList "7c".toList]

/-- Then the second one is revoked, a fourth one is issued, and the client is blocked and unblocked. -/
def afterRotation : List Operation :=
  [.revokeApiKey 8 1, .blockClient 0, .createApiKey 0 "sk-local-aaaa4".toList "8d".toList, .unblockClient 0]

theorem keys_authenticate_holders_shared :
    (∀ credentials c,
      authenticate joined ((sharedPrefix ++ afterRotation).foldl (next joined cachelessSettings 15) withoutKeys)
        credentials = some c ↔
          ∃ i ∈ registerAfter joined cachelessSettings 15 withoutKeys (sharedPrefix ++ afterRotation),
            i.clientId = c ∧ i.plaintext = Text.strip credentials ∧ i.live = true) ∧
      ∀ i ∈ registerAfter joined cachelessSettings 15 withoutKeys sharedPrefix, ∀ credentials,
        Text.strip credentials = i.plaintext →
        authenticate joined (sharedPrefix.foldl (next joined cachelessSettings 15) withoutKeys) credentials = none →
        authenticate joined ((sharedPrefix ++ afterRotation).foldl (next joined cachelessSettings 15) withoutKeys)
          credentials = none :=
  keys_authenticate_holders joined_noCollisions rfl sharedPrefix afterRotation (by decide +kernel)

end LlmStore.Clients
