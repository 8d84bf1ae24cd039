import LlmStore.Clients.Alerts
import LlmStore.Core.JsonLimits
import LlmStore.Inference.AnswerValues
import LlmStore.Lib.LastWriter

/-!
# The metadata of a client

`metadata_json` is one text that several operations read, change and write: the suspensions of
`services/security_monitor.py`, the onboarding of `api/portal.py`, and the patches of `api/admin.py`, which replace it. The
text serves as a record: in every state that a run of these operations commits, each key has the value that its last writer
gave it (`metadata_last_writer`), and from metadata that is read as an object on none of them fails on the text
(`operations_succeed`).
-/

namespace LlmStore.Clients.Metadata

open LlmStore.Lib LlmStore.Lib.LastWriter LlmStore.JsonText
open LlmStore.Clients.Alerts (SecurityEvent)
open LlmStore.Inference (proper_setItem)

/-! ## The operations -/

/-- The columns of a client that the operations read and write, and the events recorded for it. The lists of addresses are
those that `_parse_json_list` reads from their columns. -/
structure Client extends ClientAccess where
  id : String
  billingStatus : Billing.BillingStatus := .active
  metadataJson : Option (List Char)
  events : List SecurityEvent := []

/-- How a handler ends without an answer. -/
inductive Failure where
  | http (e : HTTPException)
  | pyError (e : PyError)
  /-- The database refuses the values of the row. -/
  | databaseError

/-- `metadata[key] = value`. -/
def assign (key : String) (value : Json) : Json → Except PyError Json
  | .obj fields => .ok (.obj (Json.setItem key value fields))
  | _ => .error .typeError

/-- `metadata.pop(key, None)`; the `pop` of a list takes no default. -/
def pop (key : String) : Json → Except PyError Json
  | .obj fields => .ok (.obj (Json.exclude [key] fields))
  | .arr _ => .error .typeError
  | _ => .error .attributeError

section Texts

variable (decoder : Decoder)

/-- `json.loads(client.metadata_json) if client.metadata_json else {}`. -/
def storedMetadata : Option (List Char) → Except PyError Json
  | none => .ok (.obj [])
  | some raw => if raw = [] then .ok (.obj []) else decoder.loads raw

/-- What the security functions read: text that is no JSON is kept under a key of its own. -/
def securityMetadata (metadataJson : Option (List Char)) : Except PyError Json :=
  match storedMetadata decoder metadataJson with
  | .error .jsonDecodeError => .ok (.obj [("raw_metadata", .str (metadataJson.getD []))])
  | result => result

/-- The event of a suspension. -/
def clientSuspended (client : Client) (reason : String) : SecurityEvent where
  eventType := "client_suspended"
  severity := "high"
  title := "Client suspended by security action"
  clientId := some client.id
  details := [("reason", .str reason.toList)]

/-- `suspend_client_for_security`. -/
def suspendClientForSecurity (reason now : String) (client : Client) : Except PyError Client := do
  let metadata ← securityMetadata decoder client.metadataJson
  let metadata ← assign "security_suspension_reason" (.str reason.toList) metadata
  let metadata ← assign "security_suspended_at" (.str now.toList) metadata
  .ok
    { client with
      isBlocked := true
      metadataJson := some (dumps .default metadata)
      events := client.events ++ [clientSuspended client reason] }

/-- The event of the end of a suspension. -/
def clientUnsuspended (client : Client) : SecurityEvent where
  eventType := "client_unsuspended"
  severity := "medium"
  title := "Client unsuspended by security action"
  clientId := some client.id
  details := []

/-- `unsuspend_client_for_security`. -/
def unsuspendClientForSecurity (now : String) (client : Client) : Except PyError Client := do
  let metadata ← securityMetadata decoder client.metadataJson
  let metadata ← pop "security_suspension_reason" metadata
  let metadata ← assign "security_unsuspended_at" (.str now.toList) metadata
  .ok
    { client with
      isBlocked := false
      metadataJson := some (dumps .default metadata)
      events := client.events ++ [clientUnsuspended client] }

/-- What `record_onboarding_event` makes of the metadata. -/
def onboard (event : String) (metadata : Json) : Except PyError Json :=
  if event = "portal_tutorial_closed" then assign "onboarding_finished" (.bool true) metadata else .ok metadata

/-- `record_onboarding_event`. -/
def recordOnboardingEvent (event : String) (client : Client) : Except PyError Client := do
  let metadata ← storedMetadata decoder client.metadataJson
  let metadata ← onboard event metadata
  .ok { client with metadataJson := some (dumps .default metadata) }

/-! ## Requests -/

/-- The event of `enforce_client_ip_policy`. -/
def ipPolicyEvent (client : Client) (sourceIp : String) : SecurityEvent :=
  if sourceIp ∈ client.ipBlocklist then
    { eventType := "ip_blocklist_match", severity := "high", title := "Request from blocked IP", clientId := some client.id
      details := [("source_ip", .str sourceIp.toList)] }
  else
    { eventType := "ip_allowlist_miss", severity := "high", title := "Request outside allowlist", clientId := some client.id
      details := [("source_ip", .str sourceIp.toList), ("allowlist_size", .int client.ipAllowlist.length)] }

/-- What `require_client` raises for a key of the client, and the event that it commits before. -/
def requireClient (client : Client) (sourceIp : String) : Except (HTTPException × Option SecurityEvent) Unit :=
  if client.isBlocked then .error (⟨403, "client blocked or not found"⟩, none)
  else if client.billingStatus = .suspended then .error (⟨403, "client suspended for billing"⟩, none)
  else (enforceClientIpPolicy client.toClientAccess sourceIp).mapError fun e => (e, some (ipPolicyEvent client sourceIp))

/-- It is `require_client` on the tables, once the key is found. -/
theorem requireClient_eq {pbkdf2 : List Char → List Char → List Char} {s : System} {credentials : List Char} {key : ApiKey}
    (hkey : findApiKey pbkdf2 s.apiKeys (Text.strip credentials) = some key) {row : Billing.Client}
    (hrow : s.clients[key.clientId]? = some row) {client : Client} (haccess : client.toClientAccess = s.access key.clientId)
    (hstatus : client.billingStatus = row.billingStatus) (sourceIp : String) :
    (Clients.requireClient pbkdf2 s (some credentials) sourceIp).map (fun _ => ()) =
      (requireClient client sourceIp).mapError Prod.fst := by
  simp only [Clients.requireClient, hkey, hrow, ← haccess, ← hstatus, requireClient]
  split_ifs
  · rfl
  · rfl
  · cases enforceClientIpPolicy client.toClientAccess sourceIp <;> rfl

/-- `_parse_json_list` of a list of texts. -/
def parseJsonList (items : List String) : List String :=
  (items.map fun item => String.ofList (Text.strip item.toList)).filter (· ≠ "")

/-- `ClientPatch`: the fields that the operations read or that can fail; `none` for a field that is not set. -/
structure ClientPatch where
  isBlocked : Option (Option Bool) := none
  billingStatus : Option (Option Billing.BillingStatus) := none
  ipAllowlist : Option (List String) := none
  ipBlocklist : Option (List String) := none
  metadataJson : Option (Option (List Char)) := none
  /-- The patch names a billing plan that there is not. -/
  unknownPlan : Bool := false
  /-- The database refuses the value of another column. -/
  refusedColumn : Bool := false

/-- The columns take no null, and a text no NUL. -/
def ClientPatch.refused (patch : ClientPatch) : Bool :=
  patch.isBlocked = some none || patch.billingStatus = some none || patch.refusedColumn ||
    (patch.metadataJson.bind id).any fun text => text.contains (Char.ofNat 0)

/-- `patch_client`. -/
def patchClient (patch : ClientPatch) (client : Client) : Except Failure Client :=
  if patch.unknownPlan then .error (.http ⟨404, "billing plan not found"⟩)
  else if patch.refused then .error .databaseError
  else
    .ok
      { client with
        isBlocked := (patch.isBlocked.bind id).getD client.isBlocked
        billingStatus := (patch.billingStatus.bind id).getD client.billingStatus
        ipAllowlist := (patch.ipAllowlist.map parseJsonList).getD client.ipAllowlist
        ipBlocklist := (patch.ipBlocklist.map parseJsonList).getD client.ipBlocklist
        metadataJson := patch.metadataJson.getD client.metadataJson }

/-- What is asked for, with the time of a suspension in ISO format. -/
inductive Operation where
  | suspend (now : String)
  | unsuspend (now : String)
  | block
  | unblock
  | patch (patch : ClientPatch)
  /-- `POST /onboarding/event` with a key of the client. -/
  | onboarding (sourceIp event : String)

/-- What a handler commits, and how it ends. -/
structure Outcome where
  committed : Option Client
  result : Except Failure Unit

/-- A handler that commits at its end. -/
def Outcome.of : Except Failure Client → Outcome
  | .ok client => ⟨some client, .ok ()⟩
  | .error e => ⟨none, .error e⟩

/-- The handlers. -/
def handle (client : Client) : Operation → Outcome
  | .suspend now =>
    .of ((suspendClientForSecurity decoder "manual_admin_security_action" now client).mapError .pyError)
  | .unsuspend now => .of ((unsuspendClientForSecurity decoder now client).mapError .pyError)
  | .block => .of (.ok { client with isBlocked := true })
  | .unblock => .of (.ok { client with isBlocked := false })
  | .patch patch => .of (patchClient patch client)
  | .onboarding sourceIp event =>
    match requireClient client sourceIp with
    | .error (e, recorded) => ⟨recorded.map fun r => { client with events := client.events ++ [r] }, .error (.http e)⟩
    | .ok () => .of ((recordOnboardingEvent decoder event client).mapError .pyError)

/-- The states that an operation commits: one or none. -/
def commits (client : Client) (operation : Operation) : List Client := (handle decoder client operation).committed.toList

end Texts

/-! ## The record -/

/-- What can be written. -/
inductive Row where
  | isBlocked
  | key (name : String)
  deriving DecidableEq

section Record

variable (decoder : Decoder)

/-- The value under a key of a text. -/
def valueOf (metadataJson : Option (List Char)) (name : String) : Option Json :=
  match securityMetadata decoder metadataJson with
  | .ok (.obj fields) => fields.lookup name
  | _ => none

/-- The client as a record. -/
def Client.view (client : Client) : Record Row Json
  | .isBlocked => some (.bool client.isBlocked)
  | .key name => valueOf decoder client.metadataJson name

/-- What an operation on a client gives the rows. A request that is refused gives them nothing. -/
def Operation.gives (client : Client) (record : Record Row Json) : Operation → Record Row Json
  | .suspend now =>
    Function.update (Function.update (Function.update record .isBlocked (some (.bool true)))
      (.key "security_suspension_reason") (some (.str "manual_admin_security_action".toList)))
      (.key "security_suspended_at") (some (.str now.toList))
  | .unsuspend now =>
    Function.update (Function.update (Function.update record .isBlocked (some (.bool false)))
      (.key "security_suspension_reason") none) (.key "security_unsuspended_at") (some (.str now.toList))
  | .block => Function.update record .isBlocked (some (.bool true))
  | .unblock => Function.update record .isBlocked (some (.bool false))
  | .patch p => fun row =>
    match row with
    | .isBlocked => ((p.isBlocked.bind id).map fun b => some (Json.bool b)).getD (record .isBlocked)
    | .key name => (p.metadataJson.map fun text => valueOf decoder text name).getD (record (.key name))
  | .onboarding sourceIp event =>
    if (requireClient client sourceIp).isOk ∧ event = "portal_tutorial_closed" then
      Function.update record (.key "onboarding_finished") (some (.bool true))
    else record

end Record

/-! ## Texts -/

section Texts

variable {decoder : Decoder} {fields : List (String × Json)} {metadataJson : Option (List Char)} {key : String} {v : Json}

theorem lookup_exclude (key : String) (fields : List (String × Json)) (name : String) :
    (Json.exclude [key] fields).lookup name = if name = key then none else fields.lookup name := by
  induction fields with
  | nil => simp [Json.exclude]
  | cons field fields ih =>
    obtain ⟨k, w⟩ := field
    rw [Json.exclude] at ih ⊢
    by_cases hk : k = key
    · subst hk
      rw [List.filter_cons_of_neg (by simp), ih]
      split_ifs with hname
      · rfl
      · simp [List.lookup_cons, beq_eq_false_iff_ne.mpr hname]
    · rw [List.filter_cons_of_pos (by simpa using hk), List.lookup_cons, ih, List.lookup_cons]
      by_cases hname : name = k
      · subst hname
        simp [hk]
      · simp [beq_eq_false_iff_ne.mpr hname]

theorem proper_exclude (keys : List String) (h : Proper (.obj fields)) : Proper (.obj (Json.exclude keys fields)) := by
  cases h with
  | obj hkeys hvalues =>
    exact .obj (hkeys.sublist (List.Sublist.map _ List.filter_sublist)) fun field hf =>
      hvalues field (List.mem_of_mem_filter hf)

/-- The object can be written and is read again. -/
structure Storable (decoder : Decoder) (fields : List (String × Json)) : Prop where
  proper : Proper (.obj fields)
  within : Json.within decoder.depth (.obj fields) = true

theorem storable_nil (decoder : Decoder) : Storable decoder [] where
  proper := .obj List.nodup_nil fun _ hf => absurd hf List.not_mem_nil
  within := by
    obtain ⟨d, hd⟩ := Nat.exists_eq_succ_of_ne_zero decoder.depth_pos.ne'
    rw [hd]
    exact Json.within_obj_iff.mpr fun _ hf => absurd hf List.not_mem_nil

namespace Storable

theorem setStr (h : Storable decoder fields) (key : String) (s : List Char) :
    Storable decoder (Json.setItem key (.str s) fields) :=
  ⟨proper_setItem h.proper (.str s), Json.within_setItem key (fun _ => Json.within_str s) h.within⟩

theorem setBool (h : Storable decoder fields) (key : String) (b : Bool) :
    Storable decoder (Json.setItem key (.bool b) fields) :=
  ⟨proper_setItem h.proper (.bool b), Json.within_setItem key (fun _ => Json.within_bool b) h.within⟩

theorem exclude (h : Storable decoder fields) (keys : List String) : Storable decoder (Json.exclude keys fields) :=
  ⟨proper_exclude keys h.proper, Json.within_exclude keys h.within⟩

theorem single (decoder : Decoder) (key : String) (s : List Char) : Storable decoder [(key, .str s)] :=
  (storable_nil decoder).setStr key s

end Storable

/-- What can be written and is within the limits is read again. -/
theorem storedMetadata_dumps (hv : Proper v) (hwithin : Json.within decoder.depth v = true) :
    storedMetadata decoder (some (dumps .default v)) = .ok v := by
  obtain ⟨c, t, hdumps, -⟩ := head_dumps .default v
  have hne : dumps .default v ≠ [] := by
    rw [hdumps]
    exact List.cons_ne_nil _ _
  rw [storedMetadata, if_neg hne]
  exact Decoder.loads_dumps hv hwithin

/-- A text that is not absent or empty has been read. -/
theorem storedMetadata_cases (h : storedMetadata decoder metadataJson = .ok v) :
    v = .obj [] ∨ ∃ raw, decoder.loads raw = .ok v := by
  cases metadataJson with
  | none => exact .inl (Except.ok.inj h).symm
  | some raw =>
    rw [storedMetadata] at h
    split_ifs at h
    · exact .inl (Except.ok.inj h).symm
    · exact .inr ⟨raw, h⟩

theorem proper_storedMetadata (h : storedMetadata decoder metadataJson = .ok v) : Proper v := by
  rcases storedMetadata_cases h with rfl | ⟨raw, hraw⟩
  · exact (storable_nil decoder).proper
  · exact Decoder.proper_of_loads hraw

theorem within_storedMetadata (h : storedMetadata decoder metadataJson = .ok v) :
    Json.within decoder.depth v = true := by
  rcases storedMetadata_cases h with rfl | ⟨raw, hraw⟩
  · exact (storable_nil decoder).within
  · exact Decoder.within_loads hraw

theorem securityMetadata_of_ok (h : storedMetadata decoder metadataJson = .ok v) :
    securityMetadata decoder metadataJson = .ok v := by
  rw [securityMetadata, h]

theorem storable_storedMetadata (h : storedMetadata decoder metadataJson = .ok (.obj fields)) : Storable decoder fields :=
  ⟨proper_storedMetadata h, within_storedMetadata h⟩

theorem storable_securityMetadata (h : securityMetadata decoder metadataJson = .ok (.obj fields)) :
    Storable decoder fields := by
  unfold securityMetadata at h
  split at h
  · obtain rfl := Json.obj.inj (Except.ok.inj h)
    exact .single decoder _ _
  · exact storable_storedMetadata h

theorem valueOf_eq (h : securityMetadata decoder metadataJson = .ok (.obj fields)) (name : String) :
    valueOf decoder metadataJson name = fields.lookup name := by
  rw [valueOf, h]

theorem valueOf_dumps (h : Storable decoder fields) (name : String) :
    valueOf decoder (some (dumps .default (.obj fields))) name = fields.lookup name :=
  valueOf_eq (securityMetadata_of_ok (storedMetadata_dumps h.proper h.within)) name

end Texts

/-! ## One operation -/

section Operations

variable {decoder : Decoder} {client client' : Client} {fields : List (String × Json)} {reason now event : String}

/-- The client after a suspension. -/
theorem suspend_eq (h : securityMetadata decoder client.metadataJson = .ok (.obj fields)) :
    suspendClientForSecurity decoder reason now client = .ok
      { client with
        isBlocked := true
        metadataJson := some (dumps .default (.obj (Json.setItem "security_suspended_at" (.str now.toList)
          (Json.setItem "security_suspension_reason" (.str reason.toList) fields))))
        events := client.events ++ [clientSuspended client reason] } := by
  rw [suspendClientForSecurity, h]
  rfl

theorem unsuspend_eq (h : securityMetadata decoder client.metadataJson = .ok (.obj fields)) :
    unsuspendClientForSecurity decoder now client = .ok
      { client with
        isBlocked := false
        metadataJson := some (dumps .default (.obj (Json.setItem "security_unsuspended_at" (.str now.toList)
          (Json.exclude ["security_suspension_reason"] fields))))
        events := client.events ++ [clientUnsuspended client] } := by
  rw [unsuspendClientForSecurity, h]
  rfl

theorem onboarding_eq {v : Json} (h : storedMetadata decoder client.metadataJson = .ok v) {w : Json}
    (hw : onboard event v = .ok w) :
    recordOnboardingEvent decoder event client = .ok { client with metadataJson := some (dumps .default w) } := by
  rw [recordOnboardingEvent, h]
  show (onboard event v >>= _) = _
  rw [hw]
  rfl

theorem exists_fields_of_suspend (h : suspendClientForSecurity decoder reason now client = .ok client') :
    ∃ fields, securityMetadata decoder client.metadataJson = .ok (.obj fields) := by
  obtain ⟨metadata, hmetadata, hrest⟩ := bind_eq_ok_iff.mp h
  obtain ⟨_, hreason, -⟩ := bind_eq_ok_iff.mp hrest
  cases metadata with
  | obj fields => exact ⟨fields, hmetadata⟩
  | _ => cases hreason

theorem exists_fields_of_unsuspend (h : unsuspendClientForSecurity decoder now client = .ok client') :
    ∃ fields, securityMetadata decoder client.metadataJson = .ok (.obj fields) := by
  obtain ⟨metadata, hmetadata, hrest⟩ := bind_eq_ok_iff.mp h
  obtain ⟨_, hreason, -⟩ := bind_eq_ok_iff.mp hrest
  cases metadata with
  | obj fields => exact ⟨fields, hmetadata⟩
  | _ => cases hreason

theorem view_suspend (h : suspendClientForSecurity decoder reason now client = .ok client') :
    client'.view decoder = Function.update (Function.update (Function.update (client.view decoder) .isBlocked
      (some (.bool true))) (.key "security_suspension_reason") (some (.str reason.toList)))
      (.key "security_suspended_at") (some (.str now.toList)) := by
  obtain ⟨fields, hmetadata⟩ := exists_fields_of_suspend h
  have hstorable := storable_securityMetadata hmetadata
  obtain rfl := Except.ok.inj ((suspend_eq hmetadata).symm.trans h)
  funext row
  cases row with
  | isBlocked => rfl
  | key name =>
    show valueOf decoder _ name = _
    rw [valueOf_dumps ((hstorable.setStr _ _).setStr _ _), Json.lookup_setItem, Json.lookup_setItem]
    simp only [Function.update_apply, Row.key.injEq, reduceCtorEq, if_false, Client.view, valueOf_eq hmetadata]

theorem view_unsuspend (h : unsuspendClientForSecurity decoder now client = .ok client') :
    client'.view decoder = Function.update (Function.update (Function.update (client.view decoder) .isBlocked
      (some (.bool false))) (.key "security_suspension_reason") none)
      (.key "security_unsuspended_at") (some (.str now.toList)) := by
  obtain ⟨fields, hmetadata⟩ := exists_fields_of_unsuspend h
  have hstorable := storable_securityMetadata hmetadata
  obtain rfl := Except.ok.inj ((unsuspend_eq hmetadata).symm.trans h)
  funext row
  cases row with
  | isBlocked => rfl
  | key name =>
    show valueOf decoder _ name = _
    rw [valueOf_dumps ((hstorable.exclude _).setStr _ _), Json.lookup_setItem, lookup_exclude]
    simp only [Function.update_apply, Row.key.injEq, reduceCtorEq, if_false, Client.view, valueOf_eq hmetadata]

theorem view_onboarding (h : recordOnboardingEvent decoder event client = .ok client') :
    client'.view decoder = if event = "portal_tutorial_closed" then
      Function.update (client.view decoder) (.key "onboarding_finished") (some (.bool true)) else client.view decoder := by
  obtain ⟨metadata, hstored, hrest⟩ := bind_eq_ok_iff.mp h
  obtain ⟨metadata', honboard, -⟩ := bind_eq_ok_iff.mp hrest
  obtain rfl := Except.ok.inj ((onboarding_eq hstored honboard).symm.trans h)
  have hmetadata := securityMetadata_of_ok hstored
  unfold onboard at honboard
  split_ifs at honboard ⊢ with hevent
  · cases metadata with
    | obj fields =>
      have hstorable := storable_storedMetadata hstored
      obtain rfl := Except.ok.inj honboard
      funext row
      cases row with
      | isBlocked => rfl
      | key name =>
        show valueOf decoder _ name = _
        rw [valueOf_dumps (hstorable.setBool _ _), Json.lookup_setItem]
        simp only [Function.update_apply, Row.key.injEq, Client.view, valueOf_eq hmetadata]
    | _ => cases honboard
  · obtain rfl := Except.ok.inj honboard
    have hagain := storedMetadata_dumps (proper_storedMetadata hstored) (within_storedMetadata hstored)
    funext row
    cases row with
    | isBlocked => rfl
    | key name =>
      show valueOf decoder _ name = valueOf decoder _ name
      rw [valueOf, valueOf, hmetadata, securityMetadata_of_ok hagain]

/-- What a patch that succeeds makes of a client. -/
theorem view_patch {patch : ClientPatch} (h : patchClient patch client = .ok client') :
    client'.view decoder = (Operation.patch patch).gives decoder client (client.view decoder) := by
  unfold patchClient at h
  split_ifs at h
  obtain rfl := Except.ok.inj h
  funext row
  cases row with
  | isBlocked =>
    simp only [Client.view, Operation.gives]
    cases patch.isBlocked.bind id <;> rfl
  | key name =>
    simp only [Client.view, Operation.gives]
    cases patch.metadataJson <;> rfl

theorem committed_of {x : Except Failure Client} : (Outcome.of x).committed = some client' ↔ x = .ok client' := by
  cases x <;> simp [Outcome.of]

theorem committed_of_python {x : Except PyError Client} :
    (Outcome.of (x.mapError Failure.pyError)).committed = some client' ↔ x = .ok client' := by
  rw [committed_of]
  cases x <;> simp [Except.mapError]

/-- An operation changes the record as it is asked to. -/
theorem view_of_committed {operation : Operation} (h : (handle decoder client operation).committed = some client') :
    client'.view decoder = operation.gives decoder client (client.view decoder) := by
  cases operation with
  | suspend now => exact view_suspend (committed_of_python.mp h)
  | unsuspend now => exact view_unsuspend (committed_of_python.mp h)
  | block =>
    obtain rfl := Except.ok.inj (committed_of.mp h)
    funext row
    cases row <;> simp [Client.view, Operation.gives]
  | unblock =>
    obtain rfl := Except.ok.inj (committed_of.mp h)
    funext row
    cases row <;> simp [Client.view, Operation.gives]
  | patch patch => exact view_patch (committed_of.mp h)
  | onboarding sourceIp event =>
    rw [handle] at h
    rw [Operation.gives]
    cases hrequire : requireClient client sourceIp with
    | error e =>
      -- The event of a refusal touches neither the flag nor the text.
      obtain ⟨e, recorded⟩ := e
      rw [hrequire] at h
      obtain ⟨r, -, rfl⟩ := Option.map_eq_some_iff.mp h
      rfl
    | ok =>
      rw [hrequire] at h
      rw [view_onboarding (committed_of_python.mp h)]
      simp [Except.isOk, Except.toBool]

end Operations

/-- **No operation undoes another**: in every state that a run commits, the client is blocked or not as was last asked, and
each key of the metadata has the value that the last operation to write it gave it. -/
theorem metadata_last_writer (decoder : Decoder) (client : Client) (operations : List Operation) :
    Recorded (commits decoder) (fun c operation _ record => operation.gives decoder c record) (Client.view decoder) client
      operations := by
  have hstep : ∀ (c : Client) (operation : Operation), True ↔ ∀ t ∈ commits decoder c operation,
      t.view decoder = operation.gives decoder c (c.view decoder) := by
    intro c operation
    exact iff_of_true trivial fun t ht => view_of_committed (Option.mem_toList.mp ht)
  exact (recorded_iff hstep).mpr (along_of_forall (fun _ _ => trivial) _ _)

/-! ## Operations that succeed -/

/-- The text is absent or empty, or `json.loads` reads it as an object. -/
def IsDict (decoder : Decoder) (metadataJson : Option (List Char)) : Prop :=
  ∃ fields, storedMetadata decoder metadataJson = .ok (.obj fields)

/-- A patch of the metadata, if it is one, leaves an object. -/
def Operation.WritesDict (decoder : Decoder) : Operation → Prop
  | .patch p => ∀ text, p.metadataJson = some text → IsDict decoder text
  | _ => True

/-- The operation is not refused for another reason than the text: `require_client` lets a request through, and a patch
names a plan that there is and gives the columns values that they take. -/
def Operation.Admitted (client : Client) : Operation → Prop
  | .patch p => p.unknownPlan = false ∧ p.refused = false
  | .onboarding sourceIp _ => requireClient client sourceIp = .ok ()
  | _ => True

section Success

variable {decoder : Decoder} {client client' : Client} {operation : Operation}

theorem isDict_dumps {fields : List (String × Json)} (h : Storable decoder fields) :
    IsDict decoder (some (dumps .default (.obj fields))) := ⟨fields, storedMetadata_dumps h.proper h.within⟩

theorem of_mapError {x : Except PyError Client} (h : x = .ok client') :
    Outcome.of (x.mapError Failure.pyError) = ⟨some client', .ok ()⟩ := by
  rw [h]
  rfl

/-- From an object on, the operations write objects. -/
theorem exists_handle (h : IsDict decoder client.metadataJson) (hwrites : operation.WritesDict decoder)
    (hadmitted : operation.Admitted client) :
    ∃ client', handle decoder client operation = ⟨some client', .ok ()⟩ ∧ IsDict decoder client'.metadataJson := by
  have hdict := h
  obtain ⟨fields, hstored⟩ := h
  have hstorable := storable_storedMetadata hstored
  have hmetadata := securityMetadata_of_ok hstored
  cases operation with
  | suspend now => exact ⟨_, of_mapError (suspend_eq hmetadata), isDict_dumps ((hstorable.setStr _ _).setStr _ _)⟩
  | unsuspend now => exact ⟨_, of_mapError (unsuspend_eq hmetadata), isDict_dumps ((hstorable.exclude _).setStr _ _)⟩
  | block => exact ⟨_, rfl, hdict⟩
  | unblock => exact ⟨_, rfl, hdict⟩
  | patch patch =>
    obtain ⟨hplan, hcolumns⟩ := hadmitted
    have hpatch : ∃ client', patchClient patch client = .ok client' ∧
        client'.metadataJson = patch.metadataJson.getD client.metadataJson := by
      rw [patchClient, if_neg (by simp [hplan]), if_neg (by simp [hcolumns])]
      exact ⟨_, rfl, rfl⟩
    obtain ⟨client', hclient', htext⟩ := hpatch
    refine ⟨client', by rw [handle, hclient']; rfl, ?_⟩
    rw [htext]
    cases hnew : patch.metadataJson with
    | none => exact hdict
    | some text => exact hwrites text hnew
  | onboarding sourceIp event =>
    have hrequire : requireClient client sourceIp = .ok () := hadmitted
    rw [handle, hrequire]
    by_cases hevent : event = "portal_tutorial_closed"
    · have honboard : onboard event (.obj fields) = .ok (.obj (Json.setItem "onboarding_finished" (.bool true) fields)) :=
        if_pos hevent
      exact ⟨_, of_mapError (onboarding_eq hstored honboard), isDict_dumps (hstorable.setBool _ _)⟩
    · have honboard : onboard event (.obj fields) = .ok (.obj fields) := if_neg hevent
      exact ⟨_, of_mapError (onboarding_eq hstored honboard), isDict_dumps hstorable⟩

/-- What an operation commits that is not admitted has the text that there was. -/
theorem metadataJson_of_not_admitted (h : ¬ operation.Admitted client)
    (hcommitted : (handle decoder client operation).committed = some client') :
    client'.metadataJson = client.metadataJson := by
  cases operation with
  | patch patch =>
    have hpatch := committed_of.mp hcommitted
    unfold patchClient at hpatch
    split_ifs at hpatch with hplan hcolumns
    exact absurd ⟨Bool.eq_false_iff.mpr hplan, Bool.eq_false_iff.mpr hcolumns⟩ h
  | onboarding sourceIp event =>
    rw [handle] at hcommitted
    cases hrequire : requireClient client sourceIp with
    | ok => exact absurd hrequire h
    | error e =>
      rw [hrequire] at hcommitted
      obtain ⟨r, -, rfl⟩ := Option.map_eq_some_iff.mp hcommitted
      rfl
  | _ => exact absurd trivial h

theorem isDict_of_committed (h : IsDict decoder client.metadataJson) (hwrites : operation.WritesDict decoder)
    (hcommitted : (handle decoder client operation).committed = some client') : IsDict decoder client'.metadataJson := by
  by_cases hadmitted : operation.Admitted client
  · obtain ⟨client'', hhandle, hdict⟩ := exists_handle h hwrites hadmitted
    rw [hhandle] at hcommitted
    obtain rfl := Option.some.inj hcommitted
    exact hdict
  · rw [metadataJson_of_not_admitted hadmitted hcommitted]
    exact h

end Success

/-- If the metadata begins as an object and no patch makes it something else, every operation of a run succeeds that is not
refused for another reason. -/
theorem operations_succeed {decoder : Decoder} {client : Client} {operations : List Operation}
    (h : IsDict decoder client.metadataJson) (hwrites : ∀ operation ∈ operations, operation.WritesDict decoder) :
    Along (commitStep (commits decoder))
      (fun c operation => operation.Admitted c → (handle decoder c operation).result = .ok ()) client operations := by
  induction operations generalizing client with
  | nil => trivial
  | cons operation operations ih =>
    have hfirst := hwrites operation List.mem_cons_self
    refine ⟨fun hadmitted => ?_, fun t ht => ih ?_ fun o ho => hwrites o (List.mem_cons_of_mem _ ho)⟩
    · obtain ⟨client', hhandle, -⟩ := exists_handle h hfirst hadmitted
      rw [hhandle]
    · obtain rfl := Option.some.inj ht
      exact after_inv (I := fun (c : Client) => IsDict decoder c.metadataJson) h fun t ht =>
        isDict_of_committed h hfirst (Option.mem_toList.mp ht)

/-- A client that may call from one address. -/
def newcomer : Client where
  isBlocked := false
  ipAllowlist := ["10.0.0.5"]
  id := "7"
  metadataJson := none

/-- Between a suspension and its end the client is refused, and afterwards it is once more, by its address; the patch
writes an object. -/
def suspension : List Operation :=
  [.suspend "2026-05-01T00:00:00+00:00", .onboarding "10.0.0.5" "portal_tutorial_closed",
    .unsuspend "2026-05-02T00:00:00+00:00", .onboarding "10.0.0.6" "portal_tutorial_closed",
    .patch { metadataJson := some (some (dumps .default (.obj [("name", .str "Ana".toList)]))) },
    .onboarding "10.0.0.5" "portal_tutorial_closed"]

theorem operations_succeed_newcomer : Along (commitStep (commits plainDecoder))
    (fun c operation => operation.Admitted c → (handle plainDecoder c operation).result = .ok ()) newcomer suspension := by
  refine operations_succeed ⟨[], rfl⟩ fun operation h => ?_
  simp only [suspension, List.mem_cons, List.not_mem_nil, or_false] at h
  rcases h with rfl | rfl | rfl | rfl | rfl | rfl
  case inr.inr.inr.inr.inl =>
    intro text htext
    obtain rfl := Option.some.inj htext
    exact isDict_dumps (.single plainDecoder _ _)
  all_goals trivial

end LlmStore.Clients.Metadata
