import LlmStore.Billing.Periods
import LlmStore.Clients.System
import LlmStore.Jobs.Idle

/-!
# Deleted clients

`delete_client` marks the row and revokes the keys, and nothing else reads the mark. What keeps a deleted client out
is that it has no key left, which is so until `create_api_key` makes it a new one. The worker and the billing go on:
a job of the client is served like any other, and a month gets its invoice. `deleted_inert` says that these three are
all: in a run without them (`Spares`) the client stays inert.

- what an operation does to the clients, the keys and the invoices (`Effect`, `effect_next`);
- what follows for a client without keys (`Gone`);
- the run on which each of the three happens (`deleted_active`).
-/

namespace LlmStore.Clients

open LlmStore.Calendar LlmStore.Lib LlmStore.Usage LlmStore.Inference LlmStore.Jobs Program

/-! ## What an operation does -/

/-- The months for which clients have invoices, with the clients. -/
abbrev System.periodKeys (s : System) : List (ClientId × Date × Date) := Billing.periodKeys s.accounts.database

/-- A key of the client that is not revoked. -/
def System.HasKey (s : System) (c : ClientId) : Prop := ∃ key ∈ s.apiKeys, key.clientId = c ∧ key.revokedAt = none

/-- The operation makes a call that draws up an invoice for the client. -/
def Operation.DrawsUp (op : Operation) (s : System) (c : ClientId) : Prop :=
  ∃ billing g, op = .account (.billing billing) ∧ billing.generation = some g ∧
    Billing.DrawsUp g s.accounts.database c

/-- The operation is a `create_api_key` for the client. -/
def Operation.CreatesKey (op : Operation) (c : ClientId) : Prop := ∃ plaintext salt, op = .createApiKey c plaintext salt

/-- What an operation that leads from `s` to `t` can do: clients are added at the end; a client has a key only if it
had one, is new, or was given one; and the invoices that are added are drawn up by a generation. -/
structure Effect (op : Operation) (s t : System) : Prop where
  clients : s.clients.length ≤ t.clients.length
  keys : ∀ c, t.HasKey c → s.HasKey c ∨ c = s.clients.length ∨ op.CreatesKey c
  invoices : ∃ new, (∀ k ∈ new, op.DrawsUp s k.1) ∧ t.periodKeys = s.periodKeys ++ new

section Effect

variable {op : Operation} {s t : System}

/-- An operation that leaves the invoices alone and adds no key. -/
theorem effect_of_same (hclients : s.clients.length ≤ t.clients.length)
    (hkeys : ∀ c, t.HasKey c → s.HasKey c ∨ c = s.clients.length ∨ op.CreatesKey c)
    (hinvoices : t.accounts.database.invoices = s.accounts.database.invoices) : Effect op s t where
  clients := hclients
  keys := hkeys
  invoices := ⟨[], nofun, by rw [System.periodKeys, Billing.periodKeys, hinvoices, List.append_nil]; rfl⟩

theorem effect_refl (op : Operation) (s : System) : Effect op s s := effect_of_same le_rfl (fun _ h => .inl h) rfl

/-- Refused handlers have no effect. -/
theorem effect_orSame {r : Except HTTPException System} (h : ∀ t, r = .ok t → Effect op s t) :
    Effect op s (s.orSame r) := by
  cases r with
  | error e => exact effect_refl op s
  | ok t => exact h t rfl

/-- Neither requests nor workers touch the clients, the keys or the invoices. -/
theorem effect_withWorld (op : Operation) (s : System) (w : World) : Effect op s (s.withWorld w) :=
  effect_of_same le_rfl (fun _ h => .inl h) rfl

theorem effect_changeAccess {f : ClientAccess → ClientAccess} {c : ClientId} (h : changeAccess f c s = .ok t) :
    Effect op s t := by
  unfold changeAccess at h
  split_ifs at h
  cases h
  exact effect_of_same le_rfl (fun _ h => .inl h) rfl

/-- A key that is revoked, or one of another client, gives a client none. -/
theorem hasKey_append_iff {apiKeys : List ApiKey} {key : ApiKey} {c : ClientId} :
    (∃ key' ∈ apiKeys ++ [key], key'.clientId = c ∧ key'.revokedAt = none) ↔
      (∃ key' ∈ apiKeys, key'.clientId = c ∧ key'.revokedAt = none) ∨ key.clientId = c ∧ key.revokedAt = none := by
  simp only [List.mem_append, List.mem_singleton, or_and_right, exists_or, exists_eq_left]

theorem hasKey_of_modify {apiKeys : List ApiKey} {k : ApiKeyId} {now : Instant} {c : ClientId}
    (h : ∃ key ∈ apiKeys.modify k (fun key => { key with revokedAt := some now }),
      key.clientId = c ∧ key.revokedAt = none) : ∃ key ∈ apiKeys, key.clientId = c ∧ key.revokedAt = none := by
  obtain ⟨key, hmem, hc, hrevoked⟩ := h
  obtain ⟨j, hj⟩ := List.mem_iff_getElem?.mp hmem
  by_cases hkj : k = j
  · subst hkj
    rw [List.getElem?_modify_eq] at hj
    obtain ⟨old, -, rfl⟩ := Option.map_eq_some_iff.mp hj
    cases hrevoked
  · rw [List.getElem?_modify_ne _ _ hkj] at hj
    exact ⟨key, List.mem_of_getElem? hj, hc, hrevoked⟩

theorem effect_billing (suspendAfterDays : ℤ) (billing : Billing.Operation) (s : System) :
    Effect (.account (.billing billing)) s
      (s.withDatabase (after (Billing.commits suspendAfterDays) s.accounts.database billing)) where
  clients := Billing.clients_after suspendAfterDays _ billing
  keys _ h := .inl h
  invoices := by
    rcases Billing.periodKeys_after suspendAfterDays s.accounts.database billing with hsame | ⟨g, days, hg, hkeys⟩
    · exact ⟨[], nofun, hsame.trans (List.append_nil _).symm⟩
    · obtain ⟨new, hnew, happend⟩ := Billing.periodKeys_generate { g with suspendAfterDays := days } s.accounts.database
      refine ⟨_, fun k hk => ?_, hkeys.trans happend⟩
      obtain ⟨c, hc, rfl⟩ := List.mem_map.mp hk
      obtain ⟨hruns, hcovers, hfresh⟩ := hnew c hc
      exact ⟨billing, g, rfl, hg, hruns, hcovers, hfresh⟩

/-- Changes of the plans and of the clients' rows. -/
theorem effect_changePlans (suspendAfterDays : ℤ) (plans : ClientId → Option Billing.BillingPlan)
    (quotas : ClientId → ℤ) (s : System) :
    Effect op s (s.withAccounts (after (Billing.accountCommits suspendAfterDays) s.accounts (.changePlans plans quotas)))
    := by
  refine effect_of_same ?_ (fun _ h => .inl h) rfl
  simp [after, Billing.accountCommits, System.withAccounts, System.clients]

theorem effect_deleteClient {now : Instant} {c : ClientId} (h : deleteClient now c s = .ok t) : Effect op s t := by
  have hsame : ∀ {accounts}, Billing.deleteClient now c s.accounts = .ok accounts →
      accounts.database = s.accounts.database := by
    intro accounts h
    unfold Billing.deleteClient at h
    split_ifs at h
    cases h
    rfl
  unfold deleteClient at h
  split at h
  · cases h
  · rename_i accounts haccounts
    cases h
    have hdb := hsame haccounts
    refine effect_of_same ?_ ?_ (congrArg Billing.Database.invoices hdb)
    · exact (congrArg (fun db : Billing.Database => db.clients.length) hdb).ge
    · rintro c' ⟨key, hmem, hc', hrevoked⟩
      obtain ⟨old, hold, rfl⟩ := List.mem_map.mp hmem
      split_ifs at hc' hrevoked
      exact .inl ⟨old, hold, hc', hrevoked⟩

theorem effect_addClient {plan : Billing.BillingPlan} {quota : ℤ} : Effect op s (addClient plan quota s) := by
  refine effect_of_same ?_ (fun _ h => .inl h) rfl
  simp [addClient, System.withDatabase, System.withAccounts, System.clients]

theorem effect_patchClient {c : ClientId} {patch : ClientPatch} (h : patchClient c patch s = .ok t) :
    Effect op s t := by
  unfold patchClient Billing.patchClient at h
  split_ifs at h
  cases h
  refine effect_of_same ?_ (fun _ h => .inl h) rfl
  simp [System.setAccess, System.withDatabase, System.withAccounts, System.clients, Billing.Database.setClient]

/-- The account of a billing operation is the one that it leaves. -/
theorem after_billing (suspendAfterDays : ℤ) (accounts : Billing.Accounts) (billing : Billing.Operation) :
    after (Billing.accountCommits suspendAfterDays) accounts (.billing billing) =
      { accounts with database := after (Billing.commits suspendAfterDays) accounts.database billing } := by
  unfold after Billing.accountCommits
  rw [List.getLastD_eq_getLast?, List.getLast?_map, List.getLastD_eq_getLast?]
  cases (Billing.commits suspendAfterDays accounts.database billing).getLast? <;> rfl

end Effect

section Next

variable (pbkdf2 : List Char → List Char → List Char) (settings : Settings) (suspendAfterDays : ℤ)

/-- **What an operation does** to the clients, the keys and the invoices. -/
theorem effect_next (s : System) (op : Operation) : Effect op s (next pbkdf2 settings suspendAfterDays s op) := by
  cases op with
  | account op =>
    cases op with
    | billing billing =>
      show Effect _ s (s.withAccounts (after (Billing.accountCommits suspendAfterDays) s.accounts (.billing billing)))
      rw [after_billing]
      exact effect_billing suspendAfterDays billing s
    | changePlans plans quotas => exact effect_changePlans suspendAfterDays plans quotas s
    | deleteClient now c => exact effect_orSame fun t h => effect_deleteClient h
  | createClient plan quota allow block =>
    refine effect_orSame fun t h => ?_
    cases plan with
    | none => cases h
    | some plan =>
      cases h
      have hadd : Effect (.createClient (some plan) quota allow block) s (addClient plan quota s) := effect_addClient
      exact ⟨hadd.clients, hadd.keys, hadd.invoices⟩
  | publicSignup plan plaintext salt =>
    refine effect_orSame fun t h => ?_
    cases plan with
    | error e => cases h
    | ok plan =>
      cases h
      have hadd : Effect (.publicSignup (.ok plan) plaintext salt) s (addClient plan plan.monthlyTokenQuota s) :=
        effect_addClient
      refine effect_of_same hadd.clients (fun c hkey => ?_) rfl
      rcases hasKey_append_iff.mp hkey with hold | ⟨rfl, -⟩
      · exact .inl hold
      · exact .inr (.inl rfl)
  | blockClient c => exact effect_orSame fun t h => effect_changeAccess h
  | unblockClient c => exact effect_orSame fun t h => effect_changeAccess h
  | suspendClientSecurity c => exact effect_orSame fun t h => effect_changeAccess h
  | unsuspendClientSecurity c => exact effect_orSame fun t h => effect_changeAccess h
  | patchClient c patch => exact effect_orSame fun t h => effect_patchClient h
  | createApiKey c plaintext salt =>
    refine effect_orSame fun t h => ?_
    unfold createApiKey at h
    split_ifs at h
    cases h
    refine effect_of_same le_rfl (fun c' hkey => ?_) rfl
    rcases hasKey_append_iff.mp hkey with hold | ⟨rfl, -⟩
    · exact .inl hold
    · exact .inr (.inr ⟨plaintext, salt, rfl⟩)
  | rotateApiKey now k plaintext salt =>
    refine effect_orSame fun t h => ?_
    unfold rotateApiKey at h
    split at h
    · cases h
    · rename_i currentKey hk
      split_ifs at h with hrevoked
      cases h
      refine effect_of_same le_rfl (fun c hkey => .inl ?_) rfl
      rcases hasKey_append_iff.mp hkey with hold | ⟨rfl, -⟩
      · exact hasKey_of_modify hold
      · exact ⟨currentKey, List.mem_of_getElem? hk, rfl, by simpa using hrevoked⟩
  | revokeApiKey now k =>
    refine effect_orSame fun t h => ?_
    unfold revokeApiKey at h
    split_ifs at h
    cases h
    exact effect_of_same le_rfl (fun c hkey => .inl (hasKey_of_modify hkey)) rfl
  | request env credentials sourceIp request =>
    show Effect _ s (handle pbkdf2 settings env credentials sourceIp request s)
    unfold handle
    split
    · exact effect_refl _ s
    · exact effect_withWorld _ s _
  | work env models => exact effect_withWorld _ s _
  | elsewhere e => exact effect_withWorld _ s _

end Next

/-! ## A client without keys -/

/-- The client is there, and all its keys are revoked. -/
structure Gone (c : ClientId) (s : System) : Prop where
  lt : c < s.clients.length
  noKey : ¬ s.HasKey c

/-- The operation is the step of a worker that takes a job of the client from the list. -/
structure Takes (c : ClientId) (s : System) (op : Operation) (env : Environment)
    (models : String → ModelLoad) (jobId : JobId) (job : GenerationJob) : Prop where
  work : op = .work env models
  queue : ∃ rest, s.world.queue = some jobId :: rest
  found : s.world.committed.jobs.lookup jobId = some job
  client : job.clientId = c

/-- The operation is of one of the three kinds that may still do something for a deleted client. -/
def Operation.acts : Operation → Bool
  | .createApiKey .. | .account (.billing _) | .work .. => true
  | _ => false

/-- The operation does none of the three things for the client. -/
structure Spares (settings : Settings) (c : ClientId) (s : System) (op : Operation) : Prop where
  noKey : ¬ op.CreatesKey c
  noInvoice : ¬ op.DrawsUp s c
  noService : ∀ env models jobId job, Takes c s op env models jobId job →
    ¬ Served settings (s.worldIn env) job (s.relations models jobId)

/-- The worker's step does the same whatever the proxy does, so it does not call it, and charges nothing. -/
def Idle (settings : Settings) (rel : JobId → Relations) (w : World) : Prop :=
  ∀ p p', AgreeFrom (Charged w.committed.usage) (runOnce settings p rel) (runOnce settings p' rel) w

/-- A worker that takes a job of the client is idle. -/
def IdleFor (settings : Settings) (c : ClientId) (s : System) (op : Operation) : Prop :=
  ∀ env models jobId job, Takes c s op env models jobId job → Idle settings (s.relations models) (s.worldIn env)

section Gone

variable {c : ClientId} {s t : System} {op : Operation}

/-- `delete_client` revokes all keys of the client. -/
theorem gone_of_deleteClient {now : Instant} (h : deleteClient now c s = .ok t) : Gone c t := by
  have heffect : Effect (.account (.deleteClient now c)) s t := effect_deleteClient h
  have hclients := heffect.clients
  unfold deleteClient Billing.deleteClient at h
  split at h
  · cases h
  · rename_i accounts haccounts
    split_ifs at haccounts with hthere
    cases h
    refine ⟨hthere.1.trans_le hclients, ?_⟩
    rintro ⟨key, hmem, hc, hrevoked⟩
    obtain ⟨old, -, rfl⟩ := List.mem_map.mp hmem
    split_ifs at hc hrevoked with hown
    exact hown hc

theorem Effect.gone (h : Effect op s t) (hgone : Gone c s) (hkey : ¬ op.CreatesKey c) : Gone c t := by
  refine ⟨hgone.lt.trans_le h.clients, fun hc => ?_⟩
  rcases h.keys c hc with hold | rfl | hnew
  · exact hgone.noKey hold
  · exact absurd hgone.lt (lt_irrefl _)
  · exact hkey hnew

/-- `require_client` returns the client of a key that is not revoked. -/
theorem hasKey_of_requireClient {pbkdf2 : List Char → List Char → List Char} {credentials : Option (List Char)}
    {sourceIp : String} (h : requireClient pbkdf2 s credentials sourceIp = .ok c) : s.HasKey c := by
  unfold requireClient at h
  split at h
  · cases h
  · split at h
    · cases h
    · rename_i key hfind
      have hmem := List.mem_filter.mp (List.mem_of_find?_eq_some hfind)
      have hrevoked : key.revokedAt = none := by simpa using (of_decide_eq_true hmem.2).2
      split at h
      · cases h
      · split_ifs at h
        cases hip : enforceClientIpPolicy (s.access key.clientId) sourceIp with
        | error e =>
          rw [hip] at h
          cases h
        | ok u =>
          rw [hip] at h
          exact ⟨key, List.mem_reverse.mp hmem.1, Except.ok.inj h, hrevoked⟩

/-- Workers are idle on the jobs of the client that are not served. -/
theorem Spares.idle {settings : Settings} (h : Spares settings c s op) : IdleFor settings c s op := by
  intro env models jobId job htakes p p'
  obtain ⟨rest, hqueue⟩ := htakes.queue
  refine agree_runOnce p p' _ (w := s.worldIn env) hqueue fun job' hjob' => ?_
  obtain rfl : job = job' := Option.some.inj (htakes.found.symm.trans hjob')
  exact h.noService env models jobId job htakes

end Gone

/-! ## Runs -/

section Runs

variable (pbkdf2 : List Char → List Char → List Char) (settings : Settings) (suspendAfterDays : ℤ)

/-- In a run from `s` to `t` the client is inert: at the end nobody is let in as the client, no worker's step on one of
its jobs calls the proxy or charges anything, and all invoices of the client were there at the beginning. -/
structure Inert (c : ClientId) (s t : System) (ops : List Operation) : Prop where
  locked : ∀ credentials sourceIp, requireClient pbkdf2 t credentials sourceIp ≠ .ok c
  idle : Along (step pbkdf2 settings suspendAfterDays) (IdleFor settings c) s ops
  unbilled : ∀ (i : Billing.InvoiceId) (inv : Billing.BillingInvoice), t.accounts.database.invoices[i]? = some inv →
    inv.clientId = c → i < s.accounts.database.invoices.length

variable {pbkdf2 settings suspendAfterDays} {c : ClientId} {s t : System} {ops : List Operation}

theorem gone_run (hgone : Gone c s) (hspares : Along (step pbkdf2 settings suspendAfterDays) (Spares settings c) s ops)
    (h : run (step pbkdf2 settings suspendAfterDays) s ops = some t) : Gone c t := by
  refine run_inv_along (I := Gone c) (fun s op t hgone hspares hstep => ?_) hgone hspares h
  obtain rfl := Option.some.inj hstep
  exact (effect_next pbkdf2 settings suspendAfterDays s op).gone hgone hspares.noKey

/-- The invoices that a run adds are of other clients. -/
theorem periodKeys_run (hspares : Along (step pbkdf2 settings suspendAfterDays) (Spares settings c) s ops)
    (h : run (step pbkdf2 settings suspendAfterDays) s ops = some t) :
    ∃ new, (∀ k ∈ new, k.1 ≠ c) ∧ t.periodKeys = s.periodKeys ++ new := by
  refine run_inv_along (I := fun t => ∃ new, (∀ k ∈ new, k.1 ≠ c) ∧ t.periodKeys = s.periodKeys ++ new)
    (fun u op v hu hspares hstep => ?_) ⟨[], nofun, (List.append_nil _).symm⟩ hspares h
  obtain rfl := Option.some.inj hstep
  obtain ⟨new, hnew, hkeys⟩ := hu
  obtain ⟨more, hmore, happend⟩ := (effect_next pbkdf2 settings suspendAfterDays u op).invoices
  refine ⟨new ++ more, List.forall_mem_append.mpr ⟨hnew, fun k hk hc => ?_⟩, ?_⟩
  · exact hspares.noInvoice (hc ▸ hmore k hk)
  · rw [happend, hkeys, List.append_assoc]

/-- **A deleted client stays inert in every run that spares it**: a run in which no key is created for the client, no
worker takes a job of its that is served, and no generation draws up an invoice for it. -/
theorem deleted_inert {now : Instant} (hdelete : deleteClient now c s = .ok t)
    (hspares : Along (step pbkdf2 settings suspendAfterDays) (Spares settings c) t ops) {u : System}
    (h : run (step pbkdf2 settings suspendAfterDays) t ops = some u) :
    Inert pbkdf2 settings suspendAfterDays c t u ops where
  locked credentials sourceIp hin := (gone_run (gone_of_deleteClient hdelete) hspares h).noKey
    (hasKey_of_requireClient hin)
  idle := hspares.mono fun _ _ hop => hop.idle
  unbilled i inv hi hc := by
    obtain ⟨new, hnew, hkeys⟩ := periodKeys_run hspares h
    by_contra hlt
    have hrow : u.periodKeys[i]? = some inv.periodKey := Billing.getElem?_periodKeys hi
    have hle : t.periodKeys.length ≤ i := by
      rw [System.periodKeys, Billing.length_periodKeys]
      exact Nat.not_lt.mp hlt
    rw [hkeys, List.getElem?_append_right hle] at hrow
    exact hnew _ (List.mem_of_getElem? hrow) hc

/-- No operation gets stuck. -/
theorem run_step : ∀ (ops : List Operation) (s : System), run (step pbkdf2 settings suspendAfterDays) s ops =
    some (ops.foldl (next pbkdf2 settings suspendAfterDays) s)
  | [], _ => rfl
  | op :: ops, s => run_step ops (next pbkdf2 settings suspendAfterDays s op)

theorem along_step_cons {P : System → Operation → Prop} {op : Operation} (hop : P s op)
    (hops : Along (step pbkdf2 settings suspendAfterDays) P (next pbkdf2 settings suspendAfterDays s op) ops) :
    Along (step pbkdf2 settings suspendAfterDays) P s (op :: ops) :=
  ⟨hop, fun _ ht => Option.some.inj ht ▸ hops⟩

/-- Most operations spare every client. -/
theorem spares_of_not_acts {op : Operation} (h : op.acts = false) : Spares settings c s op where
  noKey := by
    rintro ⟨plaintext, salt, rfl⟩
    cases h
  noInvoice := by
    rintro ⟨billing, g, rfl, -⟩
    cases h
  noService := by
    rintro env models jobId job ⟨rfl, -, -, -⟩
    cases h

end Runs

/-! ## A client with a job in the list -/

/-- Stands for PBKDF2. -/
def joined (secret salt : List Char) : List Char := secret ++ salt

/-- One client with a key, whose job is in the list of the workers. -/
def beforeDeletion : System where
  accounts := ⟨{ Billing.emptyDatabase with clients := [⟨.active, none, 1000⟩] }, []⟩
  access := fun _ => {}
  apiKeys := [newKey joined 0 "sk-local-first".toList "5a".toList]
  world := queuedWorld
  usage_eq := rfl

def deleted : System := next joined cachelessSettings 15 beforeDeletion (.account (.deleteClient 0 0))

/-- A worker takes the job, and a backend is there for every model. -/
def workedOn : Operation := .work freshWorld.env fun _ => oneRoute.toModelLoad

/-- Somebody else signs up and gets an invoice. The job is taken while the deleted client is blocked, and its key
cannot be rotated. -/
theorem deleted_inert_spared :
    let spared : List Operation :=
      [.publicSignup (.ok ⟨1000, []⟩) "sk-local-other".toList "6b".toList, .blockClient 0, workedOn, .unblockClient 0,
        .rotateApiKey 5 0 "sk-local-third".toList "7c".toList,
        .account (.billing (.generateInvoices { Billing.generationOn 5 8 with clientId := some 1 }))]
    Inert joined cachelessSettings 15 0 deleted (spared.foldl (next joined cachelessSettings 15) deleted) spared := by
  intro spared
  have hdelete : deleteClient 0 0 beforeDeletion = .ok deleted := rfl
  refine deleted_inert hdelete ?_ (run_step spared deleted)
  refine along_step_cons (spares_of_not_acts rfl) <| along_step_cons (spares_of_not_acts rfl) <|
    along_step_cons ?_ <| along_step_cons (spares_of_not_acts rfl) <| along_step_cons (spares_of_not_acts rfl) <|
      along_step_cons ?_ trivial
  · refine ⟨?_, ?_, ?_⟩
    · rintro ⟨plaintext, salt, hop⟩
      cases hop
    · rintro ⟨billing, g, hop, -⟩
      cases hop
    · rintro env models jobId job ⟨hwork, ⟨rest, hqueue⟩, -, -⟩ ⟨-, hmay, -⟩
      obtain ⟨rfl, rfl⟩ := Operation.work.inj hwork
      have hlist : [some 0] = some jobId :: rest := hqueue
      obtain ⟨h0, -⟩ := List.cons.inj hlist
      obtain rfl := Option.some.inj h0
      revert hmay
      decide +kernel
  · refine ⟨?_, ?_, ?_⟩
    · rintro ⟨plaintext, salt, hop⟩
      cases hop
    · rintro ⟨billing, g, hop, hg, hdraws⟩
      cases hop
      obtain rfl := Option.some.inj hg
      exact absurd hdraws.covers (by decide)
    · rintro env models jobId job ⟨hwork, -, -, -⟩
      cases hwork

/-- **A deleted client is let in, worked for and billed**: a key is created for it, its job is given to a backend, and
its month is drawn up. -/
theorem deleted_active :
    deleteClient 0 0 beforeDeletion = .ok deleted ∧
      (∃ t, run (step joined cachelessSettings 15) deleted
          [.createApiKey 0 "sk-local-second".toList "8d".toList] = some t ∧
        requireClient joined t (some "sk-local-second".toList) "10.0.0.1" = .ok 0) ∧
      (¬ IdleFor cachelessSettings 0 deleted workedOn ∧
        statusOf 0 (next joined cachelessSettings 15 deleted workedOn).world.committed = some .completed) ∧
      ∃ t, run (step joined cachelessSettings 15) deleted
          [.account (.billing (.generateInvoices (Billing.generationOn 5 8)))] = some t ∧
        t.accounts.database.invoices.map (·.clientId) = [0] := by
  refine ⟨rfl, ⟨_, run_step _ _, by decide +kernel⟩, ⟨fun h => ?_, by decide +kernel⟩, _, run_step _ _,
    by decide +kernel⟩
  have hidle := h freshWorld.env (fun _ => oneRoute.toModelLoad) 0 _ ⟨rfl, ⟨[], rfl⟩, rfl, rfl⟩
  have hcharged := (hidle (jobChat cachelessSettings) (jobChat cachelessSettings)).2
  have htokens := congrArg
    (fun usage : UsageTables => (usage.counter (periodKey 0 (freshWorld.env.clock 0).date .daily)).usedTokens) hcharged
  revert htokens
  decide +kernel

end LlmStore.Clients
