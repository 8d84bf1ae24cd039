import LlmStore.Billing.ClosedInvoices
import LlmStore.Jobs.Process

/-!
# Clients, keys and requests

The client table with its API keys (`api/admin.py`, `services/public_onboarding.py`), the authentication of a request
(`services/auth.py`), and one system of everything that is done for clients: the billing operations, the requests
that `require_client` lets through, and the worker. `step` takes the operations one after another; a refused one
changes nothing.

API keys are named by their position in their table, in the order in which they were created. What `require_client`
records of refused requests is left out.
-/

namespace LlmStore.Clients

open LlmStore.Calendar LlmStore.Lib LlmStore.Usage LlmStore.Inference LlmStore.Jobs Program

/-! ## Rows -/

/-- The text `salt$digest` that `hash_secret` stores. The salt is made of hexadecimal digits, so it ends at the first
dollar sign. -/
structure SecretHash where
  salt : List Char
  digest : List Char

abbrev ApiKeyId := ℕ

structure ApiKey where
  clientId : ClientId
  keyPrefix : List Char
  keyHash : SecretHash
  revokedAt : Option Instant

/-- The columns of a client that decide who may use it. -/
structure ClientAccess where
  isBlocked : Bool := false
  ipAllowlist : List String := []
  ipBlocklist : List String := []

/-- The fields of `ClientPatch` that access and billing read; `none` for a field that is not set. -/
structure ClientPatch extends Billing.ClientPatch where
  isBlocked : Option Bool
  ipAllowlist : Option (List String)
  ipBlocklist : Option (List String)

/-- All tables. Billing and the requests have the table of usage in common. -/
structure System where
  accounts : Billing.Accounts
  access : ClientId → ClientAccess
  apiKeys : List ApiKey
  world : World
  usage_eq : world.committed.usage = accounts.database.usage

namespace System

variable (s : System)

def clients : List Billing.Client := s.accounts.database.clients

/-- New accounts, whose clients are open to everybody. -/
def withAccounts (accounts : Billing.Accounts) : System :=
  { s with
    accounts
    access := fun c => if c < s.clients.length then s.access c else {}
    world := { s.world with committed := { s.world.committed with usage := accounts.database.usage } }
    usage_eq := rfl }

def withDatabase (db : Billing.Database) : System := s.withAccounts { s.accounts with database := db }

/-- What a request leaves behind. -/
def withWorld (w : World) : System :=
  { s with
    accounts := { s.accounts with database := { s.accounts.database with usage := w.committed.usage } }
    world := w
    usage_eq := rfl }

def setAccess (c : ClientId) (f : ClientAccess → ClientAccess) : System :=
  { s with access := Function.update s.access c (f (s.access c)) }

end System

/-! ## Secrets -/

/-- `short_prefix`. -/
def shortPrefix (secret : List Char) : List Char := secret.take 12

section Secrets

-- `hashlib.pbkdf2_hmac` of a secret and a salt, in hexadecimal digits
variable (pbkdf2 : List Char → List Char → List Char)

/-- `hash_secret`. -/
def hashSecret (secret salt : List Char) : SecretHash := ⟨salt, pbkdf2 secret salt⟩

/-- `verify_secret`. -/
def verifySecret (secret : List Char) (stored : SecretHash) : Bool := pbkdf2 secret stored.salt = stored.digest

/-- The row of a new key with this plaintext. -/
def newKey (c : ClientId) (plaintext salt : List Char) : ApiKey :=
  { clientId := c, keyPrefix := shortPrefix plaintext, keyHash := hashSecret pbkdf2 plaintext salt, revokedAt := none }

/-! ## Authentication -/

/-- `enforce_client_ip_policy`. -/
def enforceClientIpPolicy (access : ClientAccess) (sourceIp : String) : Except HTTPException Unit :=
  if sourceIp ∈ access.ipBlocklist then .error ⟨403, "source ip is blocked for this client"⟩
  else if access.ipAllowlist ≠ [] ∧ sourceIp ∉ access.ipAllowlist then
    .error ⟨403, "source ip is not allowed for this client"⟩
  else .ok ()

/-- The key that a plaintext opens: the youngest one that is not revoked. -/
def findApiKey (apiKeys : List ApiKey) (plaintext : List Char) : Option ApiKey :=
  (apiKeys.reverse.filter fun key => key.keyPrefix = shortPrefix plaintext ∧ key.revokedAt.isNone).find? fun key =>
    verifySecret pbkdf2 plaintext key.keyHash

/-- `require_client`. -/
def requireClient (s : System) (credentials : Option (List Char)) (sourceIp : String) :
    Except HTTPException ClientId :=
  match credentials with
  | none => .error ⟨401, "missing bearer token"⟩
  | some credentials =>
    match findApiKey pbkdf2 s.apiKeys (Text.strip credentials) with
    | none => .error ⟨401, "invalid api key"⟩
    | some key =>
      match s.clients[key.clientId]? with
      | none => .error ⟨403, "client blocked or not found"⟩
      | some client =>
        if (s.access key.clientId).isBlocked then .error ⟨403, "client blocked or not found"⟩
        else if client.billingStatus = .suspended then .error ⟨403, "client suspended for billing"⟩
        else (enforceClientIpPolicy (s.access key.clientId) sourceIp).map fun _ => key.clientId

/-! ## Keys -/

/-- `create_api_key`. -/
def createApiKey (c : ClientId) (plaintext salt : List Char) (s : System) : Except HTTPException System :=
  if c < s.clients.length then .ok { s with apiKeys := s.apiKeys ++ [newKey pbkdf2 c plaintext salt] }
  else .error ⟨404, "client not found"⟩

/-- `rotate_api_key`. -/
def rotateApiKey (now : Instant) (k : ApiKeyId) (plaintext salt : List Char) (s : System) :
    Except HTTPException System :=
  match s.apiKeys[k]? with
  | none => .error ⟨404, "api key not found"⟩
  | some currentKey =>
    if currentKey.revokedAt.isSome then .error ⟨409, "api key already revoked"⟩
    else .ok { s with
      apiKeys := (s.apiKeys.modify k fun key => { key with revokedAt := some now }) ++
        [newKey pbkdf2 currentKey.clientId plaintext salt] }

/-- `revoke_api_key`. -/
def revokeApiKey (now : Instant) (k : ApiKeyId) (s : System) : Except HTTPException System :=
  if k < s.apiKeys.length then
    .ok { s with apiKeys := s.apiKeys.modify k fun key => { key with revokedAt := some now } }
  else .error ⟨404, "api key not found"⟩

/-! ## Clients -/

/-- A new client on a plan. -/
def addClient (plan : Billing.BillingPlan) (monthlyTokenQuota : ℤ) (s : System) : System :=
  s.withDatabase { s.accounts.database with
    clients := s.clients ++ [⟨.active, some plan, monthlyTokenQuota⟩] }

/-- `create_client`; `plan` is `none` if the plan of the request does not exist. -/
def createClient (plan : Option Billing.BillingPlan) (monthlyTokenQuota : ℤ) (ipAllowlist ipBlocklist : List String)
    (s : System) : Except HTTPException System :=
  match plan with
  | none => .error ⟨404, "billing plan not found"⟩
  | some plan => .ok ((addClient plan monthlyTokenQuota s).setAccess s.clients.length fun access =>
      { access with ipAllowlist, ipBlocklist })

/-- `create_public_signup`, given the plan of the request or the error with which it is refused. -/
def createPublicSignup (plan : Except HTTPException Billing.BillingPlan) (plaintext salt : List Char) (s : System) :
    Except HTTPException System :=
  match plan with
  | .error e => .error e
  | .ok plan => .ok { addClient plan plan.monthlyTokenQuota s with
      apiKeys := s.apiKeys ++ [newKey pbkdf2 s.clients.length plaintext salt] }

/-- `delete_client`: the client's keys are revoked with it. -/
def deleteClient (now : Instant) (c : ClientId) (s : System) : Except HTTPException System :=
  match Billing.deleteClient now c s.accounts with
  | .error e => .error e
  | .ok accounts => .ok { s.withAccounts accounts with
      apiKeys := s.apiKeys.map fun key => if key.clientId = c then { key with revokedAt := some now } else key }

/-- A change of a client's access. -/
def changeAccess (f : ClientAccess → ClientAccess) (c : ClientId) (s : System) : Except HTTPException System :=
  if c < s.clients.length then .ok (s.setAccess c f) else .error ⟨404, "client not found"⟩

/-- `block_client`. -/
def blockClient : ClientId → System → Except HTTPException System :=
  changeAccess fun access => { access with isBlocked := true }

/-- `unblock_client`. -/
def unblockClient : ClientId → System → Except HTTPException System :=
  changeAccess fun access => { access with isBlocked := false }

/-- `suspend_client_security`. -/
def suspendClientSecurity : ClientId → System → Except HTTPException System :=
  changeAccess fun access => { access with isBlocked := true }

/-- `unsuspend_client_security`. -/
def unsuspendClientSecurity : ClientId → System → Except HTTPException System :=
  changeAccess fun access => { access with isBlocked := false }

/-- `patch_client`. -/
def patchClient (c : ClientId) (patch : ClientPatch) (s : System) : Except HTTPException System :=
  match Billing.patchClient c patch.toClientPatch s.accounts.database with
  | .error e => .error e
  | .ok dbs => .ok ((s.withDatabase (dbs.getLastD s.accounts.database)).setAccess c fun access =>
      { isBlocked := patch.isBlocked.getD access.isBlocked
        ipAllowlist := patch.ipAllowlist.getD access.ipAllowlist
        ipBlocklist := patch.ipBlocklist.getD access.ipBlocklist })

/-! ## Requests and the worker -/

/-- A request of a client that is authenticated. -/
inductive ClientRequest where
  | chatCompletions (prepared : Except HTTPException ChatRequest)
  | portalTestChat (prepared : Except HTTPException ChatRequest)
  | chatCompletionsAsync (prepared : Except HTTPException ChatRequest) (jobId : JobId)
  | cancelGenerationJob (jobId : JobId)

/-- The world after the client's request. -/
def ClientRequest.serve (settings : Settings) (c : ClientId) (w : World) : ClientRequest → World
  | chatCompletions prepared =>
    ((Inference.chatCompletions settings (prepared.map fun r => { r with clientId := c })).exec w).2
  | portalTestChat prepared =>
    ((Inference.portalTestChat settings (prepared.map fun r => { r with clientId := c })).exec w).2
  | chatCompletionsAsync prepared jobId =>
    ((Jobs.chatCompletionsAsync (prepared.map fun r => { r with clientId := c }) jobId).exec w).2
  | cancelGenerationJob jobId => ((Jobs.cancelGenerationJob c jobId).exec w).2

/-- What `process_generation_job` loads with a job, given the models. -/
def System.relations (s : System) (models : String → ModelLoad) (jobId : JobId) : Relations :=
  match s.world.committed.jobs.lookup jobId with
  | none => { models "" with client := none }
  | some job =>
    { models job.resolvedModel with
      client :=
        (s.clients[job.clientId]?).map fun client => ⟨(s.access job.clientId).isBlocked, client.billingStatus⟩ }

/-- The world in which the next request meets the environment. -/
def System.worldIn (s : System) (env : Environment) : World := s.world.setEnv fun _ => env

/-- What is done to the backends, the cache, the jobs and the list of the workers without any charge. -/
structure Elsewhere where
  change : World → World
  usage : ∀ w, (change w).committed.usage = w.committed.usage

/-! ## Runs -/

/-- One operation, with what it meets outside. -/
inductive Operation where
  | account (op : Billing.AccountOperation)
  | createClient (plan : Option Billing.BillingPlan) (monthlyTokenQuota : ℤ) (ipAllowlist ipBlocklist : List String)
  | publicSignup (plan : Except HTTPException Billing.BillingPlan) (plaintext salt : List Char)
  | blockClient (c : ClientId)
  | unblockClient (c : ClientId)
  | suspendClientSecurity (c : ClientId)
  | unsuspendClientSecurity (c : ClientId)
  | patchClient (c : ClientId) (patch : ClientPatch)
  | createApiKey (c : ClientId) (plaintext salt : List Char)
  | rotateApiKey (now : Instant) (k : ApiKeyId) (plaintext salt : List Char)
  | revokeApiKey (now : Instant) (k : ApiKeyId)
  | request (env : Environment) (credentials : Option (List Char)) (sourceIp : String) (request : ClientRequest)
  /-- A worker takes the next job from its list. -/
  | work (env : Environment) (models : String → ModelLoad)
  | elsewhere (e : Elsewhere)

/-- A refused handler changes nothing. -/
def System.orSame (s : System) : Except HTTPException System → System
  | .ok t => t
  | .error _ => s

variable (settings : Settings) (suspendAfterDays : ℤ)

/-- A request that `require_client` lets through is served for the client that it returns. -/
def handle (env : Environment) (credentials : Option (List Char)) (sourceIp : String) (request : ClientRequest)
    (s : System) : System :=
  match requireClient pbkdf2 s credentials sourceIp with
  | .error _ => s
  | .ok c => s.withWorld (request.serve settings c (s.worldIn env))

/-- The state after an operation. -/
def next (s : System) : Operation → System
  | .account (.deleteClient now c) => s.orSame (Clients.deleteClient now c s)
  | .account op => s.withAccounts (after (Billing.accountCommits suspendAfterDays) s.accounts op)
  | .createClient plan quota allow block => s.orSame (Clients.createClient plan quota allow block s)
  | .publicSignup plan plaintext salt => s.orSame (createPublicSignup pbkdf2 plan plaintext salt s)
  | .blockClient c => s.orSame (Clients.blockClient c s)
  | .unblockClient c => s.orSame (Clients.unblockClient c s)
  | .suspendClientSecurity c => s.orSame (Clients.suspendClientSecurity c s)
  | .unsuspendClientSecurity c => s.orSame (Clients.unsuspendClientSecurity c s)
  | .patchClient c patch => s.orSame (Clients.patchClient c patch s)
  | .createApiKey c plaintext salt => s.orSame (Clients.createApiKey pbkdf2 c plaintext salt s)
  | .rotateApiKey now k plaintext salt => s.orSame (Clients.rotateApiKey pbkdf2 now k plaintext salt s)
  | .revokeApiKey now k => s.orSame (Clients.revokeApiKey now k s)
  | .request env credentials sourceIp request => handle pbkdf2 settings env credentials sourceIp request s
  | .work env models =>
    s.withWorld ((runOnce settings (jobChat settings) (s.relations models)).exec (s.worldIn env)).2
  | .elsewhere e => s.withWorld (e.change s.world)

def step (s : System) (op : Operation) : Option System := some (next pbkdf2 settings suspendAfterDays s op)

end Secrets

end LlmStore.Clients
