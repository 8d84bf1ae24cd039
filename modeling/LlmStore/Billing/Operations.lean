import LlmStore.Billing.Invoices
import LlmStore.Core.Http

/-!
# Billing operations

The handlers of `api/admin.py` and `api/public.py` that touch invoices and payments, and the scheduled cycle. A handler
is refused with an `HTTPException` or commits, one after the other, the states in its list. `later` is the time of its
refresh, which reads the clock again.
-/

namespace LlmStore.Billing

open LlmStore.Calendar LlmStore.Usage

/-! ## Requests -/

structure InvoiceMarkPaidRequest where
  amountPaid : Option ℚ
  paymentMethod : String
  paymentReference : Option String
  note : Option String
  paidAt : Option Instant
  deriving DecidableEq

structure PaymentCreate where
  invoiceId : InvoiceId
  amount : ℚ
  currency : String
  paymentMethod : String
  paymentReference : Option String
  note : Option String
  paidAt : Option Instant
  deriving DecidableEq

structure WebhookPayload where
  /-- `none` if it is no UUID. -/
  invoiceId : Option InvoiceId
  status : String
  paymentReference : Option String
  deriving DecidableEq

/-- The fields of `ClientPatch` that billing reads; `none` for a field that is not set. -/
structure ClientPatch where
  billingStatus : Option BillingStatus
  billingPlan : Option (Option BillingPlan)
  deriving DecidableEq

/-! ## Writes -/

namespace Database

variable (db : Database)

def setInvoice (i : InvoiceId) (f : BillingInvoice → BillingInvoice) : Database :=
  { db with invoices := db.invoices.modify i f }

def setPayment (p : PaymentId) (f : CustomerPayment → CustomerPayment) : Database :=
  { db with payments := db.payments.modify p f }

def addPayment (p : CustomerPayment) : Database := { db with payments := db.payments ++ [p] }

def setClient (c : ClientId) (f : Client → Client) : Database := { db with clients := db.clients.modify c f }

/-- Writes the open payment of an invoice, or adds a new one. -/
def setOpenPayment (i : InvoiceId) (f : CustomerPayment → CustomerPayment) (new : CustomerPayment) : Database :=
  match db.payments.findIdx? (CustomerPayment.isOpen i) with
  | some p => db.setPayment p f
  | none => db.addPayment (f new)

@[simp] theorem setInvoice_clients (i : InvoiceId) (f : BillingInvoice → BillingInvoice) :
    (db.setInvoice i f).clients = db.clients := rfl

@[simp] theorem setClient_invoices (c : ClientId) (f : Client → Client) : (db.setClient c f).invoices = db.invoices :=
  rfl

@[simp] theorem setOpenPayment_clients (i : InvoiceId) (f : CustomerPayment → CustomerPayment)
    (new : CustomerPayment) : (db.setOpenPayment i f new).clients = db.clients := by
  unfold setOpenPayment
  split <;> rfl

@[simp] theorem setOpenPayment_invoices (i : InvoiceId) (f : CustomerPayment → CustomerPayment)
    (new : CustomerPayment) : (db.setOpenPayment i f new).invoices = db.invoices := by
  unfold setOpenPayment
  split <;> rfl

end Database

/-! ## Handlers -/

section Handlers

variable (suspendAfterDays : ℤ)

/-- `generate_invoices`: the force flag of the request is not read. -/
def generateInvoices (g : Generation) (db : Database) : Except HTTPException (List Database) :=
  if g.clientId.all (· < db.clients.length) then .ok [generateMonthlyInvoices { g with force := true, suspendAfterDays } db]
  else .error ⟨404, "client not found"⟩

/-- `run_billing_cycle`. -/
def runBillingCycle (g : Generation) (later : Instant) (db : Database) : List Database :=
  let db₁ := generateMonthlyInvoices { g with force := false, clientId := none, suspendAfterDays } db
  [db₁, refreshBillingStatuses later suspendAfterDays db₁]

/-- `run_billing_cycle_once`. -/
def runBillingCycleOnce (g : Generation) (later : Instant) (db : Database) : List Database :=
  [refreshBillingStatuses later suspendAfterDays
    (generateMonthlyInvoices { g with force := false, clientId := none, suspendAfterDays } db)]

/-- `mark_invoice_overdue`. -/
def markInvoiceOverdue (later : Instant) (i : InvoiceId) (db : Database) : Except HTTPException (List Database) :=
  match db.invoices[i]? with
  | none => .error ⟨404, "invoice not found"⟩
  | some invoice =>
    if invoice.status = .paid then .error ⟨409, "paid invoice cannot be marked overdue"⟩
    else
      let db₁ := db.setInvoice i fun inv => { inv with status := .overdue }
      .ok [db₁, refreshBillingStatuses later suspendAfterDays db₁]

/-- `mark_invoice_paid`. -/
def markInvoicePaid (now later : Instant) (i : InvoiceId) (payload : InvoiceMarkPaidRequest) (db : Database) :
    Except HTTPException (List Database) :=
  match db.invoices[i]? with
  | none => .error ⟨404, "invoice not found"⟩
  | some invoice =>
    if invoice.status = .cancelled then .error ⟨409, "cancelled invoice cannot be paid"⟩
    else if invoice.status = .paid then .error ⟨409, "invoice already paid"⟩
    else
      let paidAt := payload.paidAt.getD now
      let pay : CustomerPayment → CustomerPayment := fun p =>
        { p with
          status := .paid, amount := payload.amountPaid.getD invoice.totalAmount, currency := invoice.currency,
          paymentMethod := payload.paymentMethod, paymentReference := payload.paymentReference, note := payload.note,
          paidAt := some paidAt, cancelledAt := none }
      let db₁ := ((db.setInvoice i fun inv => { inv with status := .paid, paidAt := some paidAt, cancelledAt := none }
        ).setOpenPayment i pay
          { invoiceId := i, clientId := invoice.clientId, status := .paid, amount := invoice.totalAmount,
            currency := invoice.currency, paymentMethod := payload.paymentMethod }
        ).setClient invoice.clientId fun c => { c with billingStatus := .active }
      .ok [db₁, refreshBillingStatuses later suspendAfterDays db₁]

/-- `cancel_invoice`. -/
def cancelInvoice (now later : Instant) (i : InvoiceId) (db : Database) : Except HTTPException (List Database) :=
  match db.invoices[i]? with
  | none => .error ⟨404, "invoice not found"⟩
  | some invoice =>
    if invoice.status = .paid then .error ⟨409, "paid invoice cannot be cancelled"⟩
    else if invoice.status = .cancelled then .error ⟨409, "invoice already cancelled"⟩
    else
      let db₁ : Database :=
        { db.setInvoice i (fun inv => { inv with status := .cancelled, cancelledAt := some now }) with
          payments := db.payments.map fun p =>
            if p.invoiceId = i ∧ p.status ≠ .paid then { p with status := .cancelled, cancelledAt := some now } else p }
      .ok [db₁, refreshBillingStatuses later suspendAfterDays db₁]

/-- `create_payment`. After `session.get` the attribute `invoice.client` can be read only if it is loaded with the
invoice, as `clientLoaded` tells: the relationship is declared in `app.models`, outside the repository. Otherwise the
read raises `MissingGreenlet`, and nothing is committed. -/
def createPayment (clientLoaded : Bool) (later : Instant) (payload : PaymentCreate) (db : Database) :
    Except HTTPException (List Database) :=
  match db.invoices[payload.invoiceId]? with
  | none => .error ⟨404, "invoice not found"⟩
  | some invoice =>
    let db₀ := db.addPayment
      { invoiceId := payload.invoiceId, clientId := invoice.clientId, amount := payload.amount,
        currency := payload.currency, paymentMethod := payload.paymentMethod,
        paymentReference := payload.paymentReference, note := payload.note,
        status := if payload.paidAt.isSome then .paid else .pending, paidAt := payload.paidAt }
    if payload.paidAt.isSome ∧ invoice.status ≠ .paid then
      if clientLoaded then
        let db₁ := (db₀.setInvoice payload.invoiceId fun inv => { inv with status := .paid, paidAt := payload.paidAt }
          ).setClient invoice.clientId fun c => { c with billingStatus := .active }
        .ok [db₁, refreshBillingStatuses later suspendAfterDays db₁]
      else .error ⟨500, "Internal Server Error"⟩
    else .ok [db₀, refreshBillingStatuses later suspendAfterDays db₀]

/-- `cancel_payment`. -/
def cancelPayment (now : Instant) (p : PaymentId) (db : Database) : Except HTTPException (List Database) :=
  match db.payments[p]? with
  | none => .error ⟨404, "payment not found"⟩
  | some payment =>
    if payment.status = .cancelled then .error ⟨409, "payment already cancelled"⟩
    else .ok [db.setPayment p fun q => { q with status := .cancelled, cancelledAt := some now }]

/-- `pix_webhook`. -/
def pixWebhook (now later : Instant) (payload : WebhookPayload) (db : Database) :
    Except HTTPException (List Database) :=
  match payload.invoiceId with
  | none => .error ⟨400, "invalid invoice_id format"⟩
  | some i =>
    match db.invoices[i]? with
    | none => .error ⟨404, "invoice not found"⟩
    | some invoice =>
      if invoice.status = .paid then .ok []
      else if payload.status = "paid" then
        let reference := if payload.paymentReference.getD "" = "" then some "pix_webhook" else payload.paymentReference
        let pay : CustomerPayment → CustomerPayment := fun p =>
          { p with status := .paid, paymentReference := reference, paidAt := some now }
        let db₁ := (db.setInvoice i fun inv => { inv with status := .paid, paidAt := some now }).setOpenPayment i pay
          { invoiceId := i, clientId := invoice.clientId, status := .paid, amount := invoice.totalAmount,
            currency := invoice.currency, paymentMethod := invoice.paymentMethod }
        .ok [refreshBillingStatuses later suspendAfterDays db₁]
      else .ok []

/-- `patch_client`. -/
def patchClient (c : ClientId) (patch : ClientPatch) (db : Database) : Except HTTPException (List Database) :=
  if c < db.clients.length then
    .ok [db.setClient c fun client =>
      { client with
        billingStatus := patch.billingStatus.getD client.billingStatus
        billingPlan := patch.billingPlan.getD client.billingPlan }]
  else .error ⟨404, "client not found"⟩

end Handlers

/-! ## Runs -/

/-- One operation, with the times at which it reads the clock. -/
inductive Operation where
  | generateInvoices (g : Generation)
  | runBillingCycle (g : Generation) (later : Instant)
  | runBillingCycleOnce (g : Generation) (later : Instant)
  /-- A page that refreshes the statuses and commits. -/
  | refresh (now : Instant)
  | markInvoiceOverdue (later : Instant) (i : InvoiceId)
  | markInvoicePaid (now later : Instant) (i : InvoiceId) (payload : InvoiceMarkPaidRequest)
  | cancelInvoice (now later : Instant) (i : InvoiceId)
  | createPayment (clientLoaded : Bool) (later : Instant) (payload : PaymentCreate)
  | cancelPayment (now : Instant) (p : PaymentId)
  | pixWebhook (now later : Instant) (payload : WebhookPayload)
  | patchClient (c : ClientId) (patch : ClientPatch)
  /-- A new client signs up. -/
  | addClient (plan : Option BillingPlan) (monthlyTokenQuota : ℤ)
  /-- Usage is booked for a client. -/
  | recordUsage (c : ClientId) (today : Date) (promptTokens completionTokens : ℤ)
  deriving DecidableEq

/-- A refused handler commits nothing. -/
def committed : Except HTTPException (List Database) → List Database
  | .ok dbs => dbs
  | .error _ => []

variable (suspendAfterDays : ℤ)

/-- The states an operation commits, in order. -/
def commits (db : Database) : Operation → List Database
  | .generateInvoices g => committed (Billing.generateInvoices suspendAfterDays g db)
  | .runBillingCycle g later => Billing.runBillingCycle suspendAfterDays g later db
  | .runBillingCycleOnce g later => Billing.runBillingCycleOnce suspendAfterDays g later db
  | .refresh now => [refreshBillingStatuses now suspendAfterDays db]
  | .markInvoiceOverdue later i => committed (Billing.markInvoiceOverdue suspendAfterDays later i db)
  | .markInvoicePaid now later i payload => committed (Billing.markInvoicePaid suspendAfterDays now later i payload db)
  | .cancelInvoice now later i => committed (Billing.cancelInvoice suspendAfterDays now later i db)
  | .createPayment clientLoaded later payload =>
    committed (Billing.createPayment suspendAfterDays clientLoaded later payload db)
  | .cancelPayment now p => committed (Billing.cancelPayment now p db)
  | .pixWebhook now later payload => committed (Billing.pixWebhook suspendAfterDays now later payload db)
  | .patchClient c patch => committed (Billing.patchClient c patch db)
  | .addClient plan quota =>
    [{ db with clients := db.clients ++
        [{ billingStatus := .active, billingPlan := plan, monthlyTokenQuota := quota }] }]
  | .recordUsage c today prompt completion => [{ db with usage := Usage.recordUsage db.usage c today prompt completion }]

/-- The state after an operation. -/
def step (db : Database) (op : Operation) : Option Database := some ((commits suspendAfterDays db op).getLastD db)

/-- All states that a run of operations commits, in order. -/
def history (db : Database) : List Operation → List Database
  | [] => []
  | op :: ops => commits suspendAfterDays db op ++ history ((commits suspendAfterDays db op).getLastD db) ops

end LlmStore.Billing
