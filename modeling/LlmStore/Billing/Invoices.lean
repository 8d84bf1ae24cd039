import Mathlib.Data.List.Indexes
import Mathlib.Data.Rat.Floor
import LlmStore.Usage.Quota

/-!
# Invoices and billing statuses

`services/billing.py`: the invoice of a client's month, the refresh that lets pending invoices fall due and derives
every client's billing status from its invoices, and the generation of the invoices of the month before.

Rows are named by their position in their table; none of these tables ever loses a row. Amounts are exact: the
conversions of a `Decimal` to a float and back are left out. Of a row only the columns are kept that some function of
this directory reads or an invoice is built from.
-/

namespace LlmStore.Billing

open LlmStore.Calendar LlmStore.Lib LlmStore.Usage

/-! ## Rows -/

abbrev InvoiceId := ℕ

abbrev PaymentId := ℕ

/-- `INVOICE_STATUSES`, also the statuses of payments. -/
inductive InvoiceStatus where
  | pending
  | paid
  | overdue
  | cancelled
  deriving DecidableEq, Repr

/-- `CLIENT_BILLING_STATUSES`. -/
inductive BillingStatus where
  | active
  | pastDue
  | suspended
  deriving DecidableEq, Repr

structure PricingRule where
  isActive : Bool
  monthlyPrice : ℚ
  overagePricePer1kTokens : ℚ
  currency : String
  deriving DecidableEq

structure BillingPlan where
  monthlyTokenQuota : ℤ
  pricingRules : List PricingRule
  deriving DecidableEq

structure Client where
  billingStatus : BillingStatus
  billingPlan : Option BillingPlan
  monthlyTokenQuota : ℤ
  deriving DecidableEq

structure BillingInvoice where
  clientId : ClientId
  status : InvoiceStatus
  currency : String
  periodStart : Date
  periodEnd : Date
  monthlyPrice : ℚ
  includedTokens : ℤ
  usedTokens : ℤ
  overageTokens : ℤ
  overagePricePer1kTokens : ℚ
  overageCost : ℚ
  totalAmount : ℚ
  paymentMethod : String
  paymentInstructions : Option String
  dueAt : Option Instant
  paidAt : Option Instant
  cancelledAt : Option Instant
  deriving DecidableEq

structure CustomerPayment where
  invoiceId : InvoiceId
  clientId : ClientId
  status : InvoiceStatus
  amount : ℚ
  currency : String
  paymentMethod : String
  paymentReference : Option String := none
  note : Option String := none
  paidAt : Option Instant := none
  cancelledAt : Option Instant := none
  deriving DecidableEq

structure Database where
  clients : List Client
  invoices : List BillingInvoice
  payments : List CustomerPayment
  usage : UsageTables

/-! ## The invoice of a month -/

/-- What an invoice reads of `EffectivePlan`. -/
structure EffectivePlan where
  monthlyTokenQuota : ℤ
  monthlyPrice : ℚ
  overagePricePer1kTokens : ℚ
  currency : String

/-- `resolve_effective_plan`. -/
def resolveEffectivePlan (client : Client) : EffectivePlan :=
  match client.billingPlan with
  | some plan =>
    match plan.pricingRules.find? (·.isActive) with
    | some rule => ⟨plan.monthlyTokenQuota, rule.monthlyPrice, rule.overagePricePer1kTokens, rule.currency⟩
    | none => ⟨plan.monthlyTokenQuota, 0, 0, "USD"⟩
  | none => ⟨client.monthlyTokenQuota, 0, 0, "USD"⟩

/-- `x.quantize(Decimal("0.000001"), rounding=ROUND_HALF_UP)`: ties go away from zero. -/
def quantize (x : ℚ) : ℚ :=
  if 0 ≤ x then ⌊x * 1000000 + 1 / 2⌋ / 1000000 else -(⌊-x * 1000000 + 1 / 2⌋ / 1000000)

theorem quantize_of_nonneg {x : ℚ} (hx : 0 ≤ x) : quantize x = ⌊x * 1000000 + 1 / 2⌋ / 1000000 := by
  rw [quantize, if_pos hx]

theorem quantize_zero : quantize 0 = 0 := by
  have hfloor : ⌊(1 / 2 : ℚ)⌋ = 0 := Int.floor_eq_zero_iff.mpr (by norm_num)
  rw [quantize_of_nonneg le_rfl, zero_mul, zero_add, hfloor]
  norm_num

/-- `month_window`. -/
def monthWindow (reference : Date) : Date × Date := (reference.firstDay, reference.lastDay)

/-- `previous_month_date`. -/
def previousMonthDate (reference : Date) : Date := reference.previousMonthLastDay

/-- `should_generate_monthly_invoices`. -/
def shouldGenerateMonthlyInvoices (reference : Date) (invoiceDay : ℤ) : Bool := reference.day = invoiceDay

/-- `estimate_request_cost`. -/
def estimateRequestCost (monthlyTokensUsedBefore requestTokens includedMonthlyTokens : ℤ) (overagePricePer1kTokens : ℚ) :
    ℚ :=
  let beforeOverage := max (monthlyTokensUsedBefore - includedMonthlyTokens) 0
  let afterOverage := max (monthlyTokensUsedBefore + requestTokens - includedMonthlyTokens) 0
  let marginalOverageTokens := max (afterOverage - beforeOverage) 0
  if marginalOverageTokens ≤ 0 then 0 else quantize (marginalOverageTokens / 1000 * overagePricePer1kTokens)

structure InvoicePreview where
  currency : String
  monthlyPrice : ℚ
  includedTokens : ℤ
  usedTokens : ℤ
  overageTokens : ℤ
  overagePricePer1kTokens : ℚ
  overageCost : ℚ
  totalEstimated : ℚ

/-- `build_invoice_preview`. -/
def buildInvoicePreview (plan : EffectivePlan) (monthlyUsedTokens : ℤ) : InvoicePreview :=
  let overageTokens := max (monthlyUsedTokens - plan.monthlyTokenQuota) 0
  let overageCost := quantize (overageTokens / 1000 * plan.overagePricePer1kTokens)
  { currency := plan.currency
    monthlyPrice := plan.monthlyPrice
    includedTokens := plan.monthlyTokenQuota
    usedTokens := monthlyUsedTokens
    overageTokens
    overagePricePer1kTokens := plan.overagePricePer1kTokens
    overageCost
    totalEstimated := quantize (plan.monthlyPrice + overageCost) }

/-- The arguments of `generate_monthly_invoices`. -/
structure Generation where
  referenceDatetime : Datetime
  invoiceDay : ℤ
  dueInDays : ℤ
  suspendAfterDays : ℤ
  paymentMethod : String
  paymentInstructions : Option String
  force : Bool
  clientId : Option ClientId
  deriving DecidableEq

namespace Generation

variable (g : Generation)

def currentTime : Instant := g.referenceDatetime.instant

/-- The month that is billed, by its last day. -/
def periodReference : Date := previousMonthDate g.referenceDatetime.date

def dueAt : Instant := addDays g.currentTime g.dueInDays

/-- The generation does not return at once. -/
def runs : Bool := g.force || shouldGenerateMonthlyInvoices g.referenceDatetime.date g.invoiceDay

/-- The client filter. -/
def covers (c : ClientId) : Bool := g.clientId.all (· == c)

/-- The invoice is the client's for the month that is billed. -/
def bills (c : ClientId) (inv : BillingInvoice) : Bool :=
  inv.clientId = c && inv.periodStart = (monthWindow g.periodReference).1 &&
    inv.periodEnd = (monthWindow g.periodReference).2

end Generation

/-- `build_invoice_record_data`. -/
def buildInvoiceRecordData (g : Generation) (clientId : ClientId) (plan : EffectivePlan) (monthlyUsedTokens : ℤ) :
    BillingInvoice :=
  let preview := buildInvoicePreview plan monthlyUsedTokens
  { clientId
    status := .pending
    currency := preview.currency
    periodStart := (monthWindow g.periodReference).1
    periodEnd := (monthWindow g.periodReference).2
    monthlyPrice := preview.monthlyPrice
    includedTokens := preview.includedTokens
    usedTokens := preview.usedTokens
    overageTokens := preview.overageTokens
    overagePricePer1kTokens := preview.overagePricePer1kTokens
    overageCost := preview.overageCost
    totalAmount := preview.totalEstimated
    paymentMethod := g.paymentMethod
    paymentInstructions := g.paymentInstructions
    dueAt := some g.dueAt
    paidAt := none
    cancelledAt := none }

/-! ## Refreshing statuses -/

/-- `derive_client_billing_status`. -/
def deriveClientBillingStatus (hasOverdueInvoice shouldSuspend : Bool) : BillingStatus :=
  if shouldSuspend then .suspended else if hasOverdueInvoice then .pastDue else .active

/-- A pending invoice whose due time is over. -/
def BillingInvoice.fallsDue (now : Instant) (inv : BillingInvoice) : Bool :=
  inv.status = .pending && inv.dueAt.any (· < now)

/-- The first loop of `refresh_billing_statuses`, on the invoices and on their open payments. -/
def letFallDue (now : Instant) (db : Database) : Database :=
  { db with
    invoices := db.invoices.map fun inv => if inv.fallsDue now then { inv with status := .overdue } else inv
    payments := db.payments.map fun p =>
      if p.status = .pending ∧ (db.invoices[p.invoiceId]?).any (·.fallsDue now) then { p with status := .overdue }
      else p }

/-- The status of client `c` in the second loop. -/
def nextStatus (now : Instant) (suspendAfterDays : ℤ) (invoices : List BillingInvoice) (c : ClientId) :
    BillingStatus :=
  let overdue := invoices.filter fun inv => inv.clientId = c ∧ inv.status = .overdue
  deriveClientBillingStatus (!overdue.isEmpty)
    (overdue.any fun inv => inv.dueAt.any fun due => addDays due suspendAfterDays < now)

/-- `refresh_billing_statuses`, where no due time is too late for the sum with the days. -/
def refreshBillingStatuses (now : Instant) (suspendAfterDays : ℤ) (db : Database) : Database :=
  let db := letFallDue now db
  { db with
    clients := db.clients.mapIdx fun c client =>
      { client with billingStatus := nextStatus now suspendAfterDays db.invoices c } }

/-! ## Generating the invoices of a month -/

/-- `get_usage_snapshot_for_date`, the tokens of the monthly counter. -/
def monthlyUsedTokens (usage : UsageTables) (clientId : ClientId) (reference : Date) : ℤ :=
  ((usage.quotaCounters.lookup (periodKey clientId reference .monthly)).map (·.usedTokens)).getD 0

/-- The open payment of an invoice: the first pending or overdue one. -/
def CustomerPayment.isOpen (i : InvoiceId) (p : CustomerPayment) : Bool :=
  p.invoiceId = i && (p.status = .pending || p.status = .overdue)

/-- A payment record for an invoice, as the generation makes it. -/
def paymentOf (i : InvoiceId) (inv : BillingInvoice) : CustomerPayment :=
  { invoiceId := i, clientId := inv.clientId, status := inv.status, amount := inv.totalAmount,
    currency := inv.currency, paymentMethod := inv.paymentMethod, note := inv.paymentInstructions }

/-- The loop body of `generate_monthly_invoices` for client `c`. -/
def generateInvoice (g : Generation) (db : Database) (c : ClientId) : Database :=
  match db.clients[c]? with
  | none => db
  | some client =>
    let data := buildInvoiceRecordData g c (resolveEffectivePlan client)
      (monthlyUsedTokens db.usage c g.periodReference)
    match db.invoices.findIdx? (g.bills c) with
    | none =>
      { db with
        invoices := db.invoices ++ [data]
        payments := db.payments ++ [paymentOf db.invoices.length data] }
    | some i =>
      if (db.invoices[i]?).any fun existing => existing.status = .paid || existing.status = .cancelled then db
      else
        { db with
          invoices := db.invoices.set i data
          payments :=
            match db.payments.findIdx? (CustomerPayment.isOpen i) with
            | none => db.payments ++ [paymentOf i data]
            | some j => db.payments.modify j fun p =>
              { p with status := data.status, amount := data.totalAmount, currency := data.currency,
                       paymentMethod := data.paymentMethod, note := data.paymentInstructions } }

/-- The clients of `list_client_billing_snapshots`, youngest first. -/
def snapshotClients (g : Generation) (db : Database) : List ClientId :=
  (List.range db.clients.length).reverse.filter g.covers

/-- `generate_monthly_invoices`. -/
def generateMonthlyInvoices (g : Generation) (db : Database) : Database :=
  if g.runs then
    refreshBillingStatuses g.currentTime g.suspendAfterDays ((snapshotClients g db).foldl (generateInvoice g) db)
  else db

end LlmStore.Billing
