import LlmStore.Billing.Delinquency
import LlmStore.Lib.Commits

/-!
# What an operation writes

Said once for all operations: an operation commits nothing, or what it writes, or what it writes and then a refresh of
it (`commits_cases`). `Write` lists what can be written, with the guard that was passed. A relation that generations
and refreshes keep is one that the loop bodies of `services/billing.py` keep (`Swept`).
-/

namespace LlmStore.Billing

open LlmStore.Calendar LlmStore.Lib LlmStore.Usage

/-! ## Generations and refreshes -/

/-- A relation between databases that the loop bodies of generations and refreshes keep, and changes of clients. -/
structure Swept (R : Database → Database → Prop) : Prop where
  refl : ∀ db, R db db
  trans : ∀ a b c, R a b → R b c → R a c
  clients : ∀ db cs, db.clients.length ≤ cs.length → R db { db with clients := cs }
  letFallDue : ∀ now db, R db (letFallDue now db)
  generateInvoice : ∀ g db c, R db (generateInvoice g db c)

namespace Swept

variable {R : Database → Database → Prop}

theorem refresh (h : Swept R) (now : Instant) (days : ℤ) (db : Database) :
    R db (refreshBillingStatuses now days db) :=
  h.trans _ _ _ (h.letFallDue now db) (h.clients _ _ (by simp))

theorem foldl (h : Swept R) (g : Generation) : ∀ (cs : List ClientId) (db : Database),
    R db (cs.foldl (Billing.generateInvoice g) db)
  | [], db => h.refl db
  | c :: cs, db => h.trans _ _ _ (h.generateInvoice g db c) (h.foldl g cs _)

theorem generate (h : Swept R) (g : Generation) (db : Database) : R db (generateMonthlyInvoices g db) := by
  unfold generateMonthlyInvoices
  split_ifs
  · exact h.trans _ _ _ (h.foldl g _ db) (h.refresh _ _ _)
  · exact h.refl db

end Swept

/-! ## Operations -/

/-- A write to a payment that marks it as paid. -/
def Pays (f : CustomerPayment → CustomerPayment) : Prop :=
  ∀ p, (f p).status = .paid ∧ (f p).invoiceId = p.invoiceId

/-- What an operation writes before it refreshes the statuses. -/
inductive Write (db : Database) : Operation → Database → Prop
  | nothing {op : Operation} : Write db op db
  | generated {op : Operation} {g : Generation} (hg : op.generation = some g)
      (hc : g.clientId.all (· < db.clients.length) = true) (suspendAfterDays : ℤ) :
      Write db op (generateMonthlyInvoices { g with suspendAfterDays } db)
  | clients {op : Operation} (cs : List Client) (hcs : db.clients.length ≤ cs.length) :
      Write db op { db with clients := cs }
  | usage {op : Operation} (u : UsageTables) : Write db op { db with usage := u }
  | markedOverdue {later : Instant} {i : InvoiceId} {inv : BillingInvoice} (hi : db.invoices[i]? = some inv)
      (hs : inv.status ≠ .paid) :
      Write db (.markInvoiceOverdue later i) (db.setInvoice i fun inv => { inv with status := .overdue })
  | markedPaid {now later : Instant} {i : InvoiceId} {payload : InvoiceMarkPaidRequest} {inv : BillingInvoice}
      (hi : db.invoices[i]? = some inv) (hs : ¬ inv.closed) (paidAt : Instant)
      {pay : CustomerPayment → CustomerPayment} (hpay : Pays pay) {new : CustomerPayment} (hnew : new.invoiceId = i)
      (cs : List Client) (hcs : db.clients.length ≤ cs.length) :
      Write db (.markInvoicePaid now later i payload)
        { (db.setInvoice i fun inv => { inv with status := .paid, paidAt := some paidAt, cancelledAt := none }
            ).setOpenPayment i pay new with clients := cs }
  | cancelled {now later : Instant} {i : InvoiceId} {inv : BillingInvoice} (hi : db.invoices[i]? = some inv)
      (hs : ¬ inv.closed) :
      Write db (.cancelInvoice now later i)
        { db.setInvoice i (fun inv => { inv with status := .cancelled, cancelledAt := some now }) with
          payments := db.payments.map fun p =>
            if p.invoiceId = i ∧ p.status ≠ .paid then { p with status := .cancelled, cancelledAt := some now } else p }
  | paymentAdded {clientLoaded : Bool} {later : Instant} {payload : PaymentCreate} {inv : BillingInvoice}
      (hi : db.invoices[payload.invoiceId]? = some inv) (hs : payload.paidAt.isSome → inv.status = .paid)
      {p : CustomerPayment} (hp : p.invoiceId = payload.invoiceId)
      (hps : p.status = if payload.paidAt.isSome then .paid else .pending) :
      Write db (.createPayment clientLoaded later payload) (db.addPayment p)
  | invoiceSettled {later : Instant} {payload : PaymentCreate} {inv : BillingInvoice}
      (hi : db.invoices[payload.invoiceId]? = some inv) (hpaid : payload.paidAt.isSome) (hs : inv.status ≠ .paid)
      {p : CustomerPayment} (hp : p.invoiceId = payload.invoiceId) (hps : p.status = .paid)
      (cs : List Client) (hcs : db.clients.length ≤ cs.length) :
      Write db (.createPayment true later payload)
        { (db.addPayment p).setInvoice payload.invoiceId fun inv =>
            { inv with status := .paid, paidAt := payload.paidAt } with clients := cs }
  | paymentCancelled {now : Instant} {p : PaymentId} {q : CustomerPayment} (hp : db.payments[p]? = some q)
      (hs : q.status ≠ .cancelled) :
      Write db (.cancelPayment now p)
        (db.setPayment p fun q => { q with status := .cancelled, cancelledAt := some now })
  | webhookPaid {now later : Instant} {payload : WebhookPayload} {i : InvoiceId} {inv : BillingInvoice}
      (hid : payload.invoiceId = some i) (hstatus : payload.status = "paid") (hi : db.invoices[i]? = some inv)
      (hs : inv.status ≠ .paid) {pay : CustomerPayment → CustomerPayment} (hpay : Pays pay) {new : CustomerPayment}
      (hnew : new.invoiceId = i) :
      Write db (.pixWebhook now later payload)
        ((db.setInvoice i fun inv => { inv with status := .paid, paidAt := some now }).setOpenPayment i pay new)

section Commits

variable (suspendAfterDays : ℤ)

/-- The states that an operation can commit when it writes `w`. -/
inductive Commits (w : Database) : List Database → Prop
  | write : Commits w [w]
  | refresh (later : Instant) : Commits w [refreshBillingStatuses later suspendAfterDays w]
  | both (later : Instant) : Commits w [w, refreshBillingStatuses later suspendAfterDays w]

variable {suspendAfterDays} {db : Database}

/-- **What an operation commits**: nothing, or what it writes, refreshed or not. -/
theorem commits_cases (suspendAfterDays : ℤ) (db : Database) (op : Operation) :
    commits suspendAfterDays db op = [] ∨
      ∃ w, Write db op w ∧ Commits suspendAfterDays w (commits suspendAfterDays db op) := by
  cases op with
  | generateInvoices g =>
    simp only [commits, generateInvoices]
    split_ifs with hc
    · exact .inr ⟨_, .generated (g := { g with force := true }) rfl hc suspendAfterDays, .write⟩
    · exact .inl rfl
  | runBillingCycle g later =>
    exact .inr ⟨_, .generated (g := { g with force := false, clientId := none }) rfl rfl suspendAfterDays, .both later⟩
  | runBillingCycleOnce g later =>
    exact .inr
      ⟨_, .generated (g := { g with force := false, clientId := none }) rfl rfl suspendAfterDays, .refresh later⟩
  | refresh now => exact .inr ⟨db, .nothing, .refresh now⟩
  | markInvoiceOverdue later i =>
    simp only [commits, markInvoiceOverdue]
    split
    · exact .inl rfl
    · rename_i inv hi
      split_ifs with hs
      · exact .inl rfl
      · exact .inr ⟨_, .markedOverdue hi hs, .both later⟩
  | markInvoicePaid now later i payload =>
    simp only [commits, markInvoicePaid]
    split
    · exact .inl rfl
    · rename_i inv hi
      split_ifs with hc hp
      · exact .inl rfl
      · exact .inl rfl
      · have hopen : ¬ inv.closed := by
          rintro (h | h)
          · exact hp h
          · exact hc h
        refine .inr ⟨_, .markedPaid hi hopen _ ?_ ?_ _ ?_, .both later⟩
        · exact fun p => ⟨rfl, rfl⟩
        · rfl
        · simp
  | cancelInvoice now later i =>
    simp only [commits, cancelInvoice]
    split
    · exact .inl rfl
    · rename_i inv hi
      split_ifs with hp hc
      · exact .inl rfl
      · exact .inl rfl
      · have hopen : ¬ inv.closed := by
          rintro (h | h)
          · exact hp h
          · exact hc h
        exact .inr ⟨_, .cancelled hi hopen, .both later⟩
  | createPayment clientLoaded later payload =>
    simp only [commits, createPayment]
    split
    · exact .inl rfl
    · rename_i inv hi
      by_cases hpays : payload.paidAt.isSome ∧ inv.status ≠ .paid
      · rw [if_pos hpays]
        cases clientLoaded with
        | false => exact .inl rfl
        | true =>
          refine .inr ⟨_, .invoiceSettled hi hpays.1 hpays.2 ?_ ?_ _ ?_, .both later⟩
          · rfl
          · exact if_pos hpays.1
          · simp [Database.addPayment]
      · rw [if_neg hpays]
        refine .inr ⟨_, .paymentAdded hi (fun h => ?_) ?_ ?_, .both later⟩
        · by_contra hs
          exact hpays ⟨h, hs⟩
        · rfl
        · rfl
  | cancelPayment now p =>
    simp only [commits, cancelPayment]
    split
    · exact .inl rfl
    · rename_i q hq
      split_ifs with hs
      · exact .inl rfl
      · exact .inr ⟨_, .paymentCancelled hq hs, .write⟩
  | pixWebhook now later payload =>
    simp only [commits, pixWebhook]
    split
    · exact .inl rfl
    · rename_i i hid
      split
      · exact .inl rfl
      · rename_i inv hi
        by_cases hp : inv.status = .paid
        · rw [if_pos hp]
          exact .inl rfl
        · rw [if_neg hp]
          by_cases hstatus : payload.status = "paid"
          · rw [if_pos hstatus]
            refine .inr ⟨_, .webhookPaid hid hstatus hi hp ?_ ?_, .refresh later⟩
            · exact fun p => ⟨rfl, rfl⟩
            · rfl
          · rw [if_neg hstatus]
            exact .inl rfl
  | patchClient c patch =>
    simp only [commits, patchClient]
    split_ifs
    · exact .inr ⟨_, .clients _ (by simp), .write⟩
    · exact .inl rfl
  | addClient plan quota => exact .inr ⟨_, .clients _ (by simp), .write⟩
  | recordUsage c today prompt completion => exact .inr ⟨_, .usage _, .write⟩

/-- A swept relation that an operation's write keeps holds between all states it commits. -/
theorem Swept.commits {R : Database → Database → Prop} (h : Swept R) (suspendAfterDays : ℤ) {op : Operation}
    (hw : ∀ w, Write db op w → R db w) : (db :: Billing.commits suspendAfterDays db op).Pairwise R := by
  rcases commits_cases suspendAfterDays db op with he | ⟨w, hwrite, hcommits⟩
  · rw [he]
    exact List.pairwise_singleton R db
  · have hr := fun later => h.refresh later suspendAfterDays w
    generalize Billing.commits suspendAfterDays db op = dbs at hcommits
    cases hcommits with
    | write => simpa using hw w hwrite
    | refresh later => simpa using h.trans _ _ _ (hw w hwrite) (hr later)
    | both later => simpa using ⟨⟨hw w hwrite, h.trans _ _ _ (hw w hwrite) (hr later)⟩, hr later⟩

/-- The states that runs of billing operations commit. -/
theorem history_eq : ∀ (ops : List Operation) (db : Database),
    Billing.history suspendAfterDays db ops = Lib.history (Billing.commits suspendAfterDays) db ops
  | [], _ => rfl
  | op :: ops, db => by
    rw [Billing.history, Lib.history, history_eq ops, after]

end Commits

end LlmStore.Billing
