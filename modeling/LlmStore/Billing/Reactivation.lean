import LlmStore.Billing.Refresh
import LlmStore.Billing.Settlement

/-!
# Paying one of several overdue invoices

`mark_invoice_paid` and `create_payment` set the client of the invoice to `active`, commit, and only then refresh and
commit again. A client that owes another invoice is `active` in between, and stays so if the refresh fails
(`reactivation_iff`).
-/

namespace LlmStore.Billing

open LlmStore.Calendar LlmStore.Lib LlmStore.Usage

/-- The client has an overdue invoice that is not invoice `i`. -/
def OwesAnother (i : InvoiceId) (c : ClientId) (db : Database) : Prop :=
  ∃ (j : InvoiceId) (inv : BillingInvoice), j ≠ i ∧ db.invoices[j]? = some inv ∧ inv.clientId = c ∧
    inv.status = .overdue

/-- The client is not `active` while it owes another invoice. -/
def HeldBack (i : InvoiceId) (c : ClientId) (db : Database) : Prop := OwesAnother i c db → Delinquent db c

/-- The invoice for which an operation records a payment that has been made. -/
def Operation.pays : Operation → Option InvoiceId
  | .markInvoicePaid _ _ i _ => some i
  | .createPayment _ _ payload => if payload.paidAt.isSome then some payload.invoiceId else none
  | _ => none

/-- The operation marks an invoice of the client as paid: one that is there and, for `mark_invoice_paid`, open, for
`create_payment` only not paid, when the client of the invoice is loaded. -/
def MarksPaid (db : Database) (c : ClientId) : Operation → Prop
  | .markInvoicePaid _ _ i _ => ∃ inv, db.invoices[i]? = some inv ∧ inv.clientId = c ∧ ¬ inv.closed
  | .createPayment clientLoaded _ payload =>
    payload.paidAt.isSome = true ∧ clientLoaded = true ∧ Owes db payload.invoiceId c
  | _ => False

section HeldBack

variable {i : InvoiceId} {c : ClientId} {db w : Database}

theorem OwesAnother.overdue (h : OwesAnother i c db) : Overdue db c := by
  obtain ⟨j, inv, -, hj, hc, ho⟩ := h
  exact ⟨inv, List.mem_of_getElem? hj, hc, ho⟩

/-- A refresh holds every client back that owes an invoice. -/
theorem heldBack_refresh (hc : c < db.clients.length) (now : Instant) (days : ℤ) :
    HeldBack i c (refreshBillingStatuses now days db) := by
  intro h
  exact delinquent_refresh_iff.mpr ⟨hc, h.overdue⟩

/-- Whether the client owes another invoice does not depend on invoice `i`. -/
theorem owesAnother_setInvoice (f : BillingInvoice → BillingInvoice) :
    OwesAnother i c (db.setInvoice i f) ↔ OwesAnother i c db := by
  unfold OwesAnother Database.setInvoice
  refine exists_congr fun j => exists_congr fun inv => and_congr_right fun hj => ?_
  have hrow : (db.invoices.modify i f)[j]? = db.invoices[j]? := by simp [hj.symm]
  rw [← hrow]

theorem OwesAnother.congr (hinvoices : w.invoices = db.invoices) : OwesAnother i c w ↔ OwesAnother i c db := by
  rw [OwesAnother, OwesAnother, hinvoices]

/-- A write that also sets client `c₀` to `active`. -/
theorem heldBack_activate (hclients : w.clients = db.clients) (howes : OwesAnother i c w ↔ OwesAnother i c db)
    (hheld : HeldBack i c db) (c₀ : ClientId) :
    HeldBack i c (w.setClient c₀ fun client => { client with billingStatus := .active }) ↔
      (c₀ = c → ¬ OwesAnother i c db) := by
  have hdel : Delinquent w c ↔ Delinquent db c := by rw [Delinquent, Delinquent, hclients]
  have hsame : OwesAnother i c (w.setClient c₀ fun client => { client with billingStatus := .active }) ↔
      OwesAnother i c w := OwesAnother.congr rfl
  rw [HeldBack, hsame, howes, delinquent_activate, hdel]
  constructor
  · rintro h rfl ho
    exact (h ho).1 rfl
  · intro h ho
    exact ⟨fun hc => h hc.symm ho, hheld ho⟩

/-- The states of an operation that commits a write and then a refresh of it. -/
theorem heldBack_two (hlength : c < w.clients.length) (now : Instant) (days : ℤ) :
    (∀ t ∈ db :: [w, refreshBillingStatuses now days w], HeldBack i c t) ↔ HeldBack i c db ∧ HeldBack i c w := by
  constructor
  · exact fun h => ⟨h db (by simp), h w (by simp)⟩
  · rintro ⟨hdb, hw⟩ t ht
    simp only [List.mem_cons, List.not_mem_nil, or_false] at ht
    rcases ht with rfl | rfl | rfl
    · exact hdb
    · exact hw
    · exact heldBack_refresh hlength now days

theorem heldBack_none {op : Operation} (hmarks : ¬ MarksPaid db c op) :
    (∀ t ∈ db :: [], HeldBack i c t) ↔ HeldBack i c db ∧ (MarksPaid db c op → ¬ OwesAnother i c db) := by
  simp [hmarks]

end HeldBack

/-! ## The two operations -/

section Operations

variable (days : ℤ) {db : Database} {c : ClientId}

theorem heldBack_markInvoicePaid (hc : c < db.clients.length) (now later : Instant) (i : InvoiceId)
    (payload : InvoiceMarkPaidRequest) :
    (∀ t ∈ db :: commits days db (.markInvoicePaid now later i payload), HeldBack i c t) ↔
      HeldBack i c db ∧ (MarksPaid db c (.markInvoicePaid now later i payload) → ¬ OwesAnother i c db) := by
  have hcommits : commits days db (.markInvoicePaid now later i payload) =
      committed (markInvoicePaid days now later i payload db) := rfl
  cases hi : db.invoices[i]? with
  | none =>
    rw [hcommits, markInvoicePaid, hi]
    refine heldBack_none ?_
    rintro ⟨inv, hinv, -⟩
    rw [hi] at hinv
    cases hinv
  | some invoice =>
    have hown : ∀ {inv}, db.invoices[i]? = some inv → inv = invoice :=
      fun h => Option.some.inj (h.symm.trans hi)
    rw [hcommits, markInvoicePaid, hi]
    by_cases hcancelled : invoice.status = .cancelled
    · simp only [if_pos hcancelled]
      refine heldBack_none ?_
      rintro ⟨inv, hinv, -, hopen⟩
      obtain rfl := hown hinv
      exact hopen (.inr hcancelled)
    by_cases hpaid : invoice.status = .paid
    · simp only [if_neg hcancelled, if_pos hpaid]
      refine heldBack_none ?_
      rintro ⟨inv, hinv, -, hopen⟩
      obtain rfl := hown hinv
      exact hopen (.inl hpaid)
    · simp only [if_neg hcancelled, if_neg hpaid]
      refine (heldBack_two ?_ later days).trans (and_congr_right fun hheld => ?_)
      · simpa [Database.setClient] using hc
      refine (heldBack_activate ?_ ?_ hheld invoice.clientId).trans (imp_congr_left ?_)
      · simp
      · rw [OwesAnother.congr (Database.setOpenPayment_invoices ..), owesAnother_setInvoice]
      · constructor
        · exact fun he => ⟨invoice, hi, he, fun hclosed => hclosed.elim hpaid hcancelled⟩
        · rintro ⟨inv, hinv, he, -⟩
          obtain rfl := hown hinv
          exact he

theorem heldBack_createPayment (hc : c < db.clients.length) (clientLoaded : Bool) (later : Instant)
    (payload : PaymentCreate) :
    (∀ t ∈ db :: commits days db (.createPayment clientLoaded later payload), HeldBack payload.invoiceId c t) ↔
      HeldBack payload.invoiceId c db ∧
        (MarksPaid db c (.createPayment clientLoaded later payload) → ¬ OwesAnother payload.invoiceId c db) := by
  have hcommits : commits days db (.createPayment clientLoaded later payload) =
      committed (createPayment days clientLoaded later payload db) := rfl
  cases hi : db.invoices[payload.invoiceId]? with
  | none =>
    rw [hcommits, createPayment, hi]
    refine heldBack_none ?_
    rintro ⟨-, -, inv, hinv, -⟩
    rw [hi] at hinv
    cases hinv
  | some invoice =>
    rw [hcommits, createPayment, hi]
    by_cases hpays : payload.paidAt.isSome = true ∧ invoice.status ≠ .paid
    · simp only [if_pos hpays]
      cases clientLoaded with
      | false =>
        refine heldBack_none ?_
        rintro ⟨-, hloaded, -⟩
        cases hloaded
      | true =>
        refine (heldBack_two ?_ later days).trans (and_congr_right fun hheld => ?_)
        · simpa [Database.setClient, Database.addPayment] using hc
        refine (heldBack_activate ?_ ?_ hheld invoice.clientId).trans (imp_congr_left ?_)
        · rfl
        · rw [owesAnother_setInvoice]
          exact OwesAnother.congr rfl
        · constructor
          · exact fun he => ⟨hpays.1, rfl, invoice, hi, he, hpays.2⟩
          · rintro ⟨-, -, inv, hinv, he, -⟩
            obtain rfl := Option.some.inj (hinv.symm.trans hi)
            exact he
    · simp only [if_neg hpays]
      refine (heldBack_two ?_ later days).trans (and_congr_right fun hheld => ?_)
      · exact hc
      refine iff_of_true hheld fun hmarks => absurd ?_ hpays
      obtain ⟨hat, -, inv, hinv, -, hs⟩ := hmarks
      obtain rfl := Option.some.inj (hinv.symm.trans hi)
      exact ⟨hat, hs⟩

/-- **When paying does not reactivate a client that owes another invoice**: in every state committed by the call, also
if it stops after some of its commits, the client is held back exactly if it is so at the start, and owes nothing else
when the call marks an invoice of its own as paid. -/
theorem reactivation_iff (hc : c < db.clients.length) {op : Operation} {i : InvoiceId} (hop : op.pays = some i) :
    (∀ k, ∀ t ∈ db :: (commits days db op).take k, HeldBack i c t) ↔
      HeldBack i c db ∧ (MarksPaid db c op → ¬ OwesAnother i c db) := by
  have hall : (∀ k, ∀ t ∈ db :: (commits days db op).take k, HeldBack i c t) ↔
      ∀ t ∈ db :: commits days db op, HeldBack i c t := by
    constructor
    · intro h
      have hlast := h (commits days db op).length
      rwa [List.take_length] at hlast
    · intro h k t ht
      rw [List.mem_cons] at ht
      rcases ht with rfl | ht
      · exact h t List.mem_cons_self
      · exact h t (List.mem_cons_of_mem _ (List.mem_of_mem_take ht))
  rw [hall]
  cases op with
  | markInvoicePaid now later j payload =>
    obtain rfl := Option.some.inj hop
    exact heldBack_markInvoicePaid days hc now later j payload
  | createPayment clientLoaded later payload =>
    simp only [Operation.pays] at hop
    split_ifs at hop
    obtain rfl := Option.some.inj hop
    exact heldBack_createPayment days hc clientLoaded later payload
  | generateInvoices => cases hop
  | runBillingCycle => cases hop
  | runBillingCycleOnce => cases hop
  | refresh => cases hop
  | markInvoiceOverdue => cases hop
  | cancelInvoice => cases hop
  | cancelPayment => cases hop
  | pixWebhook => cases hop
  | patchClient => cases hop
  | addClient => cases hop
  | recordUsage => cases hop

end Operations

/-! ## Two invoices overdue -/

/-- After the client's invoice for April and that of `second`, neither of them paid, and a refresh at `now`. -/
def twiceOverdue (second : Generation) (now : Instant) : Database :=
  (run (step 15) emptyDatabase (firstInvoice ++ [.generateInvoices second, .refresh now])).getD emptyDatabase

theorem reactivation_iff_twice :
    let db := twiceOverdue (generationOn 6 8) (generationOn 7 1).currentTime
    (∀ k, ∀ t ∈ db :: (commits 15 db (.markInvoicePaid 0 0 0 paidInFull)).take k, HeldBack 0 0 t) ↔
      HeldBack 0 0 db ∧ (MarksPaid db 0 (.markInvoicePaid 0 0 0 paidInFull) → ¬ OwesAnother 0 0 db) :=
  reactivation_iff 15 (by decide +kernel) rfl

/-- **Paying the first invoice reactivates the client** until the refresh is committed. -/
theorem reactivated_too_early : ¬ ∀ (days : ℤ) (db : Database) (c : ClientId) (op : Operation) (i : InvoiceId),
    c < db.clients.length → op.pays = some i → HeldBack i c db →
    ∀ k, ∀ t ∈ db :: (commits days db op).take k, HeldBack i c t := by
  intro h
  let db := twiceOverdue (generationOn 6 8) (generationOn 7 1).currentTime
  have hrow : ∀ j < 2, ∃ inv, db.invoices[j]? = some inv ∧ inv.clientId = 0 ∧ inv.status = .overdue := by
    have hrows : db.invoices.map (fun inv => (inv.clientId, inv.status)) = List.replicate 2 (0, .overdue) := by
      decide +kernel +zetaReduce
    intro j hj
    have hat := congrArg (·[j]?) hrows
    simp only [List.getElem?_map, List.getElem?_replicate, if_pos hj, Option.map_eq_some_iff, Prod.mk.injEq] at hat
    exact hat
  obtain ⟨second, hsecond, hc, ho⟩ := hrow 1 (by decide)
  have howes : OwesAnother 0 0 db := ⟨1, second, by decide, hsecond, hc, ho⟩
  obtain ⟨first, hfirst, hc', ho'⟩ := hrow 0 (by decide)
  have hmarks : MarksPaid db 0 (.markInvoicePaid 0 0 0 paidInFull) := by
    refine ⟨first, hfirst, hc', ?_⟩
    rw [BillingInvoice.closed, ho']
    decide
  have hclients : 0 < db.clients.length := by decide +kernel +zetaReduce
  have hstart : HeldBack 0 0 db := fun _ => by decide +kernel +zetaReduce
  have hafter := h 15 db 0 (.markInvoicePaid 0 0 0 paidInFull) 0 hclients rfl hstart 2
  rw [List.take_of_length_le (by decide +kernel +zetaReduce)] at hafter
  exact ((heldBack_markInvoicePaid 15 hclients 0 0 0 paidInFull).mp hafter).2 hmarks howes

end LlmStore.Billing
