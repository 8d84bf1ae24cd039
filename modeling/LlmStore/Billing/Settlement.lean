import LlmStore.Billing.ClosedInvoices

/-!
# Invoices and their payments

Invoices and payments are written by different handlers. Two counts say what the handlers make of the payments of an
invoice: how many are paid and how many are still open. A paid invoice is backed by a paid payment in precisely the
runs that never cancel the only one (`backed_iff`); a closed invoice has no open payment in precisely the runs that
never close one with too many, and never add one to a closed one (`nothingOpen_iff`).
-/

namespace LlmStore.Billing

open LlmStore.Calendar LlmStore.Lib LlmStore.Usage

/-! ## Counting payments -/

theorem countP_modify {α : Type} (q : α → Bool) (f : α → α) : ∀ {l : List α} {j : ℕ} {x : α}, l[j]? = some x →
    (l.modify j f).countP q + (if q x then 1 else 0) = l.countP q + (if q (f x) then 1 else 0)
  | y :: l, 0, x, h => by
    obtain rfl : y = x := by simpa using h
    rw [List.modify_zero_cons, List.countP_cons, List.countP_cons]
    omega
  | y :: l, j + 1, x, h => by
    have ih := countP_modify q f (l := l) (j := j) (x := x) (by simpa using h)
    rw [List.modify_succ_cons, List.countP_cons, List.countP_cons]
    omega

/-- A paid payment of invoice `i`. -/
def CustomerPayment.isPaid (i : InvoiceId) (p : CustomerPayment) : Bool := p.invoiceId = i && p.status = .paid

/-- The number of paid payments of an invoice. -/
def paidCount (db : Database) (i : InvoiceId) : ℕ := db.payments.countP (CustomerPayment.isPaid i)

/-- The number of pending and overdue payments of an invoice. -/
def openCount (db : Database) (i : InvoiceId) : ℕ := db.payments.countP (CustomerPayment.isOpen i)

section Counts

variable {db : Database}

/-- The payment that `setOpenPayment` writes: the first open one of the invoice, or a new one if none is open. -/
theorem countP_setOpenPayment (q : CustomerPayment → Bool) (db : Database) (i : InvoiceId)
    (f : CustomerPayment → CustomerPayment) (new : CustomerPayment) :
    (∃ x, x.isOpen i = true ∧ (db.setOpenPayment i f new).payments.countP q + (if q x then 1 else 0) =
        db.payments.countP q + (if q (f x) then 1 else 0)) ∨
      openCount db i = 0 ∧
        (db.setOpenPayment i f new).payments.countP q = db.payments.countP q + (if q (f new) then 1 else 0) := by
  unfold Database.setOpenPayment
  cases hj : db.payments.findIdx? (CustomerPayment.isOpen i) with
  | none =>
    refine .inr ⟨?_, by simp [Database.addPayment]⟩
    exact List.countP_eq_zero.mpr fun p hp => by simp [List.findIdx?_eq_none_iff.mp hj p hp]
  | some j =>
    obtain ⟨hlt, hopen, -⟩ := List.findIdx?_eq_some_iff_getElem.mp hj
    exact .inl ⟨db.payments[j], hopen, countP_modify q f (List.getElem?_eq_getElem hlt)⟩

theorem isOpen_iff {i : InvoiceId} {p : CustomerPayment} :
    p.isOpen i = true ↔ p.invoiceId = i ∧ (p.status = .pending ∨ p.status = .overdue) := by
  simp [CustomerPayment.isOpen]

theorem isPaid_iff {i : InvoiceId} {p : CustomerPayment} : p.isPaid i = true ↔ p.invoiceId = i ∧ p.status = .paid := by
  simp [CustomerPayment.isPaid]

/-- Paying the open payment of an invoice adds a paid one to that invoice. -/
theorem paidCount_pay (db : Database) {i : InvoiceId} {pay : CustomerPayment → CustomerPayment} (hpay : Pays pay)
    {new : CustomerPayment} (hnew : new.invoiceId = i) (j : InvoiceId) :
    paidCount (db.setOpenPayment i pay new) j = paidCount db j + (if i = j then 1 else 0) := by
  rcases countP_setOpenPayment (CustomerPayment.isPaid j) db i pay new with ⟨x, hx, hcount⟩ | ⟨-, hcount⟩
  · obtain ⟨hi, hs⟩ := isOpen_iff.mp hx
    have hunpaid : x.isPaid j = false := by rcases hs with hs | hs <;> simp [CustomerPayment.isPaid, hs]
    have hpaid : (pay x).isPaid j = true ↔ i = j := by simp [isPaid_iff, hpay x, hi]
    simp only [hunpaid, hpaid, Bool.false_eq_true, ↓reduceIte, Nat.add_zero] at hcount
    exact hcount
  · have hpaid : (pay new).isPaid j = true ↔ i = j := by simp [isPaid_iff, hpay new, hnew]
    simp only [hpaid] at hcount
    exact hcount

/-- Paying the open payment of an invoice leaves it one open payment less. -/
theorem openCount_pay (db : Database) {i : InvoiceId} {pay : CustomerPayment → CustomerPayment} (hpay : Pays pay)
    (new : CustomerPayment) (j : InvoiceId) :
    openCount (db.setOpenPayment i pay new) j = openCount db j - (if i = j then 1 else 0) := by
  have hclosed : ∀ p, (pay p).isOpen j = false := fun p => by simp [CustomerPayment.isOpen, hpay p]
  rcases countP_setOpenPayment (CustomerPayment.isOpen j) db i pay new with ⟨x, hx, hcount⟩ | ⟨hnone, hcount⟩
  · have hopen : x.isOpen j = true ↔ i = j := by
      obtain ⟨hi, hs⟩ := isOpen_iff.mp hx
      simp [isOpen_iff, hi, hs]
    simp only [hopen, hclosed, Bool.false_eq_true, ↓reduceIte, Nat.add_zero] at hcount
    unfold openCount
    omega
  · simp only [hclosed, Bool.false_eq_true, ↓reduceIte, Nat.add_zero] at hcount
    have heq : openCount (db.setOpenPayment i pay new) j = openCount db j := hcount
    rw [heq]
    split_ifs with hij
    · subst hij
      rw [hnone]
    · rfl

/-- Drawing up the open payment of an invoice again pays nothing and opens none of another invoice. -/
theorem counts_redraw (db : Database) {i : InvoiceId} {f : CustomerPayment → CustomerPayment}
    (hf : ∀ p, (f p).status = .pending ∧ (f p).invoiceId = p.invoiceId) (new : CustomerPayment)
    (hnew : new.invoiceId = i) (j : InvoiceId) :
    paidCount (db.setOpenPayment i f new) j = paidCount db j ∧
      (i ≠ j → openCount (db.setOpenPayment i f new) j = openCount db j) := by
  have hunpaid : ∀ p, (f p).isPaid j = false := fun p => by simp [CustomerPayment.isPaid, hf p]
  constructor
  · rcases countP_setOpenPayment (CustomerPayment.isPaid j) db i f new with ⟨x, hx, hcount⟩ | ⟨-, hcount⟩
    · have hx' : x.isPaid j = false := by
        rcases (isOpen_iff.mp hx).2 with hs | hs <;> simp [CustomerPayment.isPaid, hs]
      simp only [hunpaid, hx', Bool.false_eq_true, ↓reduceIte, Nat.add_zero] at hcount
      exact hcount
    · simp only [hunpaid, Bool.false_eq_true, ↓reduceIte, Nat.add_zero] at hcount
      exact hcount
  · intro hij
    have hother : ∀ p : CustomerPayment, p.invoiceId = i → p.isOpen j = false := by
      intro p hp
      simp [CustomerPayment.isOpen, hp, hij]
    rcases countP_setOpenPayment (CustomerPayment.isOpen j) db i f new with ⟨x, hx, hcount⟩ | ⟨-, hcount⟩
    · have hi := (isOpen_iff.mp hx).1
      simp only [hother x hi, hother (f x) ((hf x).2.trans hi), Bool.false_eq_true, ↓reduceIte, Nat.add_zero] at hcount
      exact hcount
    · simp only [hother (f new) ((hf new).2.trans hnew), Bool.false_eq_true, ↓reduceIte, Nat.add_zero] at hcount
      exact hcount

/-- A cancelled payment is neither paid nor open. -/
theorem counts_cancelPayment {p : PaymentId} {q : CustomerPayment} (hq : db.payments[p]? = some q) (now : Instant)
    (j : InvoiceId) :
    paidCount (db.setPayment p fun q => { q with status := .cancelled, cancelledAt := some now }) j +
        (if q.isPaid j = true then 1 else 0) = paidCount db j ∧
      openCount (db.setPayment p fun q => { q with status := .cancelled, cancelledAt := some now }) j +
        (if q.isOpen j = true then 1 else 0) = openCount db j :=
  ⟨(countP_modify _ _ hq).trans (by simp [CustomerPayment.isPaid, paidCount]),
    (countP_modify _ _ hq).trans (by simp [CustomerPayment.isOpen, openCount])⟩

/-- Payments fall due as open ones. -/
theorem counts_letFallDue (now : Instant) (db : Database) (j : InvoiceId) :
    paidCount (letFallDue now db) j = paidCount db j ∧ openCount (letFallDue now db) j = openCount db j := by
  have hpaid : ∀ p : CustomerPayment, ∀ b : Prop, [Decidable b] →
      (if p.status = .pending ∧ b then { p with status := .overdue } else p).isPaid j = p.isPaid j := by
    intro p b _
    split_ifs with h
    · simp [CustomerPayment.isPaid, h.1]
    · rfl
  have hopen : ∀ p : CustomerPayment, ∀ b : Prop, [Decidable b] →
      (if p.status = .pending ∧ b then { p with status := .overdue } else p).isOpen j = p.isOpen j := by
    intro p b _
    split_ifs with h
    · simp [CustomerPayment.isOpen, h.1]
    · rfl
  simp only [paidCount, openCount, letFallDue, List.countP_map]
  exact ⟨List.countP_congr fun p _ => by simp [hpaid], List.countP_congr fun p _ => by simp [hopen]⟩

end Counts

/-! ## Closed invoices of before -/

/-- Closed invoices of `db'` are invoices of `db`. -/
def ClosedFrom (db db' : Database) : Prop :=
  ∀ (i : InvoiceId) (inv : BillingInvoice), db'.invoices[i]? = some inv → inv.closed → db.invoices[i]? = some inv

section ClosedFrom

variable {db : Database}

/-- An invoice after a write to one of them. -/
theorem getElem?_setInvoice {i j : InvoiceId} {f : BillingInvoice → BillingInvoice} {inv' : BillingInvoice}
    (h : (db.setInvoice i f).invoices[j]? = some inv') :
    (i = j ∧ ∃ inv, db.invoices[i]? = some inv ∧ inv' = f inv) ∨ i ≠ j ∧ db.invoices[j]? = some inv' := by
  by_cases hij : i = j
  · subst hij
    rw [Database.setInvoice, List.getElem?_modify_eq] at h
    obtain ⟨inv, hi, rfl⟩ := Option.map_eq_some_iff.mp h
    exact .inl ⟨rfl, inv, hi, rfl⟩
  · rw [Database.setInvoice, List.getElem?_modify_ne f _ hij] at h
    exact .inr ⟨hij, h⟩

theorem closedFrom_setInvoice {i : InvoiceId} {f : BillingInvoice → BillingInvoice} (hf : ∀ inv, ¬ (f inv).closed) :
    ClosedFrom db (db.setInvoice i f) := by
  intro j inv' hj hclosed
  rcases getElem?_setInvoice hj with ⟨-, inv, -, rfl⟩ | ⟨-, hj⟩
  · exact absurd hclosed (hf inv)
  · exact hj

theorem closedFrom_letFallDue (now : Instant) (db : Database) : ClosedFrom db (letFallDue now db) := by
  intro i inv' hi hclosed
  simp only [letFallDue, List.getElem?_map, Option.map_eq_some_iff] at hi
  obtain ⟨inv, hi, rfl⟩ := hi
  split_ifs at hclosed ⊢ with hf
  · rcases hclosed with h | h <;> cases h
  · exact hi

/-- What a generation does to closed invoices and to payments: nothing but payments of open invoices changes. -/
theorem generateInvoice_counts (g : Generation) (db : Database) (c : ClientId) :
    ClosedFrom db (generateInvoice g db c) ∧ (∀ i, paidCount (generateInvoice g db c) i = paidCount db i) ∧
      ∀ i inv, (generateInvoice g db c).invoices[i]? = some inv → inv.closed →
        openCount (generateInvoice g db c) i = openCount db i := by
  rcases generateInvoice_writes g db c with ⟨he, -⟩ | ⟨plan, used, -, -, -, he⟩ | ⟨i, inv, plan, used, -, hi, -, hopen, he⟩
  · rw [he]
    exact ⟨fun _ _ h _ => h, fun _ => rfl, fun _ _ _ _ => rfl⟩
  · rw [he]
    have hnew : ∀ j inv', (db.invoices ++ [buildInvoiceRecordData g c plan used])[j]? = some inv' → inv'.closed →
        j < db.invoices.length := by
      intro j inv' hj hclosed
      by_contra hge
      rw [List.getElem?_append_right (Nat.not_lt.mp hge), List.getElem?_singleton] at hj
      split_ifs at hj
      cases hj
      rcases hclosed with h | h <;> cases h
    refine ⟨fun j inv' hj hclosed => ?_, fun j => ?_, fun j inv' hj hclosed => ?_⟩
    · exact (List.getElem?_append_left (hnew j inv' hj hclosed)).symm.trans hj
    · simp [paidCount, CustomerPayment.isPaid, paymentOf, buildInvoiceRecordData]
    · have hlt := hnew j inv' hj hclosed
      have hne : ¬ db.invoices.length = j := by omega
      simp [openCount, CustomerPayment.isOpen, paymentOf, hne]
  · rw [he]
    have hcounts := counts_redraw (db.setInvoice i fun _ => buildInvoiceRecordData g c plan used)
      (f := redrawPayment (buildInvoiceRecordData g c plan used)) (fun p => ⟨rfl, rfl⟩)
      (paymentOf i (buildInvoiceRecordData g c plan used)) rfl
    have hdata : ¬ (buildInvoiceRecordData g c plan used).closed := by rintro (h | h) <;> cases h
    have hfrom : ClosedFrom db (db.setInvoice i fun _ => buildInvoiceRecordData g c plan used) :=
      closedFrom_setInvoice fun _ => hdata
    refine ⟨fun j inv' hj => ?_, fun j => (hcounts j).1, fun j inv' hj hclosed => (hcounts j).2 ?_⟩
    · rw [Database.setOpenPayment_invoices] at hj
      exact hfrom j inv' hj
    · rintro rfl
      rw [Database.setOpenPayment_invoices] at hj
      exact hopen (Option.some.inj (hi.symm.trans (hfrom i inv' hj hclosed)) ▸ hclosed)

end ClosedFrom

/-! ## Paid invoices -/

/-- Every paid invoice has a paid payment. -/
def PaidBacked (db : Database) : Prop :=
  ∀ (i : InvoiceId) (inv : BillingInvoice), db.invoices[i]? = some inv → inv.status = .paid →
    ∃ p ∈ db.payments, p.invoiceId = i ∧ p.status = .paid

/-- The operation cancels the only paid payment of a paid invoice. -/
def LosesBacking (db : Database) (op : Operation) : Prop :=
  ∃ now p q inv, op = .cancelPayment now p ∧ db.payments[p]? = some q ∧ q.status = .paid ∧
    db.invoices[q.invoiceId]? = some inv ∧ inv.status = .paid ∧ paidCount db q.invoiceId = 1

section Backed

variable {db : Database} {op : Operation}

theorem paidBacked_iff : PaidBacked db ↔ ∀ (i : InvoiceId) (inv : BillingInvoice), db.invoices[i]? = some inv →
    inv.status = .paid → 0 < paidCount db i := by
  simp only [PaidBacked, paidCount, List.countP_pos_iff, isPaid_iff]

/-- Paid invoices of before with at least as many paid payments. -/
theorem PaidBacked.mono {db' : Database} (h : PaidBacked db) (hfrom : ClosedFrom db db')
    (hcount : ∀ i, paidCount db i ≤ paidCount db' i) : PaidBacked db' := by
  rw [paidBacked_iff] at h ⊢
  exact fun i inv hi hs => (h i inv (hfrom i inv hi (.inl hs)) hs).trans_le (hcount i)

theorem swept_paidBacked : Swept fun a b => PaidBacked a → PaidBacked b where
  refl _ h := h
  trans _ _ _ h h' ha := h' (h ha)
  clients _ _ _ h := h
  letFallDue now db h := h.mono (closedFrom_letFallDue now db) fun i => (counts_letFallDue now db i).1.ge
  generateInvoice g db c h :=
    h.mono (generateInvoice_counts g db c).1 fun i => ((generateInvoice_counts g db c).2.1 i).ge

/-- An invoice is paid together with a payment. -/
theorem paidBacked_pay {db' : Database} (h : PaidBacked db) {i : InvoiceId} {f : BillingInvoice → BillingInvoice}
    (hrows : db'.invoices = (db.setInvoice i f).invoices)
    (hcount : ∀ j, paidCount db' j = paidCount db j + (if i = j then 1 else 0)) : PaidBacked db' := by
  rw [paidBacked_iff] at h ⊢
  intro j inv' hj hs
  rw [hrows] at hj
  rw [hcount j]
  rcases getElem?_setInvoice hj with ⟨hij, -⟩ | ⟨hij, hj⟩
  · rw [if_pos hij]
    omega
  · exact (h j inv' hj hs).trans_le (Nat.le_add_right _ _)

/-- Writes that cancel no last payment keep paid invoices backed. -/
theorem Write.paidBacked {w : Database} (hw : Write db op w) (hl : ¬ LosesBacking db op) (h : PaidBacked db) :
    PaidBacked w := by
  have hrefl : ClosedFrom db db := fun _ _ hi _ => hi
  cases hw with
  | nothing => exact h
  | generated hg hc days => exact swept_paidBacked.generate _ db h
  | clients cs hcs => exact h
  | usage u => exact h
  | markedOverdue hi hs =>
    refine h.mono (closedFrom_setInvoice fun inv => ?_) fun _ => le_rfl
    rintro (hc | hc) <;> cases hc
  | @markedPaid now later i payload inv hi hs paidAt pay hpay new hnew cs hcs =>
    exact paidBacked_pay h (Database.setOpenPayment_invoices _ _ _ _) fun j => paidCount_pay _ hpay hnew j
  | @cancelled now later i inv hi hs =>
    rw [paidBacked_iff] at h ⊢
    intro j inv' hj hpaid
    have hcount : paidCount db j ≤ (db.payments.map fun p =>
        if p.invoiceId = i ∧ p.status ≠ .paid then { p with status := .cancelled, cancelledAt := some now } else p
        ).countP (CustomerPayment.isPaid j) := by
      rw [List.countP_map]
      refine List.countP_mono_left fun p _ hp => ?_
      have hps := (isPaid_iff.mp hp).2
      simpa [hps] using hp
    rcases getElem?_setInvoice hj with ⟨-, inv'', -, rfl⟩ | ⟨-, hj⟩
    · cases hpaid
    · exact (h j inv' hj hpaid).trans_le hcount
  | paymentAdded hi hs hp hps =>
    exact h.mono hrefl fun i => (List.sublist_append_left _ _).countP_le
  | @invoiceSettled later payload inv hi hpaid hs p hp hps cs hcs =>
    refine paidBacked_pay h (i := payload.invoiceId) rfl fun j => ?_
    show (db.payments ++ [p]).countP _ = _
    simp [paidCount, isPaid_iff, hp, hps]
  | @paymentCancelled now p q hq hs =>
    rw [paidBacked_iff] at h ⊢
    intro i inv hi hpaid
    have hcount := (counts_cancelPayment hq now i).1
    have hbefore := h i inv hi hpaid
    by_cases hqi : q.isPaid i = true
    · obtain ⟨rfl, hqs⟩ := isPaid_iff.mp hqi
      have hlast : paidCount db q.invoiceId ≠ 1 := fun hone => hl ⟨now, p, q, inv, rfl, hq, hqs, hi, hpaid, hone⟩
      rw [if_pos hqi] at hcount
      omega
    · rw [if_neg hqi] at hcount
      omega
  | @webhookPaid now later payload i inv hid hstatus hi hs pay hpay new hnew =>
    exact paidBacked_pay h (Database.setOpenPayment_invoices _ _ _ _) fun j => paidCount_pay _ hpay hnew j

variable (suspendAfterDays : ℤ)

/-- What an operation commits is backed exactly if it cancels no last payment. -/
theorem backed_commits_iff (h : PaidBacked db) :
    ¬ LosesBacking db op ↔ ∀ t ∈ commits suspendAfterDays db op, PaidBacked t := by
  constructor
  · intro hl t ht
    have hkept := swept_paidBacked.commits suspendAfterDays fun w (hw : Write db op w) _ => hw.paidBacked hl h
    exact (List.pairwise_cons.mp hkept).1 t ht h
  · rintro hall ⟨now, p, q, inv, rfl, hq, hqs, hi, hpaid, hone⟩
    have hne : q.status ≠ .cancelled := by rw [hqs]; decide
    have hback := hall (db.setPayment p fun q => { q with status := .cancelled, cancelledAt := some now })
      (by simp [commits, cancelPayment, hq, hne, committed])
    have hpos := paidBacked_iff.mp hback q.invoiceId inv hi hpaid
    have hcount := (counts_cancelPayment hq now q.invoiceId).1
    rw [if_pos (isPaid_iff.mpr ⟨rfl, hqs⟩)] at hcount
    omega

/-- **Paid invoices are backed in precisely the runs** that start so and never cancel the only paid payment of one. -/
theorem backed_iff (db : Database) (ops : List Operation) :
    (∀ t ∈ db :: history suspendAfterDays db ops, PaidBacked t) ↔
      PaidBacked db ∧ Along (step suspendAfterDays) (fun s op => ¬ LosesBacking s op) db ops := by
  rw [history_eq]
  exact forall_history_iff fun s op h => backed_commits_iff suspendAfterDays h

end Backed

/-- The request that marks an invoice as paid in full. -/
def paidInFull : InvoiceMarkPaidRequest :=
  { amountPaid := none, paymentMethod := "manual_pix", paymentReference := none, note := none, paidAt := none }

instance (db : Database) : Decidable (PaidBacked db) := by unfold PaidBacked; infer_instance

/-- **A paid invoice without a paid payment**: the payment that settled it is cancelled. -/
theorem backing_lost :
    ¬ ∀ t ∈ emptyDatabase :: history 15 emptyDatabase
        (firstInvoice ++ [.markInvoicePaid 0 0 0 paidInFull, .cancelPayment 0 0]), PaidBacked t := by
  decide +kernel

/-! ## Closed invoices -/

/-- No closed invoice has a pending or overdue payment. -/
def NothingOpen (db : Database) : Prop :=
  ∀ (i : InvoiceId) (inv : BillingInvoice), db.invoices[i]? = some inv → inv.closed →
    ∀ p ∈ db.payments, p.invoiceId = i → p.status ≠ .pending ∧ p.status ≠ .overdue

/-- The operation closes an invoice with more open payments than it settles, or adds an open payment to a closed one:
`mark_invoice_paid` and the webhook settle one payment, `create_payment` none. The last closes an invoice only when the
client of the invoice is loaded. -/
inductive LeavesOpen (db : Database) : Operation → Prop
  | added {clientLoaded : Bool} {later : Instant} {payload : PaymentCreate} {inv : BillingInvoice}
      (hi : db.invoices[payload.invoiceId]? = some inv) (hclosed : inv.closed) (hpaid : payload.paidAt = none) :
      LeavesOpen db (.createPayment clientLoaded later payload)
  | settled {later : Instant} {payload : PaymentCreate} {inv : BillingInvoice}
      (hi : db.invoices[payload.invoiceId]? = some inv) (hs : inv.status ≠ .paid) (hpaid : payload.paidAt.isSome = true)
      (hopen : 0 < openCount db payload.invoiceId) : LeavesOpen db (.createPayment true later payload)
  | markedPaid {now later : Instant} {i : InvoiceId} {payload : InvoiceMarkPaidRequest} {inv : BillingInvoice}
      (hi : db.invoices[i]? = some inv) (hs : ¬ inv.closed) (hopen : 1 < openCount db i) :
      LeavesOpen db (.markInvoicePaid now later i payload)
  | webhook {now later : Instant} {payload : WebhookPayload} {i : InvoiceId} {inv : BillingInvoice}
      (hid : payload.invoiceId = some i) (hstatus : payload.status = "paid") (hi : db.invoices[i]? = some inv)
      (hs : inv.status ≠ .paid) (hopen : 1 < openCount db i) : LeavesOpen db (.pixWebhook now later payload)

section NothingOpen

variable {db : Database} {op : Operation}

theorem nothingOpen_iff_count : NothingOpen db ↔ ∀ (i : InvoiceId) (inv : BillingInvoice),
    db.invoices[i]? = some inv → inv.closed → openCount db i = 0 := by
  simp only [NothingOpen, openCount, List.countP_eq_zero, isOpen_iff, not_and, not_or, ne_eq]

theorem not_nothingOpen {i : InvoiceId} (inv : BillingInvoice) (hi : db.invoices[i]? = some inv)
    (hclosed : inv.closed) (hopen : 0 < openCount db i) : ¬ NothingOpen db := fun h =>
  hopen.ne' (nothingOpen_iff_count.mp h i inv hi hclosed)

/-- Closed invoices of before with at most as many open payments. -/
theorem NothingOpen.mono {db' : Database} (h : NothingOpen db) (hfrom : ClosedFrom db db')
    (hcount : ∀ (i : InvoiceId) (inv : BillingInvoice), db'.invoices[i]? = some inv → inv.closed →
      openCount db' i ≤ openCount db i) : NothingOpen db' := by
  rw [nothingOpen_iff_count] at h ⊢
  intro i inv hi hclosed
  have hle := hcount i inv hi hclosed
  rw [h i inv (hfrom i inv hi hclosed) hclosed] at hle
  exact Nat.le_zero.mp hle

theorem swept_nothingOpen : Swept fun a b => NothingOpen a → NothingOpen b where
  refl _ h := h
  trans _ _ _ h h' ha := h' (h ha)
  clients _ _ _ h := h
  letFallDue now db h := h.mono (closedFrom_letFallDue now db) fun i _ _ _ => (counts_letFallDue now db i).2.le
  generateInvoice g db c h := h.mono (generateInvoice_counts g db c).1 fun i inv hi hclosed =>
    ((generateInvoice_counts g db c).2.2 i inv hi hclosed).le

/-- An invoice is closed after which nothing of it is open. -/
theorem nothingOpen_close {db' : Database} (h : NothingOpen db) {i : InvoiceId} {f : BillingInvoice → BillingInvoice}
    (hrows : db'.invoices = (db.setInvoice i f).invoices) (hzero : openCount db' i = 0)
    (hcount : ∀ j, i ≠ j → openCount db' j = openCount db j) : NothingOpen db' := by
  rw [nothingOpen_iff_count] at h ⊢
  intro j inv' hj hclosed
  rw [hrows] at hj
  rcases getElem?_setInvoice hj with ⟨rfl, -⟩ | ⟨hij, hj⟩
  · exact hzero
  · rw [hcount j hij]
    exact h j inv' hj hclosed

/-- An invoice is paid that had one open payment at most. -/
theorem nothingOpen_pay {db' : Database} (h : NothingOpen db) {i : InvoiceId} {f : BillingInvoice → BillingInvoice}
    (hrows : db'.invoices = (db.setInvoice i f).invoices) (hone : ¬ 1 < openCount db i)
    (hcount : ∀ j, openCount db' j = openCount db j - (if i = j then 1 else 0)) : NothingOpen db' := by
  refine nothingOpen_close h hrows ?_ fun j hij => ?_
  · rw [hcount i, if_pos rfl]
    omega
  · rw [hcount j, if_neg hij, Nat.sub_zero]

/-- Writes that leave nothing open keep closed invoices without open payments. -/
theorem Write.nothingOpen {w : Database} (hw : Write db op w) (hl : ¬ LeavesOpen db op) (h : NothingOpen db) :
    NothingOpen w := by
  have hrefl : ClosedFrom db db := fun _ _ hi _ => hi
  cases hw with
  | nothing => exact h
  | generated hg hc days => exact swept_nothingOpen.generate _ db h
  | clients cs hcs => exact h
  | usage u => exact h
  | markedOverdue hi hs =>
    refine h.mono (closedFrom_setInvoice fun inv => ?_) fun _ _ _ _ => le_rfl
    rintro (hc | hc) <;> cases hc
  | @markedPaid now later i payload inv hi hs paidAt pay hpay new hnew cs hcs =>
    exact nothingOpen_pay h (Database.setOpenPayment_invoices _ _ _ _) (fun hone => hl (.markedPaid hi hs hone))
      fun j => openCount_pay _ hpay new j
  | @cancelled now later i inv hi hs =>
    refine nothingOpen_close h (i := i) rfl ?_ fun j hij => ?_
    · refine List.countP_eq_zero.mpr fun p' hp' => ?_
      obtain ⟨p, -, rfl⟩ := List.mem_map.mp hp'
      rw [isOpen_iff]
      rintro ⟨hpi, hps⟩
      split_ifs at hpi hps with hp
      · rcases hps with hps | hps <;> cases hps
      · rw [not_and, not_not] at hp
        rw [hp hpi] at hps
        rcases hps with hps | hps <;> cases hps
    · unfold openCount
      rw [List.countP_map]
      refine List.countP_congr fun p _ => ?_
      simp only [Function.comp_apply, isOpen_iff]
      split_ifs with hp
      · exact iff_of_false (fun hpj => hij (hp.1.symm.trans hpj.1)) (fun hpj => hij (hp.1.symm.trans hpj.1))
      · exact Iff.rfl
  | @paymentAdded clientLoaded later payload inv hi hs p hp hps =>
    refine h.mono hrefl fun j inv' hj hclosed => ?_
    have hnot : p.isOpen j = false := by
      by_contra hopen
      obtain ⟨hpj, hps'⟩ := isOpen_iff.mp (Bool.eq_true_of_not_eq_false hopen)
      obtain rfl : payload.invoiceId = j := hp.symm.trans hpj
      cases hpaid : payload.paidAt with
      | none => exact hl (.added hj hclosed hpaid)
      | some t =>
        rw [hps, hpaid] at hps'
        rcases hps' with hps' | hps' <;> cases hps'
    show (db.payments ++ [p]).countP _ ≤ _
    simp [openCount, hnot]
  | @invoiceSettled later payload inv hi hpaid hs p hp hps cs hcs =>
    have hnot : ∀ j, p.isOpen j = false := fun j => by simp [CustomerPayment.isOpen, hps]
    have hcount : ∀ j, (db.payments ++ [p]).countP (CustomerPayment.isOpen j) = openCount db j := by
      intro j
      simp [openCount, hnot]
    refine nothingOpen_close h (i := payload.invoiceId) rfl ((hcount _).trans ?_) fun j _ => hcount j
    by_contra hopen
    exact hl (.settled hi hs hpaid (Nat.pos_of_ne_zero hopen))
  | @paymentCancelled now p q hq hs =>
    refine h.mono hrefl fun j _ _ _ => ?_
    have hcount := (counts_cancelPayment hq now j).2
    omega
  | @webhookPaid now later payload i inv hid hstatus hi hs pay hpay new hnew =>
    exact nothingOpen_pay h (Database.setOpenPayment_invoices _ _ _ _)
      (fun hone => hl (.webhook hid hstatus hi hs hone)) fun j => openCount_pay _ hpay new j

variable (suspendAfterDays : ℤ)

/-- An operation that leaves something open commits a state in which it is open. -/
theorem open_of_leavesOpen (hl : LeavesOpen db op) : ∃ t ∈ commits suspendAfterDays db op, ¬ NothingOpen t := by
  cases hl with
  | @added clientLoaded later payload inv hi hclosed hpaid =>
    simp only [commits, createPayment, hi, hpaid, committed, Option.isSome_none, Bool.false_eq_true, false_and,
      ↓reduceIte]
    refine ⟨_, List.mem_cons_self, not_nothingOpen inv hi hclosed ?_⟩
    simp [openCount, Database.addPayment, CustomerPayment.isOpen]
  | @settled later payload inv hi hs hpaid hopen =>
    have hpays : payload.paidAt.isSome = true ∧ inv.status ≠ .paid := ⟨hpaid, hs⟩
    simp only [commits, createPayment, hi, if_pos hpays, committed]
    refine ⟨_, List.mem_cons_self,
      not_nothingOpen (i := payload.invoiceId) { inv with status := .paid, paidAt := payload.paidAt } ?_ (.inl rfl) ?_⟩
    · simp [Database.setClient, Database.setInvoice, Database.addPayment, hi]
    · exact hopen.trans_le (List.sublist_append_left _ _).countP_le
  | @markedPaid now later i payload inv hi hs hopen =>
    have hcancelled : inv.status ≠ .cancelled := fun h => hs (.inr h)
    have hpaid : inv.status ≠ .paid := fun h => hs (.inl h)
    simp only [commits, markInvoicePaid, hi, if_neg hcancelled, if_neg hpaid, committed]
    refine ⟨_, List.mem_cons_self, not_nothingOpen (i := i)
      { inv with status := .paid, paidAt := some (payload.paidAt.getD now), cancelledAt := none } ?_ (.inl rfl) ?_⟩
    · simp [Database.setClient, Database.setInvoice, hi]
    · show 0 < openCount (Database.setOpenPayment _ i _ _) i
      rw [openCount_pay, if_pos rfl]
      · exact Nat.sub_pos_of_lt hopen
      · exact fun p => ⟨rfl, rfl⟩
  | @webhook now later payload i inv hid hstatus hi hs hopen =>
    simp only [commits, pixWebhook, hid, hi, if_neg hs, if_pos hstatus, committed]
    refine ⟨_, List.mem_singleton_self _,
      not_nothingOpen (i := i) { inv with status := .paid, paidAt := some now } ?_ (.inl rfl) ?_⟩
    · have hf : BillingInvoice.fallsDue later { inv with status := .paid, paidAt := some now } = false := rfl
      rw [refreshBillingStatuses, getElem?_letFallDue later, hf, if_neg Bool.false_ne_true]
      simp [Database.setInvoice, hi]
    · show 0 < openCount (letFallDue later (Database.setOpenPayment _ i _ _)) i
      rw [(counts_letFallDue later _ i).2, openCount_pay, if_pos rfl]
      · exact Nat.sub_pos_of_lt hopen
      · exact fun p => ⟨rfl, rfl⟩

/-- What an operation commits has nothing open exactly if it leaves nothing open. -/
theorem nothingOpen_commits_iff (h : NothingOpen db) :
    ¬ LeavesOpen db op ↔ ∀ t ∈ commits suspendAfterDays db op, NothingOpen t := by
  constructor
  · intro hl t ht
    have hkept := swept_nothingOpen.commits suspendAfterDays fun w (hw : Write db op w) _ => hw.nothingOpen hl h
    exact (List.pairwise_cons.mp hkept).1 t ht h
  · intro hall hl
    obtain ⟨t, ht, hopen⟩ := open_of_leavesOpen suspendAfterDays hl
    exact hopen (hall t ht)

/-- **Closed invoices have no open payment in precisely the runs** that start so and leave none open. -/
theorem nothingOpen_iff (db : Database) (ops : List Operation) :
    (∀ t ∈ db :: history suspendAfterDays db ops, NothingOpen t) ↔
      NothingOpen db ∧ Along (step suspendAfterDays) (fun s op => ¬ LeavesOpen s op) db ops := by
  rw [history_eq]
  exact forall_history_iff fun s op h => nothingOpen_commits_iff suspendAfterDays h

end NothingOpen

instance (inv : BillingInvoice) : Decidable inv.closed := by unfold BillingInvoice.closed; infer_instance

instance (db : Database) : Decidable (NothingOpen db) := by unfold NothingOpen; infer_instance

/-- Another payment of the whole invoice, to be received later. -/
def awaited : PaymentCreate :=
  { invoiceId := 0, amount := 29, currency := "USD", paymentMethod := "manual_pix", paymentReference := none,
    note := none, paidAt := none }

/-- **A paid invoice with an open payment**: `create_payment` adds a pending payment after the invoice is paid. -/
theorem receivable_left_open :
    ¬ ∀ t ∈ emptyDatabase :: history 15 emptyDatabase
        (firstInvoice ++ [.markInvoicePaid 0 0 0 paidInFull, .createPayment false 0 awaited]), NothingOpen t := by
  decide +kernel

end LlmStore.Billing
