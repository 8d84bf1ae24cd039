import LlmStore.Billing.Writes

/-!
# Closed invoices

A paid invoice is frozen: every operation either refuses it or looks for open ones only (`paid_frozen`). Of cancelled
invoices this holds of the loops and of the handlers that ask for `cancelled`; three ways lead back
(`Operation.reopens`), and a run keeps its cancelled invoices exactly if none of its operations goes one of them on a
cancelled invoice (`cancelled_final_iff`).
-/

namespace LlmStore.Billing

open LlmStore.Calendar LlmStore.Lib LlmStore.Usage

/-! ## Invoices that stay as they are -/

/-- The invoices of one status stay as they are. -/
def Frozen (status : InvoiceStatus) (db db' : Database) : Prop :=
  ∀ (i : InvoiceId) (inv : BillingInvoice), db.invoices[i]? = some inv → inv.status = status →
    db'.invoices[i]? = some inv

section Frozen

variable {status : InvoiceStatus} {db db' : Database}

theorem Frozen.congr {db'' : Database} (h : Frozen status db db') (he : db''.invoices = db'.invoices) :
    Frozen status db db'' := fun i inv hi hs => he ▸ h i inv hi hs

theorem frozen_refl (status : InvoiceStatus) (db : Database) : Frozen status db db := fun _ _ hi _ => hi

theorem frozen_trans (status : InvoiceStatus) (a b c : Database) (h : Frozen status a b) (h' : Frozen status b c) :
    Frozen status a c := fun i inv hi hs => h' i inv (h i inv hi hs) hs

/-- A write to one invoice leaves the others alone. -/
theorem frozen_setInvoice {i : InvoiceId} (f : BillingInvoice → BillingInvoice)
    (h : ∀ inv, db.invoices[i]? = some inv → inv.status ≠ status) : Frozen status db (db.setInvoice i f) := by
  intro j inv hj hs
  have hij : i ≠ j := by
    rintro rfl
    exact h inv hj hs
  rw [Database.setInvoice, List.getElem?_modify_ne f _ hij]
  exact hj

theorem frozen_letFallDue (hs : status ≠ .pending) (now : Instant) (db : Database) :
    Frozen status db (letFallDue now db) := by
  intro i inv hi hstatus
  have hf : inv.fallsDue now = false := by simp [BillingInvoice.fallsDue, hstatus, hs]
  rw [getElem?_letFallDue now hi, hf, if_neg Bool.false_ne_true]

theorem frozen_generateInvoice (hs : status = .paid ∨ status = .cancelled) (g : Generation) (db : Database)
    (c : ClientId) : Frozen status db (generateInvoice g db c) := by
  rcases generateInvoice_writes g db c with ⟨he, -⟩ | ⟨plan, used, -, -, -, he⟩ | ⟨i, inv, plan, used, -, hi, -, hopen, he⟩
  · rw [he]
    exact frozen_refl _ _
  · intro i inv hi _
    rw [he]
    exact (List.getElem?_append_left (List.getElem?_eq_some_iff.mp hi).1).trans hi
  · rw [he]
    refine Frozen.congr (frozen_setInvoice _ fun inv' hi' hstatus => hopen ?_)
      (Database.setOpenPayment_invoices _ _ _ _)
    obtain rfl : inv = inv' := Option.some.inj (hi.symm.trans hi')
    rw [BillingInvoice.closed, hstatus]
    exact hs

/-- Generations and refreshes leave closed invoices alone. -/
theorem swept_frozen (hs : status = .paid ∨ status = .cancelled) : Swept (Frozen status) where
  refl := frozen_refl status
  trans := frozen_trans status
  clients _ _ _ := fun _ _ hi _ => hi
  letFallDue := frozen_letFallDue (by rcases hs with rfl | rfl <;> decide)
  generateInvoice := frozen_generateInvoice hs

end Frozen

/-! ## Paid invoices -/

/-- Whatever is written, paid invoices stay as they are. -/
theorem Write.frozen_paid {db : Database} {op : Operation} {w : Database} (h : Write db op w) : Frozen .paid db w := by
  have hguard : ∀ {i : InvoiceId} {inv : BillingInvoice}, db.invoices[i]? = some inv → inv.status ≠ .paid →
      ∀ inv', db.invoices[i]? = some inv' → inv'.status ≠ .paid := by
    intro i inv hi hs inv' hi'
    rwa [← Option.some.inj (hi.symm.trans hi')]
  have hswept : Swept (Frozen .paid) := swept_frozen (.inl rfl)
  cases h with
  | nothing => exact hswept.refl db
  | generated hg hc days => exact hswept.generate _ db
  | clients cs hcs => exact hswept.clients db cs hcs
  | usage u => exact fun _ _ hi _ => hi
  | markedOverdue hi hs => exact frozen_setInvoice _ (hguard hi hs)
  | markedPaid hi hs =>
    exact (frozen_setInvoice _ (hguard hi fun hp => hs (.inl hp))).congr (Database.setOpenPayment_invoices _ _ _ _)
  | cancelled hi hs => exact (frozen_setInvoice _ (hguard hi fun hp => hs (.inl hp))).congr rfl
  | paymentAdded hi hs hp hps => exact fun _ _ hi _ => hi
  | invoiceSettled hi hpaid hs => exact (frozen_setInvoice _ (hguard hi hs)).congr rfl
  | paymentCancelled hp hs => exact fun _ _ hi _ => hi
  | webhookPaid hid hstatus hi hs =>
    exact (frozen_setInvoice _ (hguard hi hs)).congr (Database.setOpenPayment_invoices _ _ _ _)

/-! ### Plans, prices and deletions -/

/-- The database with the times at which clients were deleted: `Client.deleted_at`, which no function of this
directory reads. -/
structure Accounts where
  database : Database
  deletions : List (ClientId × Instant)

/-- A billing operation, or one on the accounts that invoices are drawn up for. -/
inductive AccountOperation where
  | billing (op : Operation)
  /-- `patch_client`, `set_client_billing_plan`, `patch_billing_plan` or `ensure_default_billing_plans`: the plans, with
  their prices, and the quotas that the clients have afterwards. -/
  | changePlans (plans : ClientId → Option BillingPlan) (quotas : ClientId → ℤ)
  | deleteClient (now : Instant) (c : ClientId)

/-- `delete_client`. -/
def deleteClient (now : Instant) (c : ClientId) (s : Accounts) : Except HTTPException Accounts :=
  if c < s.database.clients.length ∧ s.deletions.lookup c = none then
    if s.database.invoices.any fun inv => inv.clientId = c ∧ inv.status = .paid then
      .error ⟨409, "cannot delete client with paid invoices"⟩
    else .ok { s with deletions := (c, now) :: s.deletions }
  else .error ⟨404, "client not found"⟩

section Accounts

variable (suspendAfterDays : ℤ)

/-- The states an operation commits, in order. -/
def accountCommits (s : Accounts) : AccountOperation → List Accounts
  | .billing op => (commits suspendAfterDays s.database op).map fun db => { s with database := db }
  | .changePlans plans quotas =>
    [{ s with database :=
        { s.database with clients := s.database.clients.mapIdx fun c client =>
            { client with billingPlan := plans c, monthlyTokenQuota := quotas c } } }]
  | .deleteClient now c =>
    match Billing.deleteClient now c s with
    | .ok s' => [s']
    | .error _ => []

theorem frozen_accountCommits (s : Accounts) (op : AccountOperation) :
    (s :: accountCommits suspendAfterDays s op).Pairwise fun a b => Frozen .paid a.database b.database := by
  have hswept : Swept (Frozen .paid) := swept_frozen (.inl rfl)
  cases op with
  | billing op =>
    have h := hswept.commits suspendAfterDays fun w (hw : Write s.database op w) => hw.frozen_paid
    rw [List.pairwise_cons] at h ⊢
    refine ⟨fun t ht => ?_, List.pairwise_map.mpr h.2⟩
    obtain ⟨db, hdb, rfl⟩ := List.mem_map.mp ht
    exact h.1 db hdb
  | changePlans plans quotas => simpa [accountCommits] using hswept.clients s.database _ (by simp)
  | deleteClient now c =>
    simp only [accountCommits, deleteClient]
    split_ifs <;> simp [frozen_refl]

/-- A delivery of the webhook for a paid invoice commits nothing. -/
theorem commits_webhook_paid {db : Database} {i : InvoiceId} {inv : BillingInvoice} (hi : db.invoices[i]? = some inv)
    (hpaid : inv.status = .paid) (now later : Instant) {payload : WebhookPayload} (hid : payload.invoiceId = some i) :
    commits suspendAfterDays db (.pixWebhook now later payload) = [] := by
  simp [commits, pixWebhook, hid, hi, hpaid, committed]

/-- A delivery of the webhook, with the times at which it reads the clock. -/
structure Delivery where
  now : Instant
  later : Instant
  payload : WebhookPayload

def Delivery.operation (d : Delivery) : AccountOperation := .billing (.pixWebhook d.now d.later d.payload)

theorem deliveries_paid {s : Accounts} {i : InvoiceId} {inv : BillingInvoice}
    (hi : s.database.invoices[i]? = some inv) (hpaid : inv.status = .paid) {deliveries : List Delivery}
    (hd : ∀ d ∈ deliveries, d.payload.invoiceId = some i) :
    Lib.history (accountCommits suspendAfterDays) s (deliveries.map Delivery.operation) = [] ∧
      run (commitStep (accountCommits suspendAfterDays)) s (deliveries.map Delivery.operation) = some s := by
  induction deliveries with
  | nil => exact ⟨rfl, rfl⟩
  | cons d deliveries ih =>
    have hnone : accountCommits suspendAfterDays s d.operation = [] := by
      rw [Delivery.operation, accountCommits,
        commits_webhook_paid suspendAfterDays hi hpaid d.now d.later (hd d List.mem_cons_self), List.map_nil]
    have hafter : after (accountCommits suspendAfterDays) s d.operation = s := by rw [after, hnone, List.getLastD_nil]
    have ih := ih fun d' hd' => hd d' (List.mem_cons_of_mem _ hd')
    rw [List.map_cons, Lib.history, hafter, hnone, List.nil_append]
    exact ⟨ih.1, run_cons_iff.mpr ⟨s, congrArg some hafter, ih.2⟩⟩

/-- **A paid invoice is frozen**: in every run of billing operations, changes of plans and deletions of clients its row
is the same in all later states, and deliveries of the webhook for it, whatever they say, commit and change nothing. -/
theorem paid_frozen (s : Accounts) (ops : List AccountOperation) :
    (s :: Lib.history (accountCommits suspendAfterDays) s ops).Pairwise
        (fun a b => Frozen .paid a.database b.database) ∧
      ∀ t ∈ s :: Lib.history (accountCommits suspendAfterDays) s ops, ∀ i inv,
        t.database.invoices[i]? = some inv → inv.status = .paid →
        ∀ deliveries : List Delivery, (∀ d ∈ deliveries, d.payload.invoiceId = some i) →
          Lib.history (accountCommits suspendAfterDays) t (deliveries.map Delivery.operation) = [] ∧
            run (commitStep (accountCommits suspendAfterDays)) t (deliveries.map Delivery.operation) = some t := by
  refine ⟨pairwise_history (R := fun a b : Accounts => Frozen .paid a.database b.database)
    (fun _ _ _ => frozen_trans .paid _ _ _) (frozen_accountCommits suspendAfterDays), ?_⟩
  intro t _ i inv hi hpaid deliveries hd
  exact deliveries_paid suspendAfterDays hi hpaid hd

end Accounts

/-! ## Cancelled invoices -/

/-- Cancelled invoices stay cancelled. -/
def CancelledKept (db db' : Database) : Prop :=
  ∀ (i : InvoiceId) (inv : BillingInvoice), db.invoices[i]? = some inv → inv.status = .cancelled →
    ∃ inv', db'.invoices[i]? = some inv' ∧ inv'.status = .cancelled

/-- `cancelled_at` is set exactly on cancelled invoices. -/
def CancelledExact (db : Database) : Prop :=
  ∀ inv ∈ db.invoices, inv.cancelledAt.isSome = true ↔ inv.status = .cancelled

/-- The invoice that an operation takes to `overdue` or `paid` unless it is paid already: `mark_invoice_overdue`, a
payment that is created as paid when the client of the invoice is loaded, and the webhook. -/
def Operation.reopens : Operation → Option InvoiceId
  | .markInvoiceOverdue _ i => some i
  | .createPayment clientLoaded _ payload =>
    if payload.paidAt.isSome ∧ clientLoaded = true then some payload.invoiceId else none
  | .pixWebhook _ _ payload => if payload.status = "paid" then payload.invoiceId else none
  | _ => none

/-- The operation reopens a cancelled invoice. -/
def Revives (db : Database) (op : Operation) : Prop :=
  ∃ i inv, op.reopens = some i ∧ db.invoices[i]? = some inv ∧ inv.status = .cancelled

theorem CancelledKept.of_frozen {db db' : Database} (h : Frozen .cancelled db db') : CancelledKept db db' :=
  fun i inv hi hs => ⟨inv, h i inv hi hs, hs⟩

theorem cancelledKept_trans (a b c : Database) (h : CancelledKept a b) (h' : CancelledKept b c) : CancelledKept a c := by
  intro i inv hi hs
  obtain ⟨inv', hi', hs'⟩ := h i inv hi hs
  exact h' i inv' hi' hs'

/-! ### `cancelled_at` -/

section Exact

variable {db : Database}

theorem CancelledExact.congr {db' : Database} (h : CancelledExact db) (he : db'.invoices = db.invoices) :
    CancelledExact db' := fun inv hinv => h inv (he ▸ hinv)

/-- A write to one invoice that gets `cancelled_at` right. -/
theorem cancelledExact_setInvoice {i : InvoiceId} {f : BillingInvoice → BillingInvoice} (h : CancelledExact db)
    (hf : ∀ inv, db.invoices[i]? = some inv → ((f inv).cancelledAt.isSome = true ↔ (f inv).status = .cancelled)) :
    CancelledExact (db.setInvoice i f) := by
  intro inv' hinv'
  obtain ⟨j, hj⟩ := List.mem_iff_getElem?.mp hinv'
  by_cases hij : i = j
  · subst hij
    rw [Database.setInvoice, List.getElem?_modify_eq] at hj
    obtain ⟨inv, hi, rfl⟩ := Option.map_eq_some_iff.mp hj
    exact hf inv hi
  · rw [Database.setInvoice, List.getElem?_modify_ne f _ hij] at hj
    exact h inv' (List.mem_of_getElem? hj)

theorem cancelledExact_letFallDue (now : Instant) (h : CancelledExact db) : CancelledExact (letFallDue now db) := by
  intro inv' hinv'
  obtain ⟨inv, hinv, rfl⟩ := List.mem_map.mp hinv'
  split_ifs with hf
  · have hs : inv.status = .pending := by
      simp only [BillingInvoice.fallsDue, Bool.and_eq_true, decide_eq_true_eq] at hf
      exact hf.1
    have hc := h inv hinv
    rw [hs] at hc
    exact iff_of_false (fun hsome => by cases hc.mp hsome) (fun he => by cases he)
  · exact h inv hinv

theorem cancelledExact_generateInvoice (g : Generation) (c : ClientId) (h : CancelledExact db) :
    CancelledExact (generateInvoice g db c) := by
  have hnew : ∀ plan used, (buildInvoiceRecordData g c plan used).cancelledAt.isSome = true ↔
      (buildInvoiceRecordData g c plan used).status = .cancelled := by
    intro plan used
    exact iff_of_false (fun he => by cases he) (fun he => by cases he)
  rcases generateInvoice_writes g db c with ⟨he, -⟩ | ⟨plan, used, -, -, -, he⟩ | ⟨i, inv, plan, used, -, -, -, -, he⟩
  · rw [he]
    exact h
  · rw [he]
    intro inv hinv
    rcases List.mem_append.mp hinv with hinv | hinv
    · exact h inv hinv
    · rw [List.mem_singleton.mp hinv]
      exact hnew plan used
  · rw [he]
    exact (cancelledExact_setInvoice h fun _ _ => hnew plan used).congr (Database.setOpenPayment_invoices _ _ _ _)

/-- Generations and refreshes keep `cancelled_at` right. -/
theorem swept_cancelledExact : Swept fun a b => CancelledExact a → CancelledExact b where
  refl _ h := h
  trans _ _ _ h h' ha := h' (h ha)
  clients _ _ _ h := h
  letFallDue now _ h := cancelledExact_letFallDue now h
  generateInvoice g _ c h := cancelledExact_generateInvoice g c h

end Exact

/-! ### Operations -/

section Cancelled

variable {db : Database} {op : Operation}

/-- An operation that revives nothing leaves cancelled invoices alone and keeps `cancelled_at` right. -/
theorem Write.cancelled_final {w : Database} (h : Write db op w) (hr : ¬ Revives db op) (he : CancelledExact db) :
    Frozen .cancelled db w ∧ CancelledExact w := by
  have hswept : Swept (Frozen .cancelled) := swept_frozen (.inr rfl)
  have hopen : ∀ {i : InvoiceId}, op.reopens = some i → ∀ inv, db.invoices[i]? = some inv → inv.status ≠ .cancelled :=
    fun hi inv hinv hs => hr ⟨_, inv, hi, hinv, hs⟩
  have hguard : ∀ {i : InvoiceId} {inv : BillingInvoice}, db.invoices[i]? = some inv → ¬ inv.closed →
      ∀ inv', db.invoices[i]? = some inv' → inv'.status ≠ .cancelled := by
    intro i inv hi hs inv' hi' hs'
    obtain rfl := Option.some.inj (hi.symm.trans hi')
    exact hs (.inr hs')
  have hnone : ∀ {i : InvoiceId}, (∀ inv, db.invoices[i]? = some inv → inv.status ≠ .cancelled) →
      ∀ inv, db.invoices[i]? = some inv → ¬ inv.cancelledAt.isSome = true :=
    fun hi inv hinv hsome => hi inv hinv ((he inv (List.mem_of_getElem? hinv)).mp hsome)
  cases h with
  | nothing => exact ⟨hswept.refl db, he⟩
  | generated hg hc days => exact ⟨hswept.generate _ db, swept_cancelledExact.generate _ db he⟩
  | clients cs hcs => exact ⟨hswept.clients db cs hcs, he⟩
  | usage u => exact ⟨fun _ _ hi _ => hi, he⟩
  | @markedOverdue later i inv hi hs =>
    have ho := hopen (i := i) rfl
    refine ⟨frozen_setInvoice _ ho, cancelledExact_setInvoice he fun inv' hi' => ?_⟩
    exact iff_of_false (hnone ho inv' hi') (fun h => by cases h)
  | markedPaid hi hs =>
    refine ⟨(frozen_setInvoice _ (hguard hi hs)).congr (Database.setOpenPayment_invoices _ _ _ _),
      (cancelledExact_setInvoice he fun inv' _ => ?_).congr (Database.setOpenPayment_invoices _ _ _ _)⟩
    exact iff_of_false (fun h => by cases h) (fun h => by cases h)
  | cancelled hi hs =>
    refine ⟨(frozen_setInvoice _ (hguard hi hs)).congr rfl, (cancelledExact_setInvoice he fun inv' _ => ?_).congr rfl⟩
    exact iff_of_true rfl rfl
  | paymentAdded hi hs hp hps => exact ⟨fun _ _ hi _ => hi, he⟩
  | @invoiceSettled later payload inv hi hpaid hs =>
    have ho := hopen (i := payload.invoiceId) (if_pos ⟨hpaid, rfl⟩)
    refine ⟨(frozen_setInvoice _ ho).congr rfl, (cancelledExact_setInvoice he fun inv' hi' => ?_).congr rfl⟩
    exact iff_of_false (hnone ho inv' hi') (fun h => by cases h)
  | paymentCancelled hp hs => exact ⟨fun _ _ hi _ => hi, he⟩
  | @webhookPaid now later payload i inv hid hstatus hi hs =>
    have ho := hopen (i := i) ((if_pos hstatus).trans hid)
    refine ⟨(frozen_setInvoice _ ho).congr (Database.setOpenPayment_invoices _ _ _ _),
      (cancelledExact_setInvoice he fun inv' hi' => ?_).congr (Database.setOpenPayment_invoices _ _ _ _)⟩
    exact iff_of_false (hnone ho inv' hi') (fun h => by cases h)

variable (suspendAfterDays : ℤ)

/-- An operation that revives a cancelled invoice commits a state in which it is not cancelled. -/
theorem revived_of_revives (hr : Revives db op) : ∃ t ∈ commits suspendAfterDays db op, ¬ CancelledKept db t := by
  have hlost : ∀ {t : Database} {i : InvoiceId} {inv : BillingInvoice} (inv' : BillingInvoice),
      db.invoices[i]? = some inv → inv.status = .cancelled → t.invoices[i]? = some inv' → inv'.status ≠ .cancelled →
      ¬ CancelledKept db t := by
    intro t i inv inv' hi hs hi' hs' hkept
    obtain ⟨inv'', hi'', hs''⟩ := hkept i inv hi hs
    exact hs' (Option.some.inj (hi'.symm.trans hi'') ▸ hs'')
  obtain ⟨i, inv, hop, hi, hs⟩ := hr
  cases op with
  | markInvoiceOverdue later j =>
    obtain rfl : j = i := Option.some.inj hop
    refine ⟨db.setInvoice j fun inv => { inv with status := .overdue }, ?_, ?_⟩
    · simp [commits, markInvoiceOverdue, hi, hs, committed]
    · refine hlost { inv with status := .overdue } hi hs ?_ (fun h => by cases h)
      simp [Database.setInvoice, hi]
  | createPayment clientLoaded later payload =>
    simp only [Operation.reopens] at hop
    split_ifs at hop with hpaid
    obtain ⟨hpaid, rfl⟩ := hpaid
    obtain rfl : payload.invoiceId = i := Option.some.inj hop
    have hpays : payload.paidAt.isSome = true ∧ inv.status ≠ .paid := ⟨hpaid, by rw [hs]; decide⟩
    simp only [commits, createPayment, hi, if_pos hpays, committed]
    refine ⟨_, List.mem_cons_self,
      hlost { inv with status := .paid, paidAt := payload.paidAt } hi hs ?_ (fun h => by cases h)⟩
    simp [Database.setClient, Database.setInvoice, Database.addPayment, hi]
  | pixWebhook now later payload =>
    simp only [Operation.reopens] at hop
    split_ifs at hop with hstatus
    have hpaid : inv.status ≠ .paid := by rw [hs]; decide
    simp only [commits, pixWebhook, hop, hi, if_neg hpaid, if_pos hstatus, committed]
    refine ⟨_, List.mem_singleton_self _,
      hlost { inv with status := .paid, paidAt := some now } hi hs ?_ (fun h => by cases h)⟩
    have hf : BillingInvoice.fallsDue later { inv with status := .paid, paidAt := some now } = false := rfl
    rw [refreshBillingStatuses, getElem?_letFallDue later, hf, if_neg Bool.false_ne_true]
    simp [Database.setInvoice, hi]
  | _ => cases hop

/-- What an operation commits is right exactly if it revives nothing. -/
theorem cancelled_commits_iff (he : CancelledExact db) :
    ¬ Revives db op ↔ (db :: commits suspendAfterDays db op).Pairwise CancelledKept ∧
      ∀ t ∈ commits suspendAfterDays db op, CancelledExact t := by
  constructor
  · intro hr
    have hkept := (swept_frozen (.inr rfl)).commits suspendAfterDays
      fun w hw => (Write.cancelled_final hw hr he).1
    have hexact := swept_cancelledExact.commits suspendAfterDays
      fun w hw _ => (Write.cancelled_final hw hr he).2
    exact ⟨hkept.imp CancelledKept.of_frozen, fun t ht => (List.pairwise_cons.mp hexact).1 t ht he⟩
  · rintro ⟨hkept, -⟩ hr
    obtain ⟨t, ht, hlost⟩ := revived_of_revives suspendAfterDays hr
    exact hlost ((List.pairwise_cons.mp hkept).1 t ht)

/-- **Cancelled invoices stay cancelled, and `cancelled_at` is set exactly on them, in precisely the runs** that start
so and revive nothing. -/
theorem cancelled_final_iff (db : Database) (ops : List Operation) :
    ((db :: history suspendAfterDays db ops).Pairwise CancelledKept ∧
        ∀ t ∈ db :: history suspendAfterDays db ops, CancelledExact t) ↔
      CancelledExact db ∧ Along (step suspendAfterDays) (fun s op => ¬ Revives s op) db ops := by
  rw [history_eq]
  exact Lib.history_iff cancelledKept_trans fun s op he => cancelled_commits_iff suspendAfterDays he

end Cancelled

/-! ### An invoice marked overdue after its cancellation -/

instance decidableRows {α : Type} (rows : List α) (P : ℕ → α → Prop) [∀ i a, Decidable (P i a)] :
    Decidable (∀ (i : ℕ) (a : α), rows[i]? = some a → P i a) :=
  decidable_of_iff (∀ i : Fin rows.length, P i rows[i]) (by
    constructor
    · intro h i a hi
      obtain ⟨hlt, rfl⟩ := List.getElem?_eq_some_iff.mp hi
      exact h ⟨i, hlt⟩
    · intro h i
      exact h i rows[i] (List.getElem?_eq_getElem i.2))

instance (o : Option BillingInvoice) (status : InvoiceStatus) :
    Decidable (∃ inv, o = some inv ∧ inv.status = status) :=
  decidable_of_iff (o.any (·.status = status) = true) (by simp [Option.any_eq_true])

instance (db db' : Database) : Decidable (CancelledKept db db') := by unfold CancelledKept; infer_instance

/-- Nothing in it. -/
def emptyDatabase : Database where
  clients := []
  invoices := []
  payments := []
  usage := { quotaCounters := ∅, usageRecords := ∅ }

/-- A client signs up, and on 8 May its invoice for April is drawn up. -/
def firstInvoice : List Operation := [.addClient none 1000, .generateInvoices (generationOn 5 8)]

/-- **A cancelled invoice becomes overdue**: nothing refuses `mark_invoice_overdue` on it. -/
theorem cancelled_revived :
    ¬ (emptyDatabase :: history 15 emptyDatabase
        (firstInvoice ++ [.cancelInvoice 0 0 0, .markInvoiceOverdue 0 0])).Pairwise CancelledKept := by
  decide +kernel

end LlmStore.Billing
