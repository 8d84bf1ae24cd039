import LlmStore.Billing.Generation
import LlmStore.Lib.Run

/-!
# How delinquency ends

A client is `Delinquent` while its billing status is not `active`. In a `Coherent` database every such client has an
overdue invoice, and a refresh leaves its status alone. An operation can break this in two ways only: a generation that
resets an overdue invoice to pending, and a patch that takes a client without overdue invoice out of `active`. In every
other run delinquency ends by a payment, a cancellation or a patch (`settled_of_guarded`).
-/

namespace LlmStore.Billing

open LlmStore.Calendar LlmStore.Lib LlmStore.Usage

/-- Every delinquent client has an overdue invoice or is excepted. -/
def CoherentBut (excepted : ClientId → Prop) (db : Database) : Prop :=
  ∀ c, Delinquent db c → Overdue db c ∨ excepted c

/-- Every delinquent client has an overdue invoice. -/
def Coherent (db : Database) : Prop := ∀ c, Delinquent db c → Overdue db c

theorem Coherent.but {db : Database} (h : Coherent db) (excepted : ClientId → Prop) : CoherentBut excepted db :=
  fun c hc => .inl (h c hc)

/-- Clients and invoices decide. -/
theorem Coherent.congr {a b : Database} (h : Coherent a) (hc : b.clients = a.clients) (hi : b.invoices = a.invoices) :
    Coherent b := by
  intro c hd
  rw [Delinquent, hc] at hd
  rw [Overdue, hi]
  exact h c hd

theorem coherent_refresh (now : Instant) (days : ℤ) (db : Database) : Coherent (refreshBillingStatuses now days db) :=
  fun _ hc => (delinquent_refresh_iff.mp hc).2

/-- A refresh ends the delinquency of excepted clients only. -/
theorem excepted_of_refresh {excepted : ClientId → Prop} {now : Instant} {days : ℤ} {db : Database}
    (hco : CoherentBut excepted db) {c : ClientId} (hd : Delinquent db c)
    (hd' : ¬ Delinquent (refreshBillingStatuses now days db) c) : excepted c := by
  refine (hco c hd).resolve_left fun ho => hd' ?_
  obtain ⟨client, hc, -⟩ := hd
  exact delinquent_refresh_iff.mpr ⟨(List.getElem?_eq_some_iff.mp hc).1, overdue_letFallDue_iff.mpr (.inl ho)⟩

/-- A refresh leaves an overdue invoice alone. -/
theorem overdue_refresh {now : Instant} {days : ℤ} {db : Database} {i : InvoiceId} {inv : BillingInvoice}
    (hi : db.invoices[i]? = some inv) (ho : inv.status = .overdue) :
    (refreshBillingStatuses now days db).invoices[i]? = some inv := by
  have hf : inv.fallsDue now = false := by simp [BillingInvoice.fallsDue, ho]
  have := getElem?_letFallDue now hi
  rwa [hf, if_neg Bool.false_ne_true] at this

/-! ## Generating -/

/-- The generation sets an overdue invoice of the billed month back to pending, and it does not fall due at once. -/
def Generation.Resets (g : Generation) (db : Database) : Prop :=
  g.runs = true ∧ 0 ≤ g.dueInDays ∧
    ∃ inv ∈ db.invoices, g.covers inv.clientId = true ∧ g.bills inv.clientId inv = true ∧ inv.status = .overdue

instance (g : Generation) (db : Database) : Decidable (g.Resets db) := by unfold Generation.Resets; infer_instance

/-- A generation that resets nothing leaves every overdue invoice overdue. -/
theorem overdue_generate {g : Generation} {db : Database} (hg : ¬ g.Resets db) {i : InvoiceId} {inv : BillingInvoice}
    (hi : db.invoices[i]? = some inv) (ho : inv.status = .overdue) :
    ∃ inv', (generateMonthlyInvoices g db).invoices[i]? = some inv' ∧ inv'.clientId = inv.clientId ∧
      inv'.status = .overdue := by
  unfold generateMonthlyInvoices
  split_ifs with hrun
  · obtain ⟨inv₁, hi₁, hr⟩ := foldl_redrawn (fun c hc => (mem_snapshotClients.mp hc).2) hi
    rcases hr with rfl | ⟨hcov, hb, -, hd⟩
    · exact ⟨inv₁, overdue_refresh hi₁ ho, rfl, ho⟩
    · have hdays : g.dueInDays < 0 := by
        by_contra hge
        exact hg ⟨hrun, by omega, inv, List.mem_of_getElem? hi, hcov, hb, ho⟩
      have hdue := getElem?_letFallDue g.currentTime hi₁
      rw [if_pos (hd.fallsDue_iff.mpr hdays)] at hdue
      exact ⟨_, hdue, Generation.bills_clientId hd.bills, rfl⟩
  · exact ⟨inv, hi, rfl, ho⟩

theorem coherent_generate (g : Generation) {db : Database} (hco : Coherent db) :
    Coherent (generateMonthlyInvoices g db) := by
  unfold generateMonthlyInvoices
  split_ifs
  · exact coherent_refresh _ _ _
  · exact hco

theorem delinquent_generate {g : Generation} {db : Database} (hco : Coherent db) (hg : ¬ g.Resets db) {c : ClientId}
    (hd : Delinquent db c) : Delinquent (generateMonthlyInvoices g db) c := by
  obtain ⟨inv, hinv, hcl, ho⟩ := hco c hd
  obtain ⟨i, hi⟩ := List.getElem?_of_mem hinv
  obtain ⟨inv', hi', hcl', ho'⟩ := overdue_generate hg hi ho
  unfold generateMonthlyInvoices at hi' ⊢
  split_ifs at hi' ⊢
  · obtain ⟨client, hc, -⟩ := hd
    refine delinquent_refresh_iff.mpr ⟨?_, inv', List.mem_of_getElem? hi', hcl'.trans hcl, ho'⟩
    rw [foldl_clients]
    exact (List.getElem?_eq_some_iff.mp hc).1
  · exact hd

/-! ## Operations -/

/-- The generation that an operation runs. -/
def Operation.generation : Operation → Option Generation
  | .generateInvoices g => some { g with force := true }
  | .runBillingCycle g _ | .runBillingCycleOnce g _ => some { g with force := false, clientId := none }
  | _ => none

/-- Invoice `i` is one of the client's that is not paid. -/
def Owes (db : Database) (i : InvoiceId) (c : ClientId) : Prop :=
  ∃ inv, db.invoices[i]? = some inv ∧ inv.clientId = c ∧ inv.status ≠ .paid

/-- The operation pays or cancels an invoice of the client, or patches the client's billing status. -/
def Settles (db : Database) (c : ClientId) : Operation → Prop
  | .markInvoicePaid _ _ i _ | .cancelInvoice _ _ i => Owes db i c
  | .createPayment clientLoaded _ payload =>
    payload.paidAt.isSome = true ∧ clientLoaded = true ∧ Owes db payload.invoiceId c
  | .pixWebhook _ _ payload => payload.status = "paid" ∧ ∃ i, payload.invoiceId = some i ∧ Owes db i c
  | .patchClient c' patch => c' = c ∧ patch.billingStatus = some .active
  | _ => False

/-- The operation resets no overdue invoice, and takes no client without overdue invoice out of `active`. -/
def Guarded (db : Database) (op : Operation) : Prop :=
  (∀ g, op.generation = some g → ¬ g.Resets db) ∧
    ∀ c patch status, op = .patchClient c patch → patch.billingStatus = some status → status ≠ .active → Overdue db c

/-- What the operation may do, begun in `db`, from one committed state to the next. -/
structure Settled (db : Database) (op : Operation) (a b : Database) : Prop where
  /-- A client gets out of delinquency only if the operation settles it. -/
  delinquency : ∀ c, Delinquent a c → ¬ Delinquent b c → Settles db c op
  /-- A generation leaves an overdue invoice overdue. -/
  overdue : op.generation ≠ none → ∀ (i : InvoiceId) (inv : BillingInvoice), a.invoices[i]? = some inv →
    inv.status = .overdue → ∃ inv' : BillingInvoice, b.invoices[i]? = some inv' ∧ inv'.status = .overdue

/-! ### Writes -/

theorem overdue_setInvoice (db : Database) {i : InvoiceId} (f : BillingInvoice → BillingInvoice) {c : ClientId}
    (h : Overdue db c) : Overdue (db.setInvoice i f) c ∨ Owes db i c := by
  obtain ⟨inv, hinv, hc, ho⟩ := h
  obtain ⟨j, hj⟩ := List.getElem?_of_mem hinv
  by_cases hij : i = j
  · exact .inr ⟨inv, hij ▸ hj, hc, by rw [ho]; decide⟩
  · refine .inl ⟨inv, List.mem_of_getElem? (i := j) ?_, hc, ho⟩
    simp [Database.setInvoice, hj, hij]

theorem overdue_mark {db : Database} {i : InvoiceId} {c : ClientId} (h : Overdue db c) :
    Overdue (db.setInvoice i fun inv => { inv with status := .overdue }) c := by
  obtain ⟨inv, hinv, hc, ho⟩ := h
  obtain ⟨j, hj⟩ := List.getElem?_of_mem hinv
  refine ⟨if i = j then { inv with status := .overdue } else inv, List.mem_of_getElem? (i := j) ?_, ?_, ?_⟩
  · simp [Database.setInvoice, List.getElem?_modify, hj]
  · split_ifs <;> exact hc
  · split_ifs
    · rfl
    · exact ho

theorem delinquent_setClient {db : Database} {c₀ c : ClientId} {f : Client → Client} :
    Delinquent (db.setClient c₀ f) c ↔
      ∃ client, db.clients[c]? = some client ∧ (if c₀ = c then f client else client).billingStatus ≠ .active := by
  simp only [Delinquent, Database.setClient, List.getElem?_modify, Option.map_eq_map, Option.map_eq_some_iff]
  constructor
  · rintro ⟨_, ⟨client, hc, rfl⟩, hne⟩
    exact ⟨client, hc, hne⟩
  · rintro ⟨client, hc, hne⟩
    exact ⟨_, ⟨client, hc, rfl⟩, hne⟩

/-- Setting a client's status to `active` leaves the other clients alone. -/
theorem delinquent_activate {db : Database} {c₀ c : ClientId} :
    Delinquent (db.setClient c₀ fun client => { client with billingStatus := .active }) c ↔
      c ≠ c₀ ∧ Delinquent db c := by
  rw [delinquent_setClient]
  constructor
  · rintro ⟨client, hc, hne⟩
    split_ifs at hne with he
    · exact absurd rfl hne
    · exact ⟨Ne.symm he, client, hc, hne⟩
  · rintro ⟨hne, client, hc, hs⟩
    exact ⟨client, hc, by rw [if_neg (Ne.symm hne)]; exact hs⟩

/-- A new client is `active`. -/
theorem delinquent_addClient {db : Database} {c : ClientId} (plan : Option BillingPlan) (quota : ℤ) :
    Delinquent { db with clients := db.clients ++
      [{ billingStatus := .active, billingPlan := plan, monthlyTokenQuota := quota }] } c ↔ Delinquent db c := by
  constructor
  · rintro ⟨client, hc, hne⟩
    rcases Nat.lt_or_ge c db.clients.length with hlt | hge
    · rw [List.getElem?_append_left hlt] at hc
      exact ⟨client, hc, hne⟩
    · rw [List.getElem?_append_right hge, List.getElem?_singleton] at hc
      split_ifs at hc
      cases hc
      exact absurd rfl hne
  · rintro ⟨client, hc, hne⟩
    refine ⟨client, ?_, hne⟩
    rw [List.getElem?_append_left (List.getElem?_eq_some_iff.mp hc).1]
    exact hc

/-! ### The committed states of an operation -/

/-- The states `dbs` committed by `op` from `db` are as `Settled` says, and the last one is coherent. -/
structure Sound (db : Database) (op : Operation) (dbs : List Database) : Prop where
  settled : ∀ p ∈ (db :: dbs).zip dbs, Settled db op p.1 p.2
  coherent : Coherent (dbs.getLastD db)

section Sound

variable {db db₁ : Database} {op : Operation}

/-- Two changes committed at once. -/
theorem Settled.trans {a b : Database} (h : Settled db op db a) (h' : Settled db op a b) : Settled db op db b := by
  refine ⟨fun c hd hd' => ?_, fun hgen i inv hi ho => ?_⟩
  · by_cases ha : Delinquent a c
    · exact h'.delinquency c ha hd'
    · exact h.delinquency c hd ha
  · obtain ⟨inv₁, hi₁, ho₁⟩ := h.overdue hgen i inv hi ho
    exact h'.overdue hgen i inv₁ hi₁ ho₁

theorem sound_nil (hco : Coherent db) : Sound db op [] := ⟨by simp, hco⟩

theorem sound_one (hs : Settled db op db db₁) (hco : Coherent db₁) : Sound db op [db₁] := ⟨by simpa using hs, hco⟩

/-- A state is committed and then refreshed. -/
theorem sound_two {later : Instant} {days : ℤ} (hs : Settled db op db db₁)
    (hs' : Settled db op db₁ (refreshBillingStatuses later days db₁)) :
    Sound db op [db₁, refreshBillingStatuses later days db₁] :=
  ⟨by simpa using ⟨hs, hs'⟩, coherent_refresh _ _ _⟩

/-- A refresh from a state in which the delinquent clients that the operation does not settle are overdue. -/
theorem settled_refresh {later : Instant} {days : ℤ} (hco : CoherentBut (fun c => Settles db c op) db₁) :
    Settled db op db₁ (refreshBillingStatuses later days db₁) :=
  ⟨fun _ hd hd' => excepted_of_refresh hco hd hd', fun _ _ inv hi ho => ⟨inv, overdue_refresh hi ho, ho⟩⟩

theorem settled_of_delinquency (hgen : op.generation = none)
    (h : ∀ c, Delinquent db c → ¬ Delinquent db₁ c → Settles db c op) : Settled db op db db₁ :=
  ⟨h, fun hne => absurd hgen hne⟩

theorem settled_generate {g : Generation} (hco : Coherent db) (hg : ¬ g.Resets db) :
    Settled db op db (generateMonthlyInvoices g db) := by
  refine ⟨fun c hd hd' => absurd (delinquent_generate hco hg hd) hd', fun _ i inv hi ho => ?_⟩
  obtain ⟨inv', hi', -, ho'⟩ := overdue_generate hg hi ho
  exact ⟨inv', hi', ho'⟩

/-- A commit that leaves the clients alone, followed by a refresh. -/
theorem sound_write {later : Instant} {days : ℤ} (hgen : op.generation = none) (hclients : db₁.clients = db.clients)
    (hov : ∀ c, Overdue db c → Overdue db₁ c ∨ Settles db c op) (hco : Coherent db) :
    Sound db op [db₁, refreshBillingStatuses later days db₁] := by
  have hdel : ∀ c, Delinquent db₁ c ↔ Delinquent db c := fun c => by rw [Delinquent, Delinquent, hclients]
  refine sound_two (settled_of_delinquency hgen fun c hd hd' => absurd ((hdel c).mpr hd) hd') (settled_refresh ?_)
  intro c hd
  exact hov c (hco c ((hdel c).mp hd))

/-- A write that leaves the clients alone, refreshed and committed at once. -/
theorem sound_refreshed {later : Instant} {days : ℤ} (hgen : op.generation = none) (hclients : db₁.clients = db.clients)
    (hov : ∀ c, Overdue db c → Overdue db₁ c ∨ Settles db c op) (hco : Coherent db) :
    Sound db op [refreshBillingStatuses later days db₁] := by
  have hdel : ∀ c, Delinquent db₁ c ↔ Delinquent db c := fun c => by rw [Delinquent, Delinquent, hclients]
  have hbut : CoherentBut (fun c => Settles db c op) db₁ := fun c hd => hov c (hco c ((hdel c).mp hd))
  refine sound_one (settled_of_delinquency hgen fun c hd hd' => ?_) (coherent_refresh _ _ _)
  exact excepted_of_refresh hbut ((hdel c).mpr hd) hd'

/-- A commit that also sets the client of a settled invoice to `active`, followed by a refresh. -/
theorem sound_pay {later : Instant} {days : ℤ} {c₀ : ClientId} (hgen : op.generation = none)
    (hclients : db₁.clients = db.clients) (hov : ∀ c, Overdue db c → Overdue db₁ c ∨ Settles db c op)
    (h₀ : Settles db c₀ op) (hco : Coherent db) :
    Sound db op [db₁.setClient c₀ fun client => { client with billingStatus := .active },
      refreshBillingStatuses later days (db₁.setClient c₀ fun client => { client with billingStatus := .active })] := by
  have hdel : ∀ c, Delinquent db₁ c ↔ Delinquent db c := fun c => by rw [Delinquent, Delinquent, hclients]
  refine sound_two (settled_of_delinquency hgen fun c hd hd' => ?_) (settled_refresh fun c hd => ?_)
  · rw [delinquent_activate, not_and_or, not_not] at hd'
    rcases hd' with rfl | hd'
    · exact h₀
    · exact absurd ((hdel c).mpr hd) hd'
  · exact hov c (hco c ((hdel c).mp (delinquent_activate.mp hd).2))

end Sound

section Operations

variable (suspendAfterDays : ℤ) {db : Database}

theorem sound_markInvoiceOverdue (hco : Coherent db) (later : Instant) (i : InvoiceId) :
    Sound db (.markInvoiceOverdue later i) (commits suspendAfterDays db (.markInvoiceOverdue later i)) := by
  simp only [commits, markInvoiceOverdue]
  split
  · exact sound_nil hco
  · split_ifs
    · exact sound_nil hco
    · exact sound_write rfl rfl (fun c ho => .inl (overdue_mark ho)) hco

theorem sound_markInvoicePaid (hco : Coherent db) (now later : Instant) (i : InvoiceId)
    (payload : InvoiceMarkPaidRequest) :
    Sound db (.markInvoicePaid now later i payload)
      (commits suspendAfterDays db (.markInvoicePaid now later i payload)) := by
  simp only [commits, markInvoicePaid]
  split
  · exact sound_nil hco
  · rename_i invoice hi
    split_ifs with hcancelled hpaid
    · exact sound_nil hco
    · exact sound_nil hco
    · refine sound_pay rfl (by simp) (fun c ho => ?_) ⟨invoice, hi, rfl, hpaid⟩ hco
      rw [Overdue, Database.setOpenPayment_invoices]
      exact overdue_setInvoice db _ ho

theorem sound_cancelInvoice (hco : Coherent db) (now later : Instant) (i : InvoiceId) :
    Sound db (.cancelInvoice now later i) (commits suspendAfterDays db (.cancelInvoice now later i)) := by
  simp only [commits, cancelInvoice]
  split
  · exact sound_nil hco
  · split_ifs
    · exact sound_nil hco
    · exact sound_nil hco
    · exact sound_write rfl rfl (fun c ho => overdue_setInvoice db _ ho) hco

theorem sound_createPayment (hco : Coherent db) (clientLoaded : Bool) (later : Instant) (payload : PaymentCreate) :
    Sound db (.createPayment clientLoaded later payload)
      (commits suspendAfterDays db (.createPayment clientLoaded later payload)) := by
  simp only [commits, createPayment]
  split
  · exact sound_nil hco
  · rename_i invoice hi
    by_cases hpays : payload.paidAt.isSome = true ∧ invoice.status ≠ .paid
    · simp only [if_pos hpays]
      cases clientLoaded with
      | false => exact sound_nil hco
      | true =>
        refine sound_pay rfl rfl (fun c ho => ?_) ⟨hpays.1, rfl, invoice, hi, rfl, hpays.2⟩ hco
        exact (overdue_setInvoice db _ ho).imp_right fun hw => ⟨hpays.1, rfl, hw⟩
    · simp only [if_neg hpays]
      exact sound_write rfl rfl (fun c ho => .inl ho) hco

theorem sound_cancelPayment (hco : Coherent db) (now : Instant) (p : PaymentId) :
    Sound db (.cancelPayment now p) (commits suspendAfterDays db (.cancelPayment now p)) := by
  simp only [commits, cancelPayment]
  split
  · exact sound_nil hco
  · split_ifs
    · exact sound_nil hco
    · exact sound_one (settled_of_delinquency rfl fun c hd hd' => absurd hd hd') (hco.congr rfl rfl)

theorem sound_pixWebhook (hco : Coherent db) (now later : Instant) (payload : WebhookPayload) :
    Sound db (.pixWebhook now later payload) (commits suspendAfterDays db (.pixWebhook now later payload)) := by
  simp only [commits, pixWebhook]
  split
  · exact sound_nil hco
  · rename_i i hid
    split
    · exact sound_nil hco
    · rename_i invoice hi
      by_cases hpaid : invoice.status = .paid
      · rw [if_pos hpaid]
        exact sound_nil hco
      · rw [if_neg hpaid]
        by_cases hstatus : payload.status = "paid"
        · rw [if_pos hstatus]
          refine sound_refreshed rfl (by simp) (fun c ho => ?_) hco
          rw [Overdue, Database.setOpenPayment_invoices]
          exact (overdue_setInvoice db _ ho).imp_right fun hw => ⟨hstatus, i, hid, hw⟩
        · rw [if_neg hstatus]
          exact sound_nil hco

theorem sound_patchClient (hco : Coherent db) {c : ClientId} {patch : ClientPatch}
    (hg : Guarded db (.patchClient c patch)) :
    Sound db (.patchClient c patch) (commits suspendAfterDays db (.patchClient c patch)) := by
  simp only [commits, patchClient]
  split_ifs
  · refine sound_one (settled_of_delinquency rfl fun c' hd hd' => ?_) fun c' hd => ?_
    · obtain ⟨client, hc, hne⟩ := hd
      rw [delinquent_setClient, not_exists] at hd'
      have hactive := not_and_not_right.mp (hd' client) hc
      split_ifs at hactive with he
      · cases hs : patch.billingStatus with
        | none =>
          rw [hs] at hactive
          exact absurd hactive hne
        | some status =>
          rw [hs] at hactive
          exact ⟨he, hs.trans (congrArg some hactive)⟩
      · exact absurd hactive hne
    · obtain ⟨client, hc, hne⟩ := delinquent_setClient.mp hd
      split_ifs at hne with he
      · subst he
        cases hs : patch.billingStatus with
        | none =>
          rw [hs] at hne
          exact hco c ⟨client, hc, hne⟩
        | some status =>
          rw [hs] at hne
          exact hg.2 c patch status rfl hs hne
      · exact hco c' ⟨client, hc, hne⟩
  · exact sound_nil hco

theorem sound_generateInvoices (hco : Coherent db) {g : Generation} (hg : Guarded db (.generateInvoices g)) :
    Sound db (.generateInvoices g) (commits suspendAfterDays db (.generateInvoices g)) := by
  simp only [commits, generateInvoices]
  split_ifs
  · have hr : ¬ ({ g with force := true } : Generation).Resets db := hg.1 _ rfl
    exact sound_one (settled_generate hco hr) (coherent_generate _ hco)
  · exact sound_nil hco

/-- The scheduled generation with `settings` in place of the arguments that it overrides. -/
theorem settled_cycle {op : Operation} {g : Generation} (hco : Coherent db) (hg : Guarded db op)
    (hgen : op.generation = some { g with force := false, clientId := none }) :
    Settled db op db (generateMonthlyInvoices { g with force := false, clientId := none, suspendAfterDays } db) := by
  have hr : ¬ ({ g with force := false, clientId := none } : Generation).Resets db := hg.1 _ hgen
  exact settled_generate hco hr

theorem sound_runBillingCycle (hco : Coherent db) {g : Generation} {later : Instant}
    (hg : Guarded db (.runBillingCycle g later)) :
    Sound db (.runBillingCycle g later) (commits suspendAfterDays db (.runBillingCycle g later)) :=
  sound_two (settled_cycle suspendAfterDays hco hg rfl) (settled_refresh ((coherent_generate _ hco).but _))

theorem sound_runBillingCycleOnce (hco : Coherent db) {g : Generation} {later : Instant}
    (hg : Guarded db (.runBillingCycleOnce g later)) :
    Sound db (.runBillingCycleOnce g later) (commits suspendAfterDays db (.runBillingCycleOnce g later)) := by
  refine sound_one ?_ (coherent_refresh _ _ _)
  exact (settled_cycle suspendAfterDays hco hg rfl).trans (settled_refresh ((coherent_generate _ hco).but _))

/-- **An operation begun in a coherent state settles what it ends**, if it is guarded. -/
theorem sound_commits (hco : Coherent db) {op : Operation} (hg : Guarded db op) :
    Sound db op (commits suspendAfterDays db op) := by
  cases op with
  | generateInvoices g => exact sound_generateInvoices suspendAfterDays hco hg
  | runBillingCycle g later => exact sound_runBillingCycle suspendAfterDays hco hg
  | runBillingCycleOnce g later => exact sound_runBillingCycleOnce suspendAfterDays hco hg
  | refresh now => exact sound_one (settled_refresh (hco.but _)) (coherent_refresh _ _ _)
  | markInvoiceOverdue later i => exact sound_markInvoiceOverdue suspendAfterDays hco later i
  | markInvoicePaid now later i payload => exact sound_markInvoicePaid suspendAfterDays hco now later i payload
  | cancelInvoice now later i => exact sound_cancelInvoice suspendAfterDays hco now later i
  | createPayment clientLoaded later payload =>
    exact sound_createPayment suspendAfterDays hco clientLoaded later payload
  | cancelPayment now p => exact sound_cancelPayment suspendAfterDays hco now p
  | pixWebhook now later payload => exact sound_pixWebhook suspendAfterDays hco now later payload
  | patchClient c patch => exact sound_patchClient suspendAfterDays hco hg
  | addClient plan quota =>
    exact sound_one (settled_of_delinquency rfl fun c hd hd' => absurd ((delinquent_addClient plan quota).mpr hd) hd')
      fun c hd => hco c ((delinquent_addClient plan quota).mp hd)
  | recordUsage c today prompt completion =>
    exact sound_one (settled_of_delinquency rfl fun c' hd hd' => absurd hd hd') (hco.congr rfl rfl)

end Operations

/-! ## Runs -/

section Runs

variable (suspendAfterDays : ℤ)

/-- **Guarded runs.** In a run of guarded operations from a coherent database, each from one committed state to the
next does what `Settled` says. -/
theorem settled_of_guarded (db : Database) (hco : Coherent db) (ops : List Operation)
    (hg : Along (step suspendAfterDays) Guarded db ops) (before after : List Operation) (op : Operation)
    (hops : ops = before ++ op :: after) (s : Database) (hs : run (step suspendAfterDays) db before = some s) :
    ∀ p ∈ (s :: commits suspendAfterDays s op).zip (commits suspendAfterDays s op), Settled s op p.1 p.2 := by
  subst hops
  have hco' : Coherent s := by
    refine run_inv_along (P := Guarded) (fun t op' t' ht hg' hstep => ?_) hco ((along_append hs).mp hg).1 hs
    cases hstep
    exact (sound_commits suspendAfterDays ht hg').coherent
  exact (sound_commits suspendAfterDays hco' (hg.at hs)).settled

end Runs

/-! ## An invoice generated again -/

/-- A client on no plan with an overdue invoice for April 2026. -/
def lateClient : Database where
  clients := [{ billingStatus := .pastDue, billingPlan := none, monthlyTokenQuota := 1000 }]
  invoices :=
    [{ clientId := 0, status := .overdue, currency := "USD",
       periodStart := { year := 2026, month := 4, day := 1 }, periodEnd := { year := 2026, month := 4, day := 30 },
       monthlyPrice := 29, includedTokens := 1000, usedTokens := 0, overageTokens := 0, overagePricePer1kTokens := 0,
       overageCost := 0, totalAmount := 29, paymentMethod := "manual_pix", paymentInstructions := none,
       dueAt := some 0, paidAt := none, cancelledAt := none }]
  payments := []
  usage := { quotaCounters := ∅, usageRecords := ∅ }

/-- The generation of an administrator on a day of a month, due in seven days. -/
def generationOn (month day : ℕ) (hm : 1 ≤ month := by decide) (hm' : month ≤ 12 := by decide)
    (hd : 1 ≤ day := by decide) (hd' : day ≤ daysInMonth 2026 month := by decide) : Generation where
  referenceDatetime := ⟨⟨2026, month, day, hm, hm', hd, hd'⟩, 0⟩
  invoiceDay := 1
  dueInDays := 7
  suspendAfterDays := 15
  paymentMethod := "manual_pix"
  paymentInstructions := none
  force := true
  clientId := none

theorem coherent_lateClient : Coherent lateClient := fun c ⟨client, hc, _⟩ => by
  have hlt := (List.getElem?_eq_some_iff.mp hc).1
  obtain rfl : c = 0 := by simpa [lateClient] using hlt
  exact ⟨_, List.mem_singleton_self _, rfl, rfl⟩

/-- In June the invoice for May is added and the client stays delinquent. -/
theorem settled_of_guarded_june :
    Coherent lateClient ∧ Guarded lateClient (.generateInvoices (generationOn 6 20)) ∧
      ∀ p ∈ (lateClient :: commits 15 lateClient (.generateInvoices (generationOn 6 20))).zip
          (commits 15 lateClient (.generateInvoices (generationOn 6 20))),
        Settled lateClient (.generateInvoices (generationOn 6 20)) p.1 p.2 := by
  have hg : Guarded lateClient (.generateInvoices (generationOn 6 20)) := by
    refine ⟨?_, fun _ _ _ h => nomatch h⟩
    rintro g ⟨rfl⟩
    decide
  exact ⟨coherent_lateClient, hg, settled_of_guarded 15 lateClient coherent_lateClient
    [.generateInvoices (generationOn 6 20)] ⟨hg, fun _ _ => trivial⟩ [] [] _ rfl lateClient rfl⟩

/-- **A second generation in May ends the delinquency**, though nothing is paid or cancelled. -/
theorem delinquency_lost :
    ¬ ∀ p ∈ (lateClient :: commits 15 lateClient (.generateInvoices (generationOn 5 20))).zip
        (commits 15 lateClient (.generateInvoices (generationOn 5 20))),
      Settled lateClient (.generateInvoices (generationOn 5 20)) p.1 p.2 := by
  intro h
  exact (h _ List.mem_cons_self).delinquency 0 (by decide) (by decide)

end LlmStore.Billing
