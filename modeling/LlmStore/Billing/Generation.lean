import LlmStore.Billing.Operations

/-!
# What refreshing and generating do to the rows

One lemma for each way in which the loops of `services/billing.py` change an invoice or a client. The properties of
runs are derived from these lemmas.
-/

namespace LlmStore.Billing

open LlmStore.Calendar LlmStore.Lib LlmStore.Usage

/-- The client has an overdue invoice. -/
def Overdue (db : Database) (c : ClientId) : Prop := ∃ inv ∈ db.invoices, inv.clientId = c ∧ inv.status = .overdue

/-- The client's billing status is `past_due` or `suspended`. -/
def Delinquent (db : Database) (c : ClientId) : Prop :=
  ∃ client, db.clients[c]? = some client ∧ client.billingStatus ≠ .active

instance (db : Database) (c : ClientId) : Decidable (Delinquent db c) :=
  decidable_of_iff ((db.clients[c]?).any (·.billingStatus ≠ .active) = true) (by simp [Delinquent, Option.any_eq_true])

/-! ## Refreshing -/

theorem nextStatus_ne_active_iff (now : Instant) (days : ℤ) (invoices : List BillingInvoice) (c : ClientId) :
    nextStatus now days invoices c ≠ .active ↔ ∃ inv ∈ invoices, inv.clientId = c ∧ inv.status = .overdue := by
  have hmem : ∀ inv, inv ∈ invoices.filter (fun inv => inv.clientId = c ∧ inv.status = .overdue) ↔
      inv ∈ invoices ∧ inv.clientId = c ∧ inv.status = .overdue := by simp
  simp only [nextStatus, deriveClientBillingStatus]
  generalize invoices.filter (fun inv => inv.clientId = c ∧ inv.status = .overdue) = overdue at hmem
  cases overdue with
  | nil =>
    simp only [List.any_nil, Bool.false_eq_true, ↓reduceIte, List.isEmpty_nil, Bool.not_true, ne_eq, not_true_eq_false,
      false_iff]
    rintro ⟨inv, hinv⟩
    exact List.not_mem_nil ((hmem inv).mpr hinv)
  | cons inv rest =>
    have hinv := (hmem inv).mp List.mem_cons_self
    constructor
    · intro _
      exact ⟨inv, hinv⟩
    · intro _
      simp only [List.isEmpty_cons, Bool.not_false, ↓reduceIte]
      split_ifs <;> simp

/-- After a refresh the delinquent clients are those with an overdue invoice. -/
theorem delinquent_refresh_iff {now : Instant} {days : ℤ} {db : Database} {c : ClientId} :
    Delinquent (refreshBillingStatuses now days db) c ↔ c < db.clients.length ∧ Overdue (letFallDue now db) c := by
  simp only [Delinquent, refreshBillingStatuses, List.getElem?_mapIdx, Option.map_eq_some_iff]
  constructor
  · rintro ⟨_, ⟨client, hc, rfl⟩, hne⟩
    exact ⟨(List.getElem?_eq_some_iff.mp hc).1, (nextStatus_ne_active_iff _ _ _ _).mp hne⟩
  · rintro ⟨hc, ho⟩
    exact ⟨_, ⟨_, List.getElem?_eq_getElem hc, rfl⟩, (nextStatus_ne_active_iff _ _ _ _).mpr ho⟩

theorem getElem?_letFallDue (now : Instant) {db : Database} {i : InvoiceId} {inv : BillingInvoice}
    (h : db.invoices[i]? = some inv) :
    (letFallDue now db).invoices[i]? = some (if inv.fallsDue now then { inv with status := .overdue } else inv) := by
  simp [letFallDue, h]

/-- A client has an overdue invoice after pending ones fall due if it had one before or one of its own falls due. -/
theorem overdue_letFallDue_iff {now : Instant} {db : Database} {c : ClientId} :
    Overdue (letFallDue now db) c ↔
      Overdue db c ∨ ∃ inv ∈ db.invoices, inv.clientId = c ∧ inv.fallsDue now = true := by
  simp only [Overdue, letFallDue, List.mem_map]
  constructor
  · rintro ⟨_, ⟨inv, hinv, rfl⟩, hc, ho⟩
    split_ifs at hc ho with hf
    · exact .inr ⟨inv, hinv, hc, hf⟩
    · exact .inl ⟨inv, hinv, hc, ho⟩
  · rintro (⟨inv, hinv, hc, ho⟩ | ⟨inv, hinv, hc, hf⟩)
    · refine ⟨_, ⟨inv, hinv, rfl⟩, ?_⟩
      split_ifs
      · exact ⟨hc, rfl⟩
      · exact ⟨hc, ho⟩
    · refine ⟨_, ⟨inv, hinv, rfl⟩, ?_⟩
      rw [if_pos hf]
      exact ⟨hc, rfl⟩

/-! ## Generating -/

/-- An invoice as the generation draws it up for client `c`. -/
structure Drawn (g : Generation) (c : ClientId) (inv : BillingInvoice) : Prop where
  bills : g.bills c inv = true
  status : inv.status = .pending
  dueAt : inv.dueAt = some g.dueAt

theorem drawn_data (g : Generation) (c : ClientId) (plan : EffectivePlan) (used : ℤ) :
    Drawn g c (buildInvoiceRecordData g c plan used) := ⟨by simp [Generation.bills, buildInvoiceRecordData], rfl, rfl⟩

theorem Generation.bills_clientId {g : Generation} {c : ClientId} {inv : BillingInvoice} (h : g.bills c inv = true) :
    inv.clientId = c := by
  simp only [Generation.bills, Bool.and_eq_true, decide_eq_true_eq] at h
  exact h.1.1

/-- A drawn up invoice falls due at the end of its generation if its days are negative. -/
theorem Drawn.fallsDue_iff {g : Generation} {c : ClientId} {inv : BillingInvoice} (h : Drawn g c inv) :
    inv.fallsDue g.currentTime = true ↔ g.dueInDays < 0 := by
  simp only [BillingInvoice.fallsDue, h.status, h.dueAt, decide_true, Bool.true_and, Option.any_some,
    decide_eq_true_eq, Generation.dueAt, addDays, microsPerDay]
  have hshift : ∀ t d : ℤ, t + d * 86400000000 < t ↔ d < 0 := by omega
  exact hshift _ _

/-- An invoice that the generation leaves alone. -/
def BillingInvoice.closed (inv : BillingInvoice) : Prop := inv.status = .paid ∨ inv.status = .cancelled

theorem generateInvoice_clients (g : Generation) (db : Database) (c : ClientId) :
    (generateInvoice g db c).clients = db.clients := by
  unfold generateInvoice
  split
  · rfl
  · split
    · rfl
    · split_ifs <;> rfl

/-- What a generation writes over the open payment of an invoice that is drawn up again. -/
def redrawPayment (data : BillingInvoice) (p : CustomerPayment) : CustomerPayment :=
  { p with status := data.status, amount := data.totalAmount, currency := data.currency,
           paymentMethod := data.paymentMethod, note := data.paymentInstructions }

/-- The loop body of the generation does nothing, adds an invoice and its payment, or draws up an open invoice and
its open payment again. -/
theorem generateInvoice_writes (g : Generation) (db : Database) (c : ClientId) :
    (generateInvoice g db c = db ∧ (c < db.clients.length → ∃ inv ∈ db.invoices, g.bills c inv = true ∧ inv.closed)) ∨
    (∃ plan used, used = monthlyUsedTokens db.usage c g.periodReference ∧ c < db.clients.length ∧
      (∀ inv ∈ db.invoices, g.bills c inv = false) ∧
      generateInvoice g db c =
        { db with
          invoices := db.invoices ++ [buildInvoiceRecordData g c plan used]
          payments := db.payments ++ [paymentOf db.invoices.length (buildInvoiceRecordData g c plan used)] }) ∨
    ∃ i inv plan used, used = monthlyUsedTokens db.usage c g.periodReference ∧ db.invoices[i]? = some inv ∧
      g.bills c inv = true ∧ ¬ inv.closed ∧
      generateInvoice g db c =
        (db.setInvoice i fun _ => buildInvoiceRecordData g c plan used).setOpenPayment i
          (redrawPayment (buildInvoiceRecordData g c plan used))
          (paymentOf i (buildInvoiceRecordData g c plan used)) := by
  cases hc : db.clients[c]? with
  | none =>
    refine .inl ⟨by simp [generateInvoice, hc], fun hlt => ?_⟩
    exact absurd (List.getElem?_eq_none_iff.mp hc) (Nat.not_le.mpr hlt)
  | some client =>
    have hlen : c < db.clients.length := (List.getElem?_eq_some_iff.mp hc).1
    cases hi : db.invoices.findIdx? (g.bills c) with
    | none =>
      refine .inr (.inl ⟨resolveEffectivePlan client, _, rfl, hlen, ?_, ?_⟩)
      · exact fun inv hinv => List.findIdx?_eq_none_iff.mp hi inv hinv
      · simp [generateInvoice, hc, hi]
    | some i =>
      obtain ⟨hlt, hb, -⟩ := List.findIdx?_eq_some_iff_getElem.mp hi
      by_cases hcl : db.invoices[i].closed
      · have hcl' : db.invoices[i].status = .paid ∨ db.invoices[i].status = .cancelled := hcl
        exact .inl ⟨by simp [generateInvoice, hc, hi, hlt, hcl'], fun _ => ⟨_, List.getElem_mem hlt, hb, hcl⟩⟩
      · have hcl' : ¬ (db.invoices[i].status = .paid ∨ db.invoices[i].status = .cancelled) := hcl
        refine .inr (.inr ⟨i, db.invoices[i], resolveEffectivePlan client, _, rfl, List.getElem?_eq_getElem hlt, hb, hcl,
          ?_⟩)
        simp only [generateInvoice, hc, hi, List.getElem?_eq_getElem hlt, Option.any_some, Bool.or_eq_true,
          decide_eq_true_eq, hcl', ↓reduceIte, Database.setOpenPayment, Database.setInvoice, Database.setPayment,
          Database.addPayment]
        cases db.payments.findIdx? (CustomerPayment.isOpen i) <;>
          simp [List.modify_eq_set_getElem?, redrawPayment, paymentOf, hlt]

/-- The loop body for client `c` leaves the invoices alone, adds one, or draws up an open one again. -/
theorem generateInvoice_cases (g : Generation) (db : Database) (c : ClientId) :
    ((generateInvoice g db c).invoices = db.invoices ∧
      (c < db.clients.length → ∃ inv ∈ db.invoices, g.bills c inv = true ∧ inv.closed)) ∨
    (∃ data, Drawn g c data ∧ (∀ inv ∈ db.invoices, g.bills c inv = false) ∧
      (generateInvoice g db c).invoices = db.invoices ++ [data]) ∨
    ∃ i inv data, Drawn g c data ∧ db.invoices[i]? = some inv ∧ g.bills c inv = true ∧ ¬ inv.closed ∧
      (generateInvoice g db c).invoices = db.invoices.set i data := by
  rcases generateInvoice_writes g db c with
    ⟨he, hex⟩ | ⟨plan, used, -, -, hnone, he⟩ | ⟨i, inv, plan, used, -, hi, hb, ho, he⟩
  · exact .inl ⟨by rw [he], hex⟩
  · exact .inr (.inl ⟨_, drawn_data g c plan used, hnone, by rw [he]⟩)
  · refine .inr (.inr ⟨i, inv, _, drawn_data g c plan used, hi, hb, ho, ?_⟩)
    rw [he, Database.setOpenPayment_invoices]
    simp [Database.setInvoice, List.modify_eq_set_getElem?, hi]

/-! ### Row by row -/

/-- What may become of an invoice in a generation: it stays, or it is an open one of the billed month and is drawn up
again. -/
def Redrawn (g : Generation) (inv inv' : BillingInvoice) : Prop :=
  inv' = inv ∨ g.covers inv.clientId = true ∧ g.bills inv.clientId inv = true ∧ ¬ inv.closed ∧ Drawn g inv.clientId inv'

theorem Redrawn.clientId {g : Generation} {inv inv' : BillingInvoice} (h : Redrawn g inv inv') :
    inv'.clientId = inv.clientId := by
  rcases h with rfl | ⟨-, -, -, hd⟩
  · rfl
  · exact Generation.bills_clientId hd.bills

theorem Redrawn.trans {g : Generation} {a b c : BillingInvoice} (h : Redrawn g a b) (h' : Redrawn g b c) :
    Redrawn g a c := by
  rcases h with rfl | ⟨hcov, hb, ho, hd⟩
  · exact h'
  · rcases h' with rfl | ⟨-, -, -, hd'⟩
    · exact .inr ⟨hcov, hb, ho, hd⟩
    · rw [Generation.bills_clientId hd.bills] at hd'
      exact .inr ⟨hcov, hb, ho, hd'⟩

theorem generateInvoice_redrawn {g : Generation} {db : Database} {c : ClientId} (hc : g.covers c = true)
    {i : InvoiceId} {inv : BillingInvoice} (hi : db.invoices[i]? = some inv) :
    ∃ inv', (generateInvoice g db c).invoices[i]? = some inv' ∧ Redrawn g inv inv' := by
  obtain ⟨hlt, -⟩ := List.getElem?_eq_some_iff.mp hi
  rcases generateInvoice_cases g db c with ⟨he, -⟩ | ⟨data, -, -, he⟩ | ⟨j, old, data, hd, hj, hb, ho, he⟩
  · exact ⟨inv, he ▸ hi, .inl rfl⟩
  · exact ⟨inv, by rw [he, List.getElem?_append_left hlt]; exact hi, .inl rfl⟩
  · by_cases hij : j = i
    · subst hij
      rw [hi, Option.some.injEq] at hj
      subst hj
      have hcl := Generation.bills_clientId hb
      subst hcl
      exact ⟨data, by rw [he, List.getElem?_set_self hlt], .inr ⟨hc, hb, ho, hd⟩⟩
    · exact ⟨inv, by rw [he, List.getElem?_set_ne hij]; exact hi, .inl rfl⟩

theorem foldl_redrawn {g : Generation} {cs : List ClientId} {db : Database} (hcs : ∀ c ∈ cs, g.covers c = true)
    {i : InvoiceId} {inv : BillingInvoice} (hi : db.invoices[i]? = some inv) :
    ∃ inv', (cs.foldl (generateInvoice g) db).invoices[i]? = some inv' ∧ Redrawn g inv inv' := by
  induction cs generalizing db inv with
  | nil => exact ⟨inv, hi, .inl rfl⟩
  | cons c cs ih =>
    obtain ⟨inv₁, hi₁, hr₁⟩ := generateInvoice_redrawn (hcs c List.mem_cons_self) hi
    obtain ⟨inv₂, hi₂, hr₂⟩ := ih (fun c' hc' => hcs c' (List.mem_cons_of_mem _ hc')) hi₁
    exact ⟨inv₂, hi₂, hr₁.trans hr₂⟩

theorem foldl_clients (g : Generation) : ∀ (cs : List ClientId) (db : Database),
    (cs.foldl (generateInvoice g) db).clients = db.clients
  | [], _ => rfl
  | c :: cs, db => (foldl_clients g cs _).trans (generateInvoice_clients g db c)

theorem mem_snapshotClients {g : Generation} {db : Database} {c : ClientId} :
    c ∈ snapshotClients g db ↔ c < db.clients.length ∧ g.covers c = true := by
  simp [snapshotClients]

/-! ### Client by client -/

/-- The invoices of a client. -/
def invoicesOf (db : Database) (c : ClientId) : List BillingInvoice := db.invoices.filter (·.clientId = c)

theorem mem_invoicesOf {db : Database} {c : ClientId} {inv : BillingInvoice} :
    inv ∈ invoicesOf db c ↔ inv ∈ db.invoices ∧ inv.clientId = c := by simp [invoicesOf]

/-- The loop body in terms of one client's invoices; an invoice drawn up again keeps its place. -/
theorem generateInvoice_own (g : Generation) (db : Database) (c : ClientId) :
    (invoicesOf (generateInvoice g db c) c = invoicesOf db c ∧
      (c < db.clients.length → ∃ inv ∈ invoicesOf db c, g.bills c inv = true ∧ inv.closed)) ∨
    (∃ data, Drawn g c data ∧ (∀ inv ∈ invoicesOf db c, g.bills c inv = false) ∧
      invoicesOf (generateInvoice g db c) c = invoicesOf db c ++ [data]) ∨
    ∃ before inv data after, Drawn g c data ∧ invoicesOf db c = before ++ inv :: after ∧ g.bills c inv = true ∧
      ¬ inv.closed ∧ invoicesOf (generateInvoice g db c) c = before ++ data :: after := by
  rcases generateInvoice_cases g db c with ⟨he, hex⟩ | ⟨data, hd, hnone, he⟩ | ⟨i, inv, data, hd, hi, hb, ho, he⟩
  · refine .inl ⟨by rw [invoicesOf, he, invoicesOf], fun hlt => ?_⟩
    obtain ⟨inv, hinv, hb, hcl⟩ := hex hlt
    exact ⟨inv, mem_invoicesOf.mpr ⟨hinv, Generation.bills_clientId hb⟩, hb, hcl⟩
  · refine .inr (.inl ⟨data, hd, fun inv hinv => hnone inv (mem_invoicesOf.mp hinv).1, ?_⟩)
    rw [invoicesOf, he, List.filter_append, invoicesOf]
    simp [Generation.bills_clientId hd.bills]
  · obtain ⟨hlt, rfl⟩ := List.getElem?_eq_some_iff.mp hi
    refine .inr (.inr ⟨(db.invoices.take i).filter (·.clientId = c), db.invoices[i], data,
      (db.invoices.drop (i + 1)).filter (·.clientId = c), hd, ?_, hb, ho, ?_⟩)
    · rw [invoicesOf]
      conv_lhs => rw [← List.take_append_drop i db.invoices, List.drop_eq_getElem_cons hlt]
      rw [List.filter_append, List.filter_cons_of_pos (by simp [Generation.bills_clientId hb])]
    · rw [invoicesOf, he, List.set_eq_take_append_cons_drop, if_pos hlt, List.filter_append,
        List.filter_cons_of_pos (by simp [Generation.bills_clientId hd.bills])]

/-- The loop body for another client leaves a client's invoices alone. -/
theorem generateInvoice_other {g : Generation} (db : Database) {c c' : ClientId} (h : c' ≠ c) :
    invoicesOf (generateInvoice g db c') c = invoicesOf db c := by
  rcases generateInvoice_cases g db c' with ⟨he, -⟩ | ⟨data, hd, -, he⟩ | ⟨i, inv, data, hd, hi, hb, -, he⟩
  · rw [invoicesOf, he, invoicesOf]
  · rw [invoicesOf, he, List.filter_append, invoicesOf]
    simp [Generation.bills_clientId hd.bills, h]
  · obtain ⟨hlt, rfl⟩ := List.getElem?_eq_some_iff.mp hi
    rw [invoicesOf, he, List.set_eq_take_append_cons_drop, if_pos hlt, List.filter_append,
      List.filter_cons_of_neg (by simp [Generation.bills_clientId hd.bills, h]), invoicesOf]
    conv_rhs => rw [← List.take_append_drop i db.invoices, List.drop_eq_getElem_cons hlt]
    rw [List.filter_append, List.filter_cons_of_neg (by simp [Generation.bills_clientId hb, h])]

/-- A loop without the client leaves its invoices alone. -/
theorem foldl_other (g : Generation) {c : ClientId} : ∀ {cs : List ClientId} (db : Database), c ∉ cs →
    invoicesOf (cs.foldl (generateInvoice g) db) c = invoicesOf db c
  | [], _, _ => rfl
  | c' :: cs, db, h => by
    rw [List.mem_cons, not_or] at h
    rw [List.foldl_cons, foldl_other g _ h.2, generateInvoice_other db (Ne.symm h.1)]

/-- In a whole loop a client's invoices change by its own loop body. -/
theorem foldl_own (g : Generation) {c : ClientId} {cs : List ClientId} (db : Database) (hnd : cs.Nodup)
    (hmem : c ∈ cs) :
    ∃ db', db'.clients = db.clients ∧ invoicesOf db' c = invoicesOf db c ∧
      invoicesOf (cs.foldl (generateInvoice g) db) c = invoicesOf (generateInvoice g db' c) c := by
  induction cs generalizing db with
  | nil => cases hmem
  | cons c' cs ih =>
    obtain ⟨hni, hnd⟩ := List.nodup_cons.mp hnd
    by_cases hcc : c' = c
    · subst hcc
      exact ⟨db, rfl, rfl, foldl_other g _ hni⟩
    · have hmem' := (List.mem_cons.mp hmem).resolve_left (Ne.symm hcc)
      obtain ⟨db', hclients, hown, hfold⟩ := ih (generateInvoice g db c') hnd hmem'
      exact ⟨db', hclients.trans (generateInvoice_clients g db c'), hown.trans (generateInvoice_other db hcc), hfold⟩

theorem nodup_snapshotClients (g : Generation) (db : Database) : (snapshotClients g db).Nodup :=
  (List.nodup_reverse.mpr List.nodup_range).filter _

end LlmStore.Billing
