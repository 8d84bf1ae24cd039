import LlmStore.Billing.ClosedInvoices
import LlmStore.Billing.FreePlan

/-!
# Months that are billed

A generation bills the month before the day on which it runs, and no operation takes an invoice away, so after a run a
client has an invoice for a month exactly if it had one before or some generation of the run billed it
(`billed_run_iff`). The scheduled cycle bills a month only on the invoice day of the month after, which a short month
may not have: `billed_once_iff`.
-/

namespace LlmStore.Calendar

/-- The date lies in the month after that of `m`. -/
def Date.Follows (d m : Date) : Prop :=
  if m.month = 12 then d.year = m.year + 1 ∧ d.month = 1 else d.year = m.year ∧ d.month = m.month + 1

instance (d m : Date) : Decidable (d.Follows m) := by unfold Date.Follows; infer_instance

end LlmStore.Calendar

namespace LlmStore.Billing

open LlmStore.Calendar LlmStore.Lib LlmStore.Usage

/-! ## Invoices of a month -/

/-- The client has an invoice for the month of `m`. -/
def Billed (db : Database) (c : ClientId) (m : Date) : Prop :=
  (c, monthWindow m) ∈ db.invoices.map BillingInvoice.periodKey

instance (db : Database) (c : ClientId) (m : Date) : Decidable (Billed db c m) := by unfold Billed; infer_instance

/-- The client has exactly one invoice for the month of `m`. -/
def BilledOnce (db : Database) (c : ClientId) (m : Date) : Prop :=
  (invoicesOf db c).countP (fun inv => inv.periodStart = m.firstDay ∧ inv.periodEnd = m.lastDay) = 1

instance (db : Database) (c : ClientId) (m : Date) : Decidable (BilledOnce db c m) := by
  unfold BilledOnce; infer_instance

theorem billedOnce_iff {db : Database} (h : UniquePeriods db) {c : ClientId} {m : Date} :
    BilledOnce db c m ↔ Billed db c m := by
  have hcount : (invoicesOf db c).countP (fun inv => inv.periodStart = m.firstDay ∧ inv.periodEnd = m.lastDay) =
      (db.invoices.map BillingInvoice.periodKey).count (c, monthWindow m) := by
    rw [List.count, List.countP_map, invoicesOf, List.countP_filter]
    refine List.countP_congr fun inv _ => ?_
    simp [BillingInvoice.periodKey, monthWindow, Prod.ext_iff, and_comm]
  rw [BilledOnce, Billed, hcount, ← List.count_pos_iff]
  have hle := List.nodup_iff_count_le_one.mp h (c, monthWindow m)
  omega

/-- A month is known by its window. -/
theorem monthWindow_eq_iff {a b : Date} : monthWindow a = monthWindow b ↔ a.year = b.year ∧ a.month = b.month := by
  simp only [monthWindow, Date.firstDay, Date.lastDay, Prod.mk.injEq, Date.mk.injEq]
  constructor
  · rintro ⟨⟨hy, hm, -⟩, -⟩
    exact ⟨hy, hm⟩
  · rintro ⟨hy, hm⟩
    rw [hy, hm]
    exact ⟨⟨rfl, rfl, trivial⟩, rfl, rfl, rfl⟩

/-- On a day the month before is billed. -/
theorem window_previousMonth_iff {d m : Date} (hm : 0 < m.year) :
    monthWindow (previousMonthDate d) = monthWindow m ↔ d.Follows m := by
  have := m.month_pos
  have := d.month_pos
  have := d.month_le
  rw [monthWindow_eq_iff]
  unfold previousMonthDate Date.previousMonthLastDay Date.Follows
  split_ifs <;> simp only <;> omega

/-- The day of the month after that of `m`, if there is one. -/
def HasDay (invoiceDay : ℤ) (m : Date) : Prop := ∃ d : Date, d.Follows m ∧ (d.day : ℤ) = invoiceDay

/-! ## What a generation bills -/

/-- The months for which clients have invoices, with the clients. -/
def periodKeys (db : Database) : List (ClientId × Date × Date) := db.invoices.map BillingInvoice.periodKey

section Keys

variable {db : Database}

theorem periodKeys_setInvoice {i : InvoiceId} {f : BillingInvoice → BillingInvoice}
    (hf : ∀ inv, db.invoices[i]? = some inv → (f inv).periodKey = inv.periodKey) :
    periodKeys (db.setInvoice i f) = periodKeys db := by
  refine List.ext_getElem? fun j => ?_
  simp only [periodKeys, Database.setInvoice, List.getElem?_map]
  by_cases hij : i = j
  · subst hij
    rw [List.getElem?_modify_eq]
    cases hi : db.invoices[i]? with
    | none => rfl
    | some inv => exact congrArg some (hf inv hi)
  · rw [List.getElem?_modify_ne f _ hij]

theorem periodKeys_letFallDue (now : Instant) (db : Database) : periodKeys (letFallDue now db) = periodKeys db := by
  simp only [periodKeys, letFallDue, List.map_map]
  refine List.map_congr_left fun inv _ => ?_
  simp only [Function.comp_apply]
  split_ifs <;> rfl

/-- The loop body for client `c` sees to it that the month is billed. -/
theorem mem_periodKeys_generateInvoice (g : Generation) (db : Database) (c : ClientId) (k : ClientId × Date × Date) :
    k ∈ periodKeys (generateInvoice g db c) ↔
      k ∈ periodKeys db ∨ c < db.clients.length ∧ k = (c, monthWindow g.periodReference) := by
  have hkey : ∀ inv, g.bills c inv = true → inv.periodKey = (c, monthWindow g.periodReference) :=
    fun inv hb => Generation.bills_iff.mp hb
  rcases generateInvoice_writes g db c with ⟨he, hex⟩ | ⟨plan, used, -, hlt, -, he⟩ | ⟨i, inv, plan, used, -, hi, hb, -, he⟩
  · rw [he]
    refine ⟨.inl, fun h => h.elim id ?_⟩
    rintro ⟨hlt, rfl⟩
    obtain ⟨inv, hinv, hb, -⟩ := hex hlt
    exact List.mem_map.mpr ⟨inv, hinv, hkey inv hb⟩
  · rw [he]
    simp only [periodKeys, List.map_append, List.map_singleton, List.mem_append, List.mem_singleton]
    rw [hkey _ (drawn_data g c plan used).bills, and_iff_right hlt]
  · have hsame : periodKeys (generateInvoice g db c) = periodKeys db := by
      rw [he, periodKeys, Database.setOpenPayment_invoices]
      refine periodKeys_setInvoice fun inv' hi' => ?_
      rw [hkey _ (drawn_data g c plan used).bills, ← Option.some.inj (hi.symm.trans hi'), hkey _ hb]
    rw [hsame]
    refine ⟨.inl, fun h => h.elim id ?_⟩
    rintro ⟨-, rfl⟩
    exact List.mem_map.mpr ⟨inv, List.mem_of_getElem? hi, hkey inv hb⟩

theorem mem_periodKeys_foldl (g : Generation) (k : ClientId × Date × Date) : ∀ (cs : List ClientId) (db : Database),
    (k ∈ periodKeys (cs.foldl (generateInvoice g) db) ↔
      k ∈ periodKeys db ∨ k.1 ∈ cs ∧ k.1 < db.clients.length ∧ k.2 = monthWindow g.periodReference)
  | [], db => by simp
  | c :: cs, db => by
    rw [List.foldl_cons, mem_periodKeys_foldl g k cs, mem_periodKeys_generateInvoice, generateInvoice_clients,
      List.mem_cons, Prod.ext_iff]
    constructor
    · rintro ((h | ⟨hlt, rfl, hw⟩) | ⟨hmem, h⟩)
      · exact .inl h
      · exact .inr ⟨.inl rfl, hlt, hw⟩
      · exact .inr ⟨.inr hmem, h⟩
    · rintro (h | ⟨rfl | hmem, hlt, hw⟩)
      · exact .inl (.inl h)
      · exact .inl (.inr ⟨hlt, rfl, hw⟩)
      · exact .inr ⟨hmem, hlt, hw⟩

/-- A generation bills the month before its day, for the clients that it covers. -/
theorem mem_periodKeys_generate {g : Generation} {k : ClientId × Date × Date} :
    k ∈ periodKeys (generateMonthlyInvoices g db) ↔
      k ∈ periodKeys db ∨
        g.runs = true ∧ g.covers k.1 = true ∧ k.1 < db.clients.length ∧ k.2 = monthWindow g.periodReference := by
  unfold generateMonthlyInvoices
  split_ifs with hrun
  · have hrefresh : ∀ now days db, periodKeys (refreshBillingStatuses now days db) = periodKeys db :=
      fun now days db => periodKeys_letFallDue now db
    rw [hrefresh, mem_periodKeys_foldl, mem_snapshotClients]
    constructor
    · rintro (h | ⟨⟨hlt, hcov⟩, -, hw⟩)
      · exact .inl h
      · exact .inr ⟨hrun, hcov, hlt, hw⟩
    · rintro (h | ⟨-, hcov, hlt, hw⟩)
      · exact .inl h
      · exact .inr ⟨⟨hlt, hcov⟩, hlt, hw⟩
  · simp [hrun]

/-- Other writes take no invoice away and add none. -/
theorem Write.periodKeys {op : Operation} {w : Database} (h : Write db op w) :
    Billing.periodKeys w = Billing.periodKeys db ∨
      ∃ g days, op.generation = some g ∧
        w = generateMonthlyInvoices { g with suspendAfterDays := days } db := by
  cases h with
  | @generated _ g hg hc days => exact .inr ⟨g, days, hg, rfl⟩
  | markedOverdue hi hs => exact .inl (periodKeys_setInvoice fun _ _ => rfl)
  | markedPaid hi hs paidAt hpay hnew =>
    refine .inl ((congrArg (List.map _) (Database.setOpenPayment_invoices _ _ _ _)).trans ?_)
    exact periodKeys_setInvoice fun _ _ => rfl
  | cancelled hi hs => exact .inl (periodKeys_setInvoice fun _ _ => rfl)
  | invoiceSettled hi hpaid hs => exact .inl (periodKeys_setInvoice fun _ _ => rfl)
  | webhookPaid hid hstatus hi hs =>
    refine .inl ((congrArg (List.map _) (Database.setOpenPayment_invoices _ _ _ _)).trans ?_)
    exact periodKeys_setInvoice fun _ _ => rfl
  | _ => exact .inl rfl

end Keys

/-! ## Runs -/

/-- The operation bills the client for the month of `m`. -/
def Operation.Bills (op : Operation) (c : ClientId) (m : Date) : Prop :=
  ∃ g, op.generation = some g ∧ g.runs = true ∧ g.covers c = true ∧ g.referenceDatetime.date.Follows m

theorem swept_uniquePeriods : Swept fun a b => UniquePeriods a → UniquePeriods b where
  refl _ h := h
  trans _ _ _ h h' ha := h' (h ha)
  clients _ _ _ h := h
  letFallDue now _ h := uniquePeriods_letFallDue now h
  generateInvoice g _ c h := uniquePeriods_generateInvoice g c h

theorem swept_clients : Swept fun a b => a.clients.length ≤ b.clients.length where
  refl _ := le_rfl
  trans _ _ _ := le_trans
  clients _ _ h := h
  letFallDue _ _ := le_rfl
  generateInvoice g db c := (congrArg List.length (generateInvoice_clients g db c)).ge

section Runs

variable (suspendAfterDays : ℤ) {db : Database}

theorem uniquePeriods_after (op : Operation) (h : UniquePeriods db) :
    UniquePeriods (after (commits suspendAfterDays) db op) := by
  have hkept : (db :: commits suspendAfterDays db op).Pairwise fun a b => UniquePeriods a → UniquePeriods b := by
    refine swept_uniquePeriods.commits suspendAfterDays fun w hw hdb => ?_
    rcases hw.periodKeys with hsame | ⟨g, days, -, rfl⟩
    · have hnodup : (periodKeys w).Nodup := by
        rw [hsame]
        exact hdb
      exact hnodup
    · exact swept_uniquePeriods.generate _ _ hdb
  exact after_inv h fun t ht => (List.pairwise_cons.mp hkept).1 t ht h

/-- Clients are never taken away. -/
theorem clients_after (db : Database) (op : Operation) :
    db.clients.length ≤ (after (commits suspendAfterDays) db op).clients.length := by
  have hkept : (db :: commits suspendAfterDays db op).Pairwise fun a b => a.clients.length ≤ b.clients.length := by
    refine swept_clients.commits suspendAfterDays fun w hw => ?_
    cases hw with
    | generated hg hc days => exact swept_clients.generate _ _
    | clients cs hcs => exact hcs
    | markedPaid hi hs paidAt hpay hnew cs hcs => exact hcs
    | invoiceSettled hi hpaid hs hp hps cs hcs => exact hcs
    | webhookPaid => simp
    | _ => exact le_rfl
  exact after_inv (I := fun t : Database => db.clients.length ≤ t.clients.length) le_rfl (List.pairwise_cons.mp hkept).1

/-- After an operation the invoices are those of before, or those after its generation. -/
theorem periodKeys_after (db : Database) (op : Operation) :
    periodKeys (after (commits suspendAfterDays) db op) = periodKeys db ∨
      ∃ g days, op.generation = some g ∧
        periodKeys (after (commits suspendAfterDays) db op) =
          periodKeys (generateMonthlyInvoices { g with suspendAfterDays := days } db) := by
  have hrefresh : ∀ now days db, periodKeys (refreshBillingStatuses now days db) = periodKeys db :=
    fun now days db => periodKeys_letFallDue now db
  rcases commits_cases suspendAfterDays db op with he | ⟨w, hw, hcommits⟩
  · rw [after, he]
    exact .inl rfl
  · have hlast : periodKeys (after (commits suspendAfterDays) db op) = periodKeys w := by
      unfold after
      generalize commits suspendAfterDays db op = dbs at hcommits
      cases hcommits with
      | write => rfl
      | refresh later => exact hrefresh _ _ _
      | both later => exact hrefresh _ _ _
    rw [hlast]
    rcases hw.periodKeys with hsame | ⟨g, days, hg, rfl⟩
    · exact .inl hsame
    · exact .inr ⟨g, days, hg, rfl⟩

/-- A generation that is not refused runs. -/
theorem periodKeys_generation {op : Operation} {g : Generation} (hg : op.generation = some g)
    (hc : g.clientId.all (· < db.clients.length) = true) :
    periodKeys (after (commits suspendAfterDays) db op) =
      periodKeys (generateMonthlyInvoices { g with suspendAfterDays } db) := by
  cases op with
  | generateInvoices g' =>
    obtain rfl := Option.some.inj hg
    have hc' : g'.clientId.all (· < db.clients.length) = true := hc
    simp [after, commits, generateInvoices, hc', committed]
  | runBillingCycle g' later =>
    obtain rfl := Option.some.inj hg
    exact periodKeys_letFallDue _ _
  | runBillingCycleOnce g' later =>
    obtain rfl := Option.some.inj hg
    exact periodKeys_letFallDue _ _
  | _ => cases hg

/-- A client has an invoice for a month after an operation if it had one before or the operation bills it. -/
theorem billed_after_iff {c : ClientId} (hc : c < db.clients.length) {m : Date} (hm : 0 < m.year) (op : Operation) :
    Billed (after (commits suspendAfterDays) db op) c m ↔ Billed db c m ∨ op.Bills c m := by
  show (c, monthWindow m) ∈ periodKeys _ ↔ (c, monthWindow m) ∈ periodKeys db ∨ _
  constructor
  · intro h
    rcases periodKeys_after suspendAfterDays db op with hsame | ⟨g, days, hg, hgen⟩
    · rw [hsame] at h
      exact .inl h
    · rw [hgen, mem_periodKeys_generate] at h
      rcases h with h | ⟨hrun, hcov, -, hw⟩
      · exact .inl h
      · exact .inr ⟨g, hg, hrun, hcov, (window_previousMonth_iff hm).mp hw.symm⟩
  · rintro (h | ⟨g, hg, hrun, hcov, hd⟩)
    · rcases periodKeys_after suspendAfterDays db op with hsame | ⟨g, days, -, hgen⟩
      · rwa [hsame]
      · rw [hgen, mem_periodKeys_generate]
        exact .inl h
    · have hall : g.clientId.all (· < db.clients.length) = true := by
        unfold Generation.covers at hcov
        cases hcl : g.clientId with
        | none => rfl
        | some c' =>
          rw [hcl] at hcov
          simpa [(by simpa using hcov : c' = c)] using hc
      rw [periodKeys_generation suspendAfterDays hg hall, mem_periodKeys_generate]
      exact .inr ⟨hrun, hcov, hc, ((window_previousMonth_iff hm).mpr hd).symm⟩

/-- **What a run bills**: a client has an invoice for a month at the end of a run if it had one before or an operation
of the run bills it. -/
theorem billed_run_iff {c : ClientId} {m : Date} (hm : 0 < m.year) {ops : List Operation} {db s : Database}
    (h : run (step suspendAfterDays) db ops = some s) (hc : c < db.clients.length) :
    Billed s c m ↔ Billed db c m ∨ ∃ op ∈ ops, op.Bills c m := by
  induction ops generalizing db with
  | nil =>
    cases h
    simp
  | cons op ops ih =>
    obtain ⟨t, ht, h⟩ := run_cons_iff.mp h
    obtain rfl : after (commits suspendAfterDays) db op = t := Option.some.inj ht
    rw [ih h (hc.trans_le (clients_after suspendAfterDays db op)),
      billed_after_iff suspendAfterDays hc hm op, or_assoc]
    simp only [List.mem_cons, exists_eq_or_imp]

theorem uniquePeriods_run {ops : List Operation} {s : Database} (h : UniquePeriods db)
    (hs : run (step suspendAfterDays) db ops = some s) : UniquePeriods s :=
  run_inv (fun _ op _ ht hstep => Option.some.inj hstep ▸ uniquePeriods_after suspendAfterDays op ht) h hs

end Runs

/-! ## The scheduled cycle -/

/-- On every day from `first` to `last` the scheduled cycle runs at least once, and wherever the cycle runs its invoice
day is the configured one. -/
structure RunsDaily (invoiceDay : ℤ) (first last : Date) (ops : List Operation) : Prop where
  daily : ∀ d : Date, first ≤ d → d ≤ last →
    ∃ g later, .runBillingCycleOnce g later ∈ ops ∧ g.referenceDatetime.date = d
  configured : ∀ op ∈ ops, ∀ g, op.generation = some g → g.force = false → g.invoiceDay = invoiceDay

/-- The month after that of `m` lies entirely in the span. -/
def InSpan (first last m : Date) : Prop := ∀ d : Date, d.Follows m → first ≤ d ∧ d ≤ last

/-- An administrator generates invoices for the client in the month after that of `m`. -/
def GeneratedFor (ops : List Operation) (c : ClientId) (m : Date) : Prop :=
  ∃ g, .generateInvoices g ∈ ops ∧ g.covers c = true ∧ g.referenceDatetime.date.Follows m

section Daily

variable {invoiceDay : ℤ} {first last : Date} {ops : List Operation}

/-- What daily cycles bill: the months whose following month has the invoice day. -/
theorem RunsDaily.bills_iff (h : RunsDaily invoiceDay first last ops) {c : ClientId} {m : Date}
    (hspan : InSpan first last m) :
    (∃ op ∈ ops, op.Bills c m) ↔ HasDay invoiceDay m ∨ GeneratedFor ops c m := by
  constructor
  · rintro ⟨op, hop, g, hg, hrun, hcov, hd⟩
    cases hforce : g.force with
    | false =>
      have hday : (g.referenceDatetime.date.day : ℤ) = g.invoiceDay := by
        simpa [Generation.runs, hforce, shouldGenerateMonthlyInvoices] using hrun
      exact .inl ⟨g.referenceDatetime.date, hd, hday.trans (h.configured op hop g hg hforce)⟩
    | true =>
      cases op with
      | generateInvoices g' =>
        obtain rfl := Option.some.inj hg
        exact .inr ⟨g', hop, hcov, hd⟩
      | runBillingCycle g' later =>
        obtain rfl := Option.some.inj hg
        cases hforce
      | runBillingCycleOnce g' later =>
        obtain rfl := Option.some.inj hg
        cases hforce
      | _ => cases hg
  · rintro (⟨d, hd, hday⟩ | ⟨g, hop, hcov, hd⟩)
    · obtain ⟨hfirst, hlast⟩ := hspan d hd
      obtain ⟨g, later, hop, rfl⟩ := h.daily d hfirst hlast
      refine ⟨_, hop, _, rfl, ?_, rfl, hd⟩
      have hinvoice := h.configured _ hop _ rfl rfl
      simp only at hinvoice
      simp [Generation.runs, shouldGenerateMonthlyInvoices, hday, hinvoice]
    · exact ⟨_, hop, _, rfl, rfl, hcov, hd⟩

/-- **Which months are billed by daily cycles**: at the end of a run that has the scheduled cycle on every day of a
span every client of its beginning has exactly one invoice for every month whose following month lies in the span, just
if each of these following months has the invoice day, unless the client had the invoice already or an administrator
generated it. -/
theorem billed_once_iff (suspendAfterDays : ℤ) (db : Database) (hunique : UniquePeriods db)
    (hdaily : RunsDaily invoiceDay first last ops) (s : Database) (hs : run (step suspendAfterDays) db ops = some s) :
    (∀ c < db.clients.length, ∀ m : Date, 0 < m.year → InSpan first last m → BilledOnce s c m) ↔
      ∀ c < db.clients.length, ∀ m : Date, 0 < m.year → InSpan first last m →
        HasDay invoiceDay m ∨ Billed db c m ∨ GeneratedFor ops c m := by
  have huniqueS := uniquePeriods_run suspendAfterDays hunique hs
  have hiff : ∀ c < db.clients.length, ∀ m : Date, 0 < m.year → InSpan first last m →
      (BilledOnce s c m ↔ HasDay invoiceDay m ∨ Billed db c m ∨ GeneratedFor ops c m) := by
    intro c hc m hm hspan
    rw [billedOnce_iff huniqueS, billed_run_iff suspendAfterDays hm hs hc, hdaily.bills_iff hspan]
    tauto
  constructor
  · intro h c hc m hm hspan
    exact (hiff c hc m hm hspan).mp (h c hc m hm hspan)
  · intro h c hc m hm hspan
    exact (hiff c hc m hm hspan).mpr (h c hc m hm hspan)

end Daily

/-! ## February -/

/-- A database with one client. -/
def oneClient : Database :=
  { emptyDatabase with clients := [{ billingStatus := .active, billingPlan := none, monthlyTokenQuota := 1000 }] }

/-- The scheduled cycle at midnight of a day, due in seven days. -/
def cycleOn (invoiceDay : ℤ) (d : Date) : Operation :=
  .runBillingCycleOnce
    { referenceDatetime := ⟨d, 0⟩, invoiceDay, dueInDays := 7, suspendAfterDays := 15, paymentMethod := "manual_pix",
      paymentInstructions := some "billing-cycle", force := false, clientId := none } 0

/-- A day of February 2026. -/
def february (i : Fin 28) : Date where
  year := 2026
  month := 2
  day := i + 1
  day_pos := by omega
  day_le := by
    have hfebruary : daysInMonth 2026 2 = 28 := by decide
    omega

/-- The cycle on every day of February 2026. -/
def februaryCycles (invoiceDay : ℤ) : List Operation := (List.finRange 28).map fun i => cycleOn invoiceDay (february i)

/-- A day of January 2026. -/
def january : Date := (february 0).previousMonthLastDay.firstDay

theorem eq_february : ∀ {d : Date}, d.year = 2026 → d.month = 2 → ∃ i, february i = d
  | ⟨_, _, day, _, _, hpos, hle⟩, rfl, rfl => by
    have hfebruary : daysInMonth 2026 2 = 28 := by decide
    refine ⟨⟨day - 1, by omega⟩, ?_⟩
    simp only [february, Nat.sub_add_cancel hpos]

theorem runsDaily_february (invoiceDay : ℤ) :
    RunsDaily invoiceDay (february 0) (february 27) (februaryCycles invoiceDay) where
  daily d hfirst hlast := by
    have hmonth : d.year = 2026 ∧ d.month = 2 := by
      simp only [Date.le_iff, february] at hfirst hlast
      omega
    obtain ⟨i, rfl⟩ := eq_february hmonth.1 hmonth.2
    exact ⟨_, 0, List.mem_map.mpr ⟨i, List.mem_finRange i, rfl⟩, rfl⟩
  configured op hop g hg _ := by
    obtain ⟨i, -, rfl⟩ := List.mem_map.mp hop
    cases hg
    rfl

/-- With invoice day 1 the client has its invoice for January at the end of February. -/
theorem billed_once_iff_february :
    (∀ c < oneClient.clients.length, ∀ m : Date, 0 < m.year → InSpan (february 0) (february 27) m →
        BilledOnce ((run (step 15) oneClient (februaryCycles 1)).getD oneClient) c m) ↔
      ∀ c < oneClient.clients.length, ∀ m : Date, 0 < m.year → InSpan (february 0) (february 27) m →
        HasDay 1 m ∨ Billed oneClient c m ∨ GeneratedFor (februaryCycles 1) c m :=
  billed_once_iff 15 oneClient List.nodup_nil (runsDaily_february 1) _ rfl

/-- **January is left unbilled** when the invoice day is the 31st: the cycle runs on every day of February and bills
nothing. -/
theorem january_unbilled : RunsDaily 31 (february 0) (february 27) (februaryCycles 31) ∧
    InSpan (february 0) (february 27) january ∧
      ∃ s, run (step 15) oneClient (februaryCycles 31) = some s ∧ ¬ BilledOnce s 0 january := by
  refine ⟨runsDaily_february 31, fun d hd => ?_, _, rfl, ?_⟩
  · obtain ⟨i, rfl⟩ := eq_february hd.1 hd.2
    exact ⟨.inr ⟨rfl, .inr ⟨rfl, Nat.succ_le_succ (Nat.zero_le _)⟩⟩, .inr ⟨rfl, .inr ⟨rfl, Nat.succ_le_of_lt i.isLt⟩⟩⟩
  · decide +kernel

end LlmStore.Billing
