import LlmStore.Billing.Periods

/-!
# Clients that are new

The scheduled cycle bills the month before its day to every client that is there, newest first, and does not read since
when it is there: `created_at` sorts the clients and does nothing else. So a client is billed for a month that ends
before it was created exactly if it was created in the month of the cycle or later and has no invoice for that month
yet (`billed_before_created_iff`). `created_at` is given from outside, as `createdAt`.
-/

namespace LlmStore.Calendar

/-- An earlier day. -/
def Date.Before (a b : Date) : Prop :=
  a.year < b.year ∨ a.year = b.year ∧ (a.month < b.month ∨ a.month = b.month ∧ a.day < b.day)

instance (a b : Date) : Decidable (a.Before b) := by unfold Date.Before; infer_instance

theorem Date.before_iff_not_le {a b : Date} : a.Before b ↔ ¬ b ≤ a := by
  rw [Date.Before, Date.le_iff]
  omega

/-- A day after the end of a month is on or after the first day of the next one. -/
theorem Date.lastDay_before_iff {d m : Date} (h : d.Follows m) (e : Date) : m.lastDay.Before e ↔ d.firstDay ≤ e := by
  have hlast : ¬ d.firstDay ≤ m.lastDay := by
    have hle := m.month_le
    unfold Date.Follows at h
    simp only [Date.le_iff, Date.firstDay, Date.lastDay]
    split_ifs at h <;> omega
  rw [Date.before_iff_not_le]
  constructor
  · exact fun hnot => (Date.le_lastDay_or_firstDay_le h e).resolve_left hnot
  · exact fun hfirst hlate => hlast (Date.le_trans hfirst hlate)

end LlmStore.Calendar

namespace LlmStore.Billing

open LlmStore.Calendar LlmStore.Lib LlmStore.Usage

/-! ## The scheduled cycle -/

section Cycle

variable (createdAt : ClientId → Datetime) (suspendAfterDays : ℤ)

/-- The clients of `list_client_billing_snapshots`, in the order of `created_at`, newest first. -/
def listClientBillingSnapshots (g : Generation) (db : Database) : List ClientId :=
  (snapshotClients g db).mergeSort fun a b => (createdAt b).instant ≤ (createdAt a).instant

/-- `generate_monthly_invoices`, through the clients in that order. -/
def generateMonthlyInvoicesInOrder (g : Generation) (db : Database) : Database :=
  if g.runs then
    refreshBillingStatuses g.currentTime g.suspendAfterDays
      ((listClientBillingSnapshots createdAt g db).foldl (generateInvoice g) db)
  else db

/-- The call of `run_billing_cycle_once`. -/
def Generation.scheduled (g : Generation) : Generation := { g with force := false, clientId := none, suspendAfterDays }

/-- What `run_billing_cycle_once` commits; a call that raises leaves everything as it is. -/
def scheduledCycle (g : Generation) (later : Instant) (db : Database) : Database :=
  let g := g.scheduled suspendAfterDays
  if g.raises then db
  else refreshBillingStatuses later suspendAfterDays (generateMonthlyInvoicesInOrder createdAt g db)

end Cycle

section Rows

variable {createdAt : ClientId → Datetime} {suspendAfterDays : ℤ} {g : Generation} {later : Instant} {db : Database}
  {c : ClientId}

theorem mem_listClientBillingSnapshots :
    c ∈ listClientBillingSnapshots createdAt g db ↔ c ∈ snapshotClients g db :=
  List.mem_mergeSort

/-- The order of the clients has no influence on what is billed. -/
theorem mem_periodKeys_generateInOrder {k : ClientId × Date × Date} :
    k ∈ periodKeys (generateMonthlyInvoicesInOrder createdAt g db) ↔ k ∈ periodKeys (generateMonthlyInvoices g db) := by
  unfold generateMonthlyInvoicesInOrder generateMonthlyInvoices
  split_ifs
  · have hrefresh : ∀ now days db, periodKeys (refreshBillingStatuses now days db) = periodKeys db :=
      fun now days db => periodKeys_letFallDue now db
    rw [hrefresh, hrefresh, mem_periodKeys_foldl, mem_periodKeys_foldl, mem_listClientBillingSnapshots]
  · rfl

/-- The cycle bills the months that the one with the clients in the order of their rows bills. -/
theorem billed_scheduledCycle_iff (hraises : (g.scheduled suspendAfterDays).raises = false) {m : Date} :
    Billed (scheduledCycle createdAt suspendAfterDays g later db) c m ↔
      ∃ t ∈ runBillingCycleOnce suspendAfterDays g later db, Billed t c m := by
  have hrefresh : ∀ now days db, periodKeys (refreshBillingStatuses now days db) = periodKeys db :=
    fun now days db => periodKeys_letFallDue now db
  simp only [runBillingCycleOnce, List.mem_singleton, exists_eq_left]
  unfold scheduledCycle
  rw [if_neg (by simp [hraises])]
  show _ ∈ periodKeys _ ↔ _ ∈ periodKeys _
  rw [hrefresh, hrefresh, mem_periodKeys_generateInOrder]
  rfl

theorem runs_scheduled :
    (g.scheduled suspendAfterDays).runs = shouldGenerateMonthlyInvoices g.referenceDatetime.date g.invoiceDay := by
  simp [Generation.runs, Generation.scheduled]

/-- The clients that the cycle adds an invoice for. -/
structure NewlyBilled (suspendAfterDays : ℤ) (g : Generation) (db : Database) (c : ClientId) : Prop where
  returns : (g.scheduled suspendAfterDays).raises = false
  invoiceDay : shouldGenerateMonthlyInvoices g.referenceDatetime.date g.invoiceDay = true
  client : c < db.clients.length
  fresh : ¬ Billed db c g.periodReference

/-- The cycle keeps the months of the invoices in their places and adds its own month for clients that have no invoice
for it. -/
theorem periodKeys_scheduledCycle (createdAt : ClientId → Datetime) (suspendAfterDays : ℤ) (g : Generation)
    (later : Instant) (db : Database) :
    ∃ new : List ClientId, (∀ c, c ∈ new ↔ NewlyBilled suspendAfterDays g db c) ∧
      periodKeys (scheduledCycle createdAt suspendAfterDays g later db) =
        periodKeys db ++ new.map (·, monthWindow g.periodReference) := by
  have hrefresh : ∀ now days db, periodKeys (refreshBillingStatuses now days db) = periodKeys db :=
    fun now days db => periodKeys_letFallDue now db
  unfold scheduledCycle generateMonthlyInvoicesInOrder
  by_cases hraises : (g.scheduled suspendAfterDays).raises = true
  · refine ⟨[], fun c => ⟨fun hc => absurd hc List.not_mem_nil, fun h => ?_⟩, by simp [hraises]⟩
    rw [h.returns] at hraises
    cases hraises
  rw [if_neg hraises, hrefresh, runs_scheduled]
  by_cases hday : shouldGenerateMonthlyInvoices g.referenceDatetime.date g.invoiceDay = true
  · rw [if_pos hday, hrefresh]
    let g' := g.scheduled suspendAfterDays
    let clients := listClientBillingSnapshots createdAt g' db
    have hclients : ∀ c, c ∈ clients ↔ c < db.clients.length := fun c => by
      rw [mem_listClientBillingSnapshots, mem_snapshotClients]
      simp [g', Generation.scheduled, Generation.covers]
    obtain ⟨new, hnew, hkeys⟩ := periodKeys_foldl g' clients db
    refine ⟨new, fun c => ⟨fun hc => ?_, fun h => ?_⟩, hkeys⟩
    · obtain ⟨hmem, hfresh⟩ := hnew c hc
      exact ⟨by simpa using hraises, hday, (hclients c).mp hmem, hfresh⟩
    · have hbilled : (c, monthWindow g.periodReference) ∈ periodKeys (clients.foldl (generateInvoice g') db) :=
        (mem_periodKeys_foldl g' _ clients db).mpr (.inr ⟨(hclients c).mpr h.client, h.client, rfl⟩)
      rw [hkeys, List.mem_append] at hbilled
      obtain ⟨c', hc', hpair⟩ := List.mem_map.mp (hbilled.resolve_left h.fresh)
      obtain rfl : c' = c := congrArg Prod.fst hpair
      exact hc'
  · rw [if_neg hday]
    exact ⟨[], fun c => ⟨fun hc => absurd hc List.not_mem_nil, fun h => absurd h.invoiceDay hday⟩, by simp⟩

/-- The cycle adds an invoice for the client that satisfies `P`. -/
def Adds (db t : Database) (c : ClientId) (P : BillingInvoice → Prop) : Prop :=
  ∃ (i : InvoiceId) (inv : BillingInvoice), db.invoices.length ≤ i ∧ t.invoices[i]? = some inv ∧ inv.clientId = c ∧ P inv

/-- The invoices that the cycle adds are those of the newly billed clients, for its month. -/
theorem adds_iff {P : BillingInvoice → Prop} {Q : Prop}
    (hP : NewlyBilled suspendAfterDays g db c → ∀ inv : BillingInvoice,
      (inv.periodStart, inv.periodEnd) = monthWindow g.periodReference → (P inv ↔ Q)) :
    Adds db (scheduledCycle createdAt suspendAfterDays g later db) c P ↔ NewlyBilled suspendAfterDays g db c ∧ Q := by
  obtain ⟨new, hnew, hkeys⟩ := periodKeys_scheduledCycle createdAt suspendAfterDays g later db
  constructor
  · rintro ⟨i, inv, hle, hi, rfl, hinv⟩
    have hrow := getElem?_periodKeys hi
    rw [hkeys, List.getElem?_append_right (by rwa [length_periodKeys]), List.getElem?_map, Option.map_eq_some_iff]
      at hrow
    obtain ⟨c, hc, hk⟩ := hrow
    have hclient : c = inv.clientId := congrArg Prod.fst hk
    have hwindow : (inv.periodStart, inv.periodEnd) = monthWindow g.periodReference := (congrArg Prod.snd hk).symm
    have hbilled := (hnew _).mp (hclient ▸ List.mem_of_getElem? hc)
    exact ⟨hbilled, (hP hbilled inv hwindow).mp hinv⟩
  · rintro ⟨hbilled, hQ⟩
    obtain ⟨j, hj⟩ := List.mem_iff_getElem?.mp ((hnew c).mpr hbilled)
    have hrow : (periodKeys (scheduledCycle createdAt suspendAfterDays g later db))[db.invoices.length + j]? =
        some (c, monthWindow g.periodReference) := by
      rw [hkeys, ← length_periodKeys, List.getElem?_append_right (Nat.le_add_right _ _), Nat.add_sub_cancel_left,
        List.getElem?_map, hj]
      rfl
    rw [periodKeys, List.getElem?_map, Option.map_eq_some_iff] at hrow
    obtain ⟨inv, hi, hk⟩ := hrow
    exact ⟨_, inv, Nat.le_add_right _ _, hi, congrArg Prod.fst hk, (hP hbilled inv (congrArg Prod.snd hk)).mpr hQ⟩

end Rows

/-- **The scheduled cycle bills a client for a month that ends before it was created** exactly if it was created in the
month of the cycle or later, and the cycle adds an invoice for it at all. -/
theorem billed_before_created_iff (createdAt : ClientId → Datetime) (suspendAfterDays : ℤ) (g : Generation)
    (later : Instant) (db : Database) (c : ClientId) (hyear : 0 < g.referenceDatetime.date.year) :
    Adds db (scheduledCycle createdAt suspendAfterDays g later db) c
        (fun inv => inv.periodEnd.Before (createdAt c).date) ↔
      NewlyBilled suspendAfterDays g db c ∧ g.referenceDatetime.date.firstDay ≤ (createdAt c).date := by
  refine adds_iff fun hbilled inv hwindow => ?_
  have hruns : (g.scheduled suspendAfterDays).runs = true := runs_scheduled.trans hbilled.invoiceDay
  obtain ⟨-, hfollows⟩ :=
    Generation.follows_periodReference (g := g.scheduled suspendAfterDays) hyear hruns hbilled.returns
  have hend : inv.periodEnd = g.periodReference.lastDay := congrArg Prod.snd hwindow
  rw [hend]
  exact Date.lastDay_before_iff hfollows (createdAt c).date

/-- The cycle of 10 March, with a client created on 5 March. -/
theorem billed_before_created_march :
    let createdAt : ClientId → Datetime := fun _ => ⟨dayOf 3 5, 0⟩
    let g : Generation := { generationOn 3 10 with invoiceDay := 10 }
    Adds oneClient (scheduledCycle createdAt 15 g 0 oneClient) 0 fun inv => inv.periodEnd.Before (createdAt 0).date := by
  intro createdAt g
  refine (billed_before_created_iff createdAt 15 g 0 oneClient 0 (by decide)).mpr ⟨?_, ?_⟩
  · exact ⟨by decide, by decide, by decide, by decide⟩
  · rw [Date.le_iff]
    decide

/-- **A client that is created in March, before the invoice day, is billed for February.** -/
theorem february_billed :
    ¬ ∀ (createdAt : ClientId → Datetime) (suspendAfterDays : ℤ) (g : Generation) (later : Instant) (db : Database)
      (c : ClientId), ¬ Adds db (scheduledCycle createdAt suspendAfterDays g later db) c fun inv =>
        inv.periodEnd.Before (createdAt c).date := by
  intro h
  refine h (fun _ => ⟨dayOf 3 5, 0⟩) 15 { generationOn 3 10 with invoiceDay := 10 } 0 oneClient 0 ?_
  refine (adds_iff (Q := True) fun _ inv hwindow => ?_).mpr
    ⟨⟨by decide, by decide, by decide, by decide⟩, trivial⟩
  have hend : inv.periodEnd = dayOf 2 28 := congrArg Prod.snd hwindow
  rw [hend]
  decide

end LlmStore.Billing
