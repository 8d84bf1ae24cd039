import LlmStore.Billing.MonthlyCycle

/-!
# The months of the invoices

`generate_monthly_invoices` called again and again, while other requests change the tables between two calls:

- the calendar: the windows of consecutive months touch (`toOrdinal_firstDay_of_follows`);
- a call keeps the months of the invoices that are there and adds its own month only (`periodKeys_generate`);
- what a call writes is metered by the counter of its month (`metered_generate`);
- all of it along a run: `invoices_tile`.
-/

namespace LlmStore.Calendar

/-! ## Months one after the other -/

/-- A year has 365 days, and one more if it is a leap year. -/
theorem Date.daysBeforeYear_succ {y : ℕ} (hy : 0 < y) :
    Date.daysBeforeYear (y + 1) = Date.daysBeforeYear y + if isLeap y then 366 else 365 := by
  obtain ⟨k, rfl⟩ := Nat.exists_eq_add_of_le' hy
  have hleap : isLeap (k + 1) = true ↔ 4 ∣ k + 1 ∧ (¬ 100 ∣ k + 1 ∨ 400 ∣ k + 1) := by
    simp [isLeap, Nat.dvd_iff_mod_eq_zero]
  have h100 : 100 ∣ k + 1 → 4 ∣ k + 1 := Nat.dvd_trans (by decide)
  have h400 : 400 ∣ k + 1 → 100 ∣ k + 1 := Nat.dvd_trans (by decide)
  have hle : k / 100 ≤ k / 4 := Nat.div_le_div_left (by decide) (by decide)
  simp only [Date.daysBeforeYear, hleap, Nat.add_sub_cancel, Nat.succ_div]
  by_cases h4 : 4 ∣ k + 1
  · by_cases h : 100 ∣ k + 1
    · by_cases h' : 400 ∣ k + 1
      · simp only [h4, h, h', ↓reduceIte]
        simp only [not_true_eq_false, false_or, and_self, ↓reduceIte]
        omega
      · simp only [h4, h, h', ↓reduceIte]
        simp only [not_true_eq_false, false_or, and_false, ↓reduceIte]
        omega
    · simp only [h4, h, mt h400 h, ↓reduceIte]
      simp only [not_false_eq_true, true_or, and_self, ↓reduceIte]
      omega
  · simp only [h4, mt h100 h4, mt h400 (mt h100 h4), ↓reduceIte]
    simp only [false_and, ↓reduceIte]
    omega

/-- The first day of the next month is the day after the last day of the month. -/
theorem Date.toOrdinal_firstDay_of_follows {d m : Date} (hm : 0 < m.year) (h : d.Follows m) :
    d.firstDay.toOrdinal = m.lastDay.toOrdinal + 1 := by
  have hpos := m.month_pos
  have hle := m.month_le
  have hmonth : ∀ y k, 1 ≤ k → Date.daysBeforeMonth y (k + 1) = Date.daysBeforeMonth y k + daysInMonth y k := by
    intro y k hk
    obtain ⟨k, rfl⟩ := Nat.exists_eq_add_of_le' hk
    simp [Date.daysBeforeMonth, List.range_succ]
  have hdecember : ∀ y, Date.daysBeforeMonth y 12 + daysInMonth y 12 = if isLeap y then 366 else 365 := by
    intro y
    cases hy : isLeap y <;> simp [Date.daysBeforeMonth, daysInMonth, List.range_succ, hy]
  unfold Date.Follows at h
  split_ifs at h with hd
  · obtain ⟨hy, hdm⟩ := h
    have h12 := hdecember m.year
    have hnext := Date.daysBeforeYear_succ hm
    simp only [Date.toOrdinal, Date.firstDay, Date.lastDay, hy, hdm, hd]
    have hfirst : Date.daysBeforeMonth (m.year + 1) 1 = 0 := rfl
    omega
  · obtain ⟨hy, hdm⟩ := h
    have hnext := hmonth m.year m.month hpos
    simp only [Date.toOrdinal, Date.firstDay, Date.lastDay, hy, hdm]
    omega

/-- No day lies between the two months. -/
theorem Date.le_lastDay_or_firstDay_le {d m : Date} (h : d.Follows m) (e : Date) : e ≤ m.lastDay ∨ d.firstDay ≤ e := by
  have hday := e.day_le
  have hpos := e.day_pos
  have hmonth := e.month_pos
  have hle := e.month_le
  have hmle := m.month_le
  by_cases hsame : e.year = m.year ∧ e.month = m.month
  · left
    rw [hsame.1, hsame.2] at hday
    exact .inr ⟨hsame.1, .inr ⟨hsame.2, hday⟩⟩
  · unfold Date.Follows at h
    simp only [Date.le_iff, Date.firstDay, Date.lastDay]
    split_ifs at h <;> omega

/-- A day lies in the month of `m` only. -/
theorem Date.mem_window_iff {d m : Date} :
    m.firstDay ≤ d ∧ d ≤ m.lastDay ↔ d.year = m.year ∧ d.month = m.month := by
  have hday := d.day_le
  have hpos := d.day_pos
  simp only [Date.le_iff, Date.firstDay, Date.lastDay]
  constructor
  · rintro ⟨hfirst, hlast⟩
    omega
  · rintro ⟨hy, hm⟩
    rw [hy, hm] at hday
    omega

end LlmStore.Calendar

namespace LlmStore.Billing

open LlmStore.Calendar LlmStore.Lib LlmStore.Usage

/-! ## What a call adds -/

/-- `previous_month_date` leaves the range of dates: a call in January of year 1. -/
def Generation.raises (g : Generation) : Bool :=
  g.runs && (g.referenceDatetime.date.year = 1 && g.referenceDatetime.date.month = 1)

/-- A call that does not raise bills the month before its own. -/
theorem Generation.follows_periodReference {g : Generation} (hyear : 0 < g.referenceDatetime.date.year)
    (hrun : g.runs = true) (hraises : g.raises = false) :
    0 < g.periodReference.year ∧ g.referenceDatetime.date.Follows g.periodReference := by
  have hjanuary : ¬ (g.referenceDatetime.date.year = 1 ∧ g.referenceDatetime.date.month = 1) := by
    simpa [Generation.raises, hrun] using hraises
  have hpos : 0 < g.periodReference.year := by
    unfold Generation.periodReference previousMonthDate Date.previousMonthLastDay
    split_ifs <;> simp only <;> omega
  exact ⟨hpos, (window_previousMonth_iff hpos).mp rfl⟩

section Rows

variable {db : Database} {i j : InvoiceId} {a b : BillingInvoice}

theorem length_periodKeys (db : Database) : (periodKeys db).length = db.invoices.length := List.length_map _

theorem getElem?_periodKeys (hi : db.invoices[i]? = some a) : (periodKeys db)[i]? = some a.periodKey := by
  rw [periodKeys, List.getElem?_map, hi, Option.map_some]

/-- Rows of one client and one month are one row. -/
theorem UniquePeriods.row_eq (h : UniquePeriods db) (hi : db.invoices[i]? = some a) (hj : db.invoices[j]? = some b)
    (hkey : a.periodKey = b.periodKey) : i = j := by
  have hlt : i < (periodKeys db).length := by
    rw [length_periodKeys]
    exact (List.getElem?_eq_some_iff.mp hi).1
  apply (List.getElem?_inj hlt h).mp
  exact (getElem?_periodKeys hi).trans (hkey ▸ (getElem?_periodKeys hj).symm)

end Rows

section Keys

variable (g : Generation)

theorem periodKeys_generateInvoice (db : Database) (c : ClientId) :
    periodKeys (generateInvoice g db c) = periodKeys db ∨
      (c, monthWindow g.periodReference) ∉ periodKeys db ∧
        periodKeys (generateInvoice g db c) = periodKeys db ++ [(c, monthWindow g.periodReference)] := by
  have hkey : ∀ {inv}, g.bills c inv = true ↔ inv.periodKey = (c, monthWindow g.periodReference) := Generation.bills_iff
  rcases generateInvoice_writes g db c with
    ⟨he, -⟩ | ⟨plan, used, -, -, hnone, he⟩ | ⟨i, inv, plan, used, -, hi, hb, -, he⟩
  · exact .inl (congrArg periodKeys he)
  · refine .inr ⟨fun hmem => ?_, ?_⟩
    · obtain ⟨inv, hinv, hk⟩ := List.mem_map.mp hmem
      have hb := hnone inv hinv
      rw [hkey.mpr hk] at hb
      cases hb
    · rw [he, periodKeys, periodKeys, List.map_append, List.map_singleton, hkey.mp (drawn_data g c plan used).bills]
  · left
    rw [he, periodKeys, Database.setOpenPayment_invoices]
    refine periodKeys_setInvoice fun inv' hi' => ?_
    obtain rfl : inv = inv' := Option.some.inj (hi.symm.trans hi')
    rw [hkey.mp (drawn_data g c plan used).bills, hkey.mp hb]

theorem periodKeys_foldl : ∀ (cs : List ClientId) (db : Database), ∃ new : List ClientId,
    (∀ c ∈ new, c ∈ cs ∧ (c, monthWindow g.periodReference) ∉ periodKeys db) ∧
      periodKeys (cs.foldl (generateInvoice g) db) = periodKeys db ++ new.map (·, monthWindow g.periodReference)
  | [], db => ⟨[], by simp⟩
  | c :: cs, db => by
    obtain ⟨new, hnew, hkeys⟩ := periodKeys_foldl cs (generateInvoice g db c)
    rw [List.foldl_cons, hkeys]
    rcases periodKeys_generateInvoice g db c with h | ⟨hnone, h⟩ <;> rw [h] at hnew ⊢
    · exact ⟨new, fun c' hc' => ⟨List.mem_cons_of_mem c (hnew c' hc').1, (hnew c' hc').2⟩, rfl⟩
    · refine ⟨c :: new, List.forall_mem_cons.mpr ⟨⟨List.mem_cons_self, hnone⟩, fun c' hc' => ?_⟩, ?_⟩
      · exact ⟨List.mem_cons_of_mem c (hnew c' hc').1, fun hmem => (hnew c' hc').2 (List.mem_append_left _ hmem)⟩
      · rw [List.append_assoc, List.singleton_append, List.map_cons]

/-- The call draws up an invoice for the client, which had none for the month. -/
structure DrawsUp (db : Database) (c : ClientId) : Prop where
  runs : g.runs = true
  covers : g.covers c = true
  fresh : (c, monthWindow g.periodReference) ∉ periodKeys db

/-- A call keeps the months of the invoices in their places, and the invoices it adds are for its own month. -/
theorem periodKeys_generate (db : Database) : ∃ new : List ClientId, (∀ c ∈ new, DrawsUp g db c) ∧
    periodKeys (generateMonthlyInvoices g db) = periodKeys db ++ new.map (·, monthWindow g.periodReference) := by
  unfold generateMonthlyInvoices
  split_ifs with hrun
  · obtain ⟨new, hnew, hkeys⟩ := periodKeys_foldl g (snapshotClients g db) db
    refine ⟨new, fun c hc => ?_, (periodKeys_letFallDue _ _).trans hkeys⟩
    obtain ⟨hmem, hnone⟩ := hnew c hc
    exact ⟨hrun, (mem_snapshotClients.mp hmem).2, hnone⟩
  · exact ⟨[], fun _ h => absurd h List.not_mem_nil, by simp⟩

end Keys

/-! ## What a call meters -/

/-- The tokens of the client's monthly counter that starts on the day; 0 without one. -/
def counted (usage : UsageTables) (c : ClientId) (start : Date) : ℤ :=
  ((usage.quotaCounters.lookup ⟨c, start, .monthly⟩).map (·.usedTokens)).getD 0

section Metered

variable {g : Generation} {db : Database} {c : ClientId}

theorem generateInvoice_usage (g : Generation) (db : Database) (c : ClientId) :
    (generateInvoice g db c).usage = db.usage := by
  unfold generateInvoice
  split
  · rfl
  · split
    · rfl
    · split_ifs <;> rfl

theorem foldl_usage (g : Generation) : ∀ (cs : List ClientId) (db : Database),
    (cs.foldl (generateInvoice g) db).usage = db.usage
  | [], _ => rfl
  | c :: cs, db => (foldl_usage g cs _).trans (generateInvoice_usage g db c)

/-- The counter that the snapshot reads is the one of the invoice's month. -/
theorem counted_eq {inv : BillingInvoice} (hb : g.bills c inv = true) (usage : UsageTables) :
    monthlyUsedTokens usage c g.periodReference = counted usage inv.clientId inv.periodStart := by
  obtain ⟨hc, hstart, -⟩ : inv.clientId = c ∧ inv.periodStart = _ ∧ inv.periodEnd = _ := by
    simpa [BillingInvoice.periodKey, Prod.ext_iff] using Generation.bills_iff.mp hb
  rw [hc, hstart]
  rfl

/-- The loop body for a client that has no closed invoice for the month leaves it one with the tokens of its
counter. -/
theorem metered_generateInvoice (hunique : UniquePeriods db) (hc : c < db.clients.length)
    (hopen : ∀ inv ∈ db.invoices, g.bills c inv = true → ¬ inv.closed) {inv : BillingInvoice}
    (hinv : inv ∈ (generateInvoice g db c).invoices) (hb : g.bills c inv = true) :
    inv.usedTokens = monthlyUsedTokens db.usage c g.periodReference := by
  rcases generateInvoice_writes g db c with
    ⟨-, hex⟩ | ⟨plan, _, rfl, -, hnone, he⟩ | ⟨i, old, plan, _, rfl, hi, hold, -, he⟩
  · obtain ⟨closed, hmem, hbills, hclosed⟩ := hex hc
    exact absurd hclosed (hopen closed hmem hbills)
  · rw [he] at hinv
    rcases List.mem_append.mp hinv with hmem | hmem
    · rw [hnone inv hmem] at hb
      cases hb
    · rw [List.mem_singleton.mp hmem]
      rfl
  · rw [he, Database.setOpenPayment_invoices] at hinv
    obtain ⟨j, hj⟩ := List.mem_iff_getElem?.mp hinv
    by_cases hij : i = j
    · subst hij
      rw [Database.setInvoice, List.getElem?_modify_eq, hi] at hj
      rw [← Option.some.inj hj]
      rfl
    · rw [Database.setInvoice, List.getElem?_modify_ne _ _ hij] at hj
      -- another row for the month would repeat the key of row `i`
      have hkey : old.periodKey = inv.periodKey := (Generation.bills_iff.mp hold).trans (Generation.bills_iff.mp hb).symm
      exact absurd (hunique.row_eq hi hj hkey) hij

/-- The whole loop leaves a client in the snapshot that has no closed invoice for the month one with the tokens of its
counter. -/
theorem metered_foldl {cs : List ClientId} (hunique : UniquePeriods db) (hnd : cs.Nodup) (hmem : c ∈ cs)
    (hc : c < db.clients.length) (hopen : ∀ inv ∈ db.invoices, g.bills c inv = true → ¬ inv.closed)
    {inv : BillingInvoice} (hinv : inv ∈ (cs.foldl (generateInvoice g) db).invoices) (hb : g.bills c inv = true) :
    inv.usedTokens = monthlyUsedTokens db.usage c g.periodReference := by
  obtain ⟨before, later, rfl⟩ := List.append_of_mem hmem
  have hnd' := List.nodup_append.mp hnd
  have hbefore : c ∉ before := fun h => hnd'.2.2 c h c List.mem_cons_self rfl
  have hlater : c ∉ later := (List.nodup_cons.mp hnd'.2.1).1
  have hown : ∀ {inv}, g.bills c inv = true → inv.clientId = c := Generation.bills_clientId
  rw [List.foldl_append, List.foldl_cons] at hinv
  have hinv := mem_invoicesOf.mpr ⟨hinv, hown hb⟩
  rw [foldl_other g _ hlater] at hinv
  rw [← foldl_usage g before db]
  refine metered_generateInvoice (uniquePeriods_foldl g before hunique) ?_ ?_ (mem_invoicesOf.mp hinv).1 hb
  · rwa [foldl_clients]
  · intro inv' hinv' hb'
    have hsame := mem_invoicesOf.mpr ⟨hinv', hown hb'⟩
    rw [foldl_other g db hbefore] at hsame
    exact hopen inv' (mem_invoicesOf.mp hsame).1 hb'

end Metered

/-! ### Row by row -/

/-- The call writes the invoice in row `i`: it adds it, or finds it open. -/
def Generation.Writes (g : Generation) (db : Database) (i : InvoiceId) : Prop :=
  match db.invoices[i]? with
  | none => True
  | some inv =>
    g.runs = true ∧ inv.clientId ∈ snapshotClients g db ∧ g.bills inv.clientId inv = true ∧ ¬ inv.closed

/-- Every invoice that the call writes has the tokens of its client's counter for its month. -/
def UsageBilled (g : Generation) (db : Database) : Prop :=
  ∀ (i : InvoiceId) (inv : BillingInvoice), (generateMonthlyInvoices g db).invoices[i]? = some inv →
    g.Writes db i → inv.usedTokens = counted db.usage inv.clientId inv.periodStart

section Rows

variable {g : Generation} {db : Database} {i : InvoiceId}

theorem uniquePeriods_generate (g : Generation) (h : UniquePeriods db) : UniquePeriods (generateMonthlyInvoices g db) :=
  swept_uniquePeriods.generate g db h

/-- A row keeps the client and the month of its invoice. -/
theorem periodKey_generate {inv inv' : BillingInvoice} (hi : db.invoices[i]? = some inv)
    (hi' : (generateMonthlyInvoices g db).invoices[i]? = some inv') : inv'.periodKey = inv.periodKey := by
  obtain ⟨new, -, hkeys⟩ := periodKeys_generate g db
  have hlt : i < (periodKeys db).length := by
    rw [length_periodKeys]
    exact (List.getElem?_eq_some_iff.mp hi).1
  have hrow : (periodKeys (generateMonthlyInvoices g db))[i]? = (periodKeys db)[i]? := by
    rw [hkeys, List.getElem?_append_left hlt]
  rw [getElem?_periodKeys hi, getElem?_periodKeys hi'] at hrow
  exact Option.some.inj hrow

/-- An added row is for the month of the call, for which its client had no invoice. -/
theorem added_generate (hle : db.invoices.length ≤ i) {inv : BillingInvoice}
    (hi : (generateMonthlyInvoices g db).invoices[i]? = some inv) :
    DrawsUp g db inv.clientId ∧ inv.periodKey = (inv.clientId, monthWindow g.periodReference) := by
  obtain ⟨new, hnew, hkeys⟩ := periodKeys_generate g db
  have hrow := getElem?_periodKeys hi
  rw [hkeys, List.getElem?_append_right (by rwa [length_periodKeys]), List.getElem?_map, Option.map_eq_some_iff] at hrow
  obtain ⟨c, hc, hk⟩ := hrow
  have hclient : c = inv.clientId := congrArg Prod.fst hk
  rw [← hclient]
  exact ⟨hnew c (List.mem_of_getElem? hc), hk.symm⟩

/-- A written row is the invoice of a client in the snapshot that has no closed one for the month. -/
theorem Generation.Writes.open (h : g.Writes db i) (hunique : UniquePeriods db) {inv : BillingInvoice}
    (hi : (generateMonthlyInvoices g db).invoices[i]? = some inv) :
    g.runs = true ∧ inv.clientId ∈ snapshotClients g db ∧ g.bills inv.clientId inv = true ∧
      ∀ old ∈ db.invoices, g.bills inv.clientId old = true → ¬ old.closed := by
  unfold Generation.Writes at h
  split at h
  · rename_i hnone
    obtain ⟨hdraws, hkey⟩ := added_generate (List.getElem?_eq_none_iff.mp hnone) hi
    have hmem : inv.periodKey ∈ periodKeys (generateMonthlyInvoices g db) :=
      List.mem_map.mpr ⟨inv, List.mem_of_getElem? hi, rfl⟩
    obtain ⟨-, hcov, hlt, -⟩ := (mem_periodKeys_generate.mp hmem).resolve_left fun h => hdraws.fresh (hkey ▸ h)
    refine ⟨hdraws.runs, mem_snapshotClients.mpr ⟨hlt, hcov⟩, Generation.bills_iff.mpr hkey,
      fun old hold hb _ => hdraws.fresh ?_⟩
    rw [← Generation.bills_iff.mp hb]
    exact List.mem_map.mpr ⟨old, hold, rfl⟩
  · rename_i old hold
    obtain ⟨hrun, hsnap, hb, hopen⟩ := h
    have hkey : inv.periodKey = old.periodKey := periodKey_generate hold hi
    have hclient : inv.clientId = old.clientId := congrArg Prod.fst hkey
    rw [hclient]
    refine ⟨hrun, hsnap, Generation.bills_iff.mpr (hkey.trans (Generation.bills_iff.mp hb)), fun old' hold' hb' => ?_⟩
    obtain ⟨j, hj⟩ := List.mem_iff_getElem?.mp hold'
    obtain rfl := hunique.row_eq hj hold ((Generation.bills_iff.mp hb').trans (Generation.bills_iff.mp hb).symm)
    obtain rfl : old' = old := Option.some.inj (hj.symm.trans hold)
    exact hopen

theorem usageBilled (hunique : UniquePeriods db) : UsageBilled g db := by
  intro i inv hi hw
  obtain ⟨hrun, hsnap, hb, hopen⟩ := hw.open hunique hi
  rw [← counted_eq hb]
  rw [generateMonthlyInvoices, if_pos hrun, refreshBillingStatuses] at hi
  obtain ⟨drawn, hdrawn, hfall⟩ : ∃ drawn, drawn ∈ ((snapshotClients g db).foldl (generateInvoice g) db).invoices ∧
      (if drawn.fallsDue g.currentTime then { drawn with status := .overdue } else drawn) = inv :=
    List.mem_map.mp (List.mem_of_getElem? hi)
  have hsame : drawn.usedTokens = inv.usedTokens ∧ drawn.periodKey = inv.periodKey := by
    rw [← hfall]
    split_ifs <;> exact ⟨rfl, rfl⟩
  rw [← hsame.1]
  refine metered_foldl hunique (nodup_snapshotClients g db) hsnap (mem_snapshotClients.mp hsnap).1 hopen hdrawn ?_
  exact Generation.bills_iff.mpr (hsame.2.trans (Generation.bills_iff.mp hb))

end Rows

/-! ## Runs -/

/-- What other requests do between two calls. They write what they like, but they add no invoice, take none away and
leave each its client and its month. -/
structure Interlude where
  change : Database → Database
  keeps : ∀ db, periodKeys (change db) = periodKeys db

/-- The billing operations other than generations are interludes. -/
def Operation.interlude (suspendAfterDays : ℤ) (op : Operation) (h : op.generation = none) : Interlude where
  change db := after (commits suspendAfterDays) db op
  keeps db := by
    rcases periodKeys_after suspendAfterDays db op with hsame | ⟨g, days, hg, -⟩
    · exact hsame
    · rw [h] at hg
      cases hg

inductive Event where
  /-- `generate_monthly_invoices`; `fails` says that it raises before its commit, for a reason of its own. -/
  | call (g : Generation) (fails : Bool)
  | interlude (i : Interlude)

/-- What is committed when the event is over. -/
def callStep (db : Database) : Event → Option Database
  | .call g fails => some (if fails || g.raises then db else generateMonthlyInvoices g db)
  | .interlude i => some (i.change db)

/-- In the run the call `g` adds the invoice in row `i`. -/
def AddedBy (db₀ : Database) (events : List Event) (i : InvoiceId) (g : Generation) : Prop :=
  ∃ before later t t', events = before ++ .call g false :: later ∧ run callStep db₀ before = some t ∧
    callStep t (.call g false) = some t' ∧ t.invoices.length ≤ i ∧ i < t'.invoices.length

/-- The invoice is from the first to the last day of the month before that of the call. -/
def ForMonthBefore (g : Generation) (inv : BillingInvoice) : Prop :=
  ∃ m : Date, g.referenceDatetime.date.Follows m ∧ inv.periodStart = m.firstDay ∧ inv.periodEnd = m.lastDay

/-- A client has at most one invoice in a calendar month. -/
def OneAMonth (db : Database) : Prop :=
  ∀ (i j : InvoiceId) (a b : BillingInvoice), db.invoices[i]? = some a → db.invoices[j]? = some b →
    a.clientId = b.clientId → a.periodStart.year = b.periodStart.year → a.periodStart.month = b.periodStart.month →
      i = j

/-- The windows of consecutive months touch, and no two invoices of a client have a day in common. -/
structure WindowsTile (db : Database) : Prop where
  adjacent : ∀ a ∈ db.invoices, ∀ b ∈ db.invoices, b.periodStart.Follows a.periodStart →
    b.periodStart.toOrdinal = a.periodEnd.toOrdinal + 1 ∧ ∀ d : Date, d ≤ a.periodEnd ∨ b.periodStart ≤ d
  apart : ∀ (i j : InvoiceId) (a b : BillingInvoice), db.invoices[i]? = some a → db.invoices[j]? = some b →
    i ≠ j → a.clientId = b.clientId →
      ∀ d : Date, ¬ ((a.periodStart ≤ d ∧ d ≤ a.periodEnd) ∧ b.periodStart ≤ d ∧ d ≤ b.periodEnd)

/-! ### Steps -/

section Steps

variable {db t : Database} {e : Event}

/-- An event keeps the months of the invoices in their places. -/
theorem periodKeys_step (h : callStep db e = some t) : periodKeys db <+: periodKeys t := by
  cases e with
  | call g fails =>
    obtain rfl := Option.some.inj h
    split_ifs
    · exact List.prefix_rfl
    · obtain ⟨new, -, hkeys⟩ := periodKeys_generate g db
      exact ⟨_, hkeys.symm⟩
  | interlude i =>
    obtain rfl := Option.some.inj h
    rw [i.keeps]

theorem uniquePeriods_step (hunique : UniquePeriods db) (h : callStep db e = some t) : UniquePeriods t := by
  cases e with
  | call g fails =>
    obtain rfl := Option.some.inj h
    split_ifs
    · exact hunique
    · exact uniquePeriods_generate g hunique
  | interlude i =>
    obtain rfl := Option.some.inj h
    have hkeys : (periodKeys (i.change db)).Nodup := by rwa [i.keeps]
    exact hkeys

/-- An event that adds an invoice is a call that neither fails nor raises, and the invoice is for its month. -/
theorem added_step (h : callStep db e = some t) {i : InvoiceId} {inv : BillingInvoice}
    (hle : db.invoices.length ≤ i) (hi : t.invoices[i]? = some inv) :
    ∃ g, e = .call g false ∧ g.runs = true ∧ g.raises = false ∧
      inv.periodKey = (inv.clientId, monthWindow g.periodReference) := by
  have hstays : periodKeys t ≠ periodKeys db := by
    intro hsame
    have hrow := getElem?_periodKeys hi
    rw [hsame, List.getElem?_eq_none (by rwa [length_periodKeys])] at hrow
    cases hrow
  cases e with
  | call g fails =>
    obtain rfl := Option.some.inj h
    split_ifs at hi hstays with hquiet
    · exact absurd rfl hstays
    · obtain ⟨rfl, hraises⟩ : fails = false ∧ g.raises = false := by simpa using hquiet
      obtain ⟨hdraws, hkey⟩ := added_generate hle hi
      exact ⟨g, rfl, hdraws.runs, hraises, hkey⟩
  | interlude i =>
    obtain rfl := Option.some.inj h
    exact absurd (i.keeps db) hstays

end Steps

/-! ### Whole runs -/

section Runs

variable {db₀ s : Database} {events : List Event}

theorem periodKeys_run (h : run callStep db₀ events = some s) : periodKeys db₀ <+: periodKeys s :=
  run_inv (I := fun t => periodKeys db₀ <+: periodKeys t) (fun _ _ _ hi hstep => hi.trans (periodKeys_step hstep))
    List.prefix_rfl h

/-- Every invoice of the end that was not there at the beginning was added by a call. -/
theorem exists_addedBy (h : run callStep db₀ events = some s) {i : InvoiceId} (hle : db₀.invoices.length ≤ i)
    (hlt : i < s.invoices.length) : ∃ g, AddedBy db₀ events i g := by
  induction events generalizing db₀ with
  | nil =>
    cases h
    exact absurd hlt (Nat.not_lt.mpr hle)
  | cons e events ih =>
    obtain ⟨t, ht, h⟩ := run_cons_iff.mp h
    by_cases hi : i < t.invoices.length
    · obtain ⟨g, rfl, -⟩ := added_step ht hle (List.getElem?_eq_getElem hi)
      exact ⟨g, [], events, db₀, t, rfl, rfl, ht, hle, hi⟩
    · obtain ⟨g, before, later, u, u', rfl, hu, hu', hge, hi'⟩ := ih h (Nat.not_lt.mp hi)
      exact ⟨g, e :: before, later, u, u', rfl, run_cons_iff.mpr ⟨t, ht, hu⟩, hu', hge, hi'⟩

/-- An invoice is for the month of the call that added it. -/
theorem AddedBy.month {i : InvoiceId} {g : Generation} (hadded : AddedBy db₀ events i g)
    (h : run callStep db₀ events = some s) {inv : BillingInvoice} (hi : s.invoices[i]? = some inv) :
    .call g false ∈ events ∧ g.runs = true ∧ g.raises = false ∧
      inv.periodKey = (inv.clientId, monthWindow g.periodReference) := by
  obtain ⟨before, later, t, t', rfl, ht, ht', hle, hlt⟩ := hadded
  obtain ⟨_, hu, h⟩ := run_append_iff.mp h
  obtain rfl := Option.some.inj (ht.symm.trans hu)
  obtain ⟨_, hu', h⟩ := run_cons_iff.mp h
  obtain rfl := Option.some.inj (ht'.symm.trans hu')
  obtain ⟨g', hg, hrun, hraises, hkey⟩ := added_step ht' hle (List.getElem?_eq_getElem hlt)
  obtain rfl : g = g' := by simpa using hg
  have hsame : inv.periodKey = (t'.invoices[i]).periodKey := by
    obtain ⟨more, hmore⟩ := periodKeys_run h
    have hrow : (periodKeys s)[i]? = (periodKeys t')[i]? := by
      rw [← hmore, List.getElem?_append_left (by rwa [length_periodKeys])]
    rw [getElem?_periodKeys hi, getElem?_periodKeys (List.getElem?_eq_getElem hlt)] at hrow
    exact Option.some.inj hrow
  refine ⟨by simp, hrun, hraises, ?_⟩
  rw [hsame, hkey]
  exact Prod.ext (congrArg Prod.fst hsame).symm rfl

theorem AddedBy.forMonthBefore {i : InvoiceId} {g : Generation} (hadded : AddedBy db₀ events i g)
    (hyears : ∀ g fails, .call g fails ∈ events → 1 ≤ g.referenceDatetime.date.year)
    (h : run callStep db₀ events = some s) {inv : BillingInvoice} (hi : s.invoices[i]? = some inv) :
    ForMonthBefore g inv := by
  obtain ⟨hmem, hrun, hraises, hkey⟩ := hadded.month h hi
  obtain ⟨-, hfollows⟩ := Generation.follows_periodReference (hyears g false hmem) hrun hraises
  have hwindow : (inv.periodStart, inv.periodEnd) = monthWindow g.periodReference := congrArg Prod.snd hkey
  exact ⟨g.periodReference, hfollows, congrArg Prod.fst hwindow, congrArg Prod.snd hwindow⟩

/-- Every invoice is for a whole month. -/
def Monthly (db : Database) : Prop :=
  ∀ inv ∈ db.invoices, ∃ m : Date, 0 < m.year ∧ inv.periodStart = m.firstDay ∧ inv.periodEnd = m.lastDay

theorem monthly_run (hnone : db₀.invoices = [])
    (hyears : ∀ g fails, .call g fails ∈ events → 1 ≤ g.referenceDatetime.date.year)
    (h : run callStep db₀ events = some s) : Monthly s := by
  intro inv hinv
  obtain ⟨i, hi⟩ := List.mem_iff_getElem?.mp hinv
  obtain ⟨hlt, -⟩ := List.getElem?_eq_some_iff.mp hi
  obtain ⟨g, hadded⟩ := exists_addedBy h (i := i) (by simp [hnone]) hlt
  obtain ⟨hmem, hrun, hraises, hkey⟩ := hadded.month h hi
  obtain ⟨hpos, -⟩ := Generation.follows_periodReference (hyears g false hmem) hrun hraises
  have hwindow : (inv.periodStart, inv.periodEnd) = monthWindow g.periodReference := congrArg Prod.snd hkey
  exact ⟨g.periodReference, hpos, congrArg Prod.fst hwindow, congrArg Prod.snd hwindow⟩

theorem uniquePeriods_events (hnone : db₀.invoices = []) (h : run callStep db₀ events = some s) : UniquePeriods s := by
  refine run_inv (I := UniquePeriods) (fun _ _ _ => uniquePeriods_step) ?_ h
  rw [UniquePeriods, hnone]
  exact List.nodup_nil

end Runs

section Months

variable {db : Database}

/-- In unique whole months a client and a month determine the row. -/
theorem Monthly.oneAMonth (h : Monthly db) (hunique : UniquePeriods db) : OneAMonth db := by
  intro i j a b hi hj hclient hyear hmonth
  obtain ⟨m, -, hma, hma'⟩ := h a (List.mem_of_getElem? hi)
  obtain ⟨n, -, hnb, hnb'⟩ := h b (List.mem_of_getElem? hj)
  rw [hma, hnb] at hyear hmonth
  have hwindow : monthWindow m = monthWindow n := monthWindow_eq_iff.mpr ⟨hyear, hmonth⟩
  have hkey : a.periodKey = b.periodKey := by
    refine Prod.ext hclient ?_
    show (a.periodStart, a.periodEnd) = (b.periodStart, b.periodEnd)
    rw [hma, hma', hnb, hnb']
    exact hwindow
  exact hunique.row_eq hi hj hkey

theorem Monthly.windowsTile (h : Monthly db) (hone : OneAMonth db) : WindowsTile db where
  adjacent a ha b hb hfollows := by
    obtain ⟨m, hm, hma, hma'⟩ := h a ha
    obtain ⟨n, -, hnb, -⟩ := h b hb
    have hnext : n.Follows m := by
      rw [hma, hnb] at hfollows
      exact hfollows
    rw [hma', hnb]
    exact ⟨Date.toOrdinal_firstDay_of_follows hm hnext, Date.le_lastDay_or_firstDay_le hnext⟩
  apart i j a b hi hj hij hclient d := by
    rintro ⟨hda, hdb⟩
    obtain ⟨m, -, hma, hma'⟩ := h a (List.mem_of_getElem? hi)
    obtain ⟨n, -, hnb, hnb'⟩ := h b (List.mem_of_getElem? hj)
    rw [hma, hma', Date.mem_window_iff] at hda
    rw [hnb, hnb', Date.mem_window_iff] at hdb
    refine hij (hone i j a b hi hj hclient ?_ ?_)
    · rw [hma, hnb]
      exact hda.1.symm.trans hdb.1
    · rw [hma, hnb]
      exact hda.2.symm.trans hdb.2

end Months

/-- **Invoices neither overlap nor repeat nor bill the wrong usage**: when calls run one after another, with other
requests between them, a client has at most one invoice in a calendar month; every invoice was added by a call and is
for the whole month before the month of that call; the windows of consecutive months touch and those of one client have
no day in common; and whatever a call writes has the tokens of the monthly counter that starts with the invoice. -/
theorem invoices_tile {db₀ s : Database} {events : List Event} (hnone : db₀.invoices = [])
    (hyears : ∀ g fails, .call g fails ∈ events → 1 ≤ g.referenceDatetime.date.year)
    (h : run callStep db₀ events = some s) :
    OneAMonth s ∧
      (∀ i inv, s.invoices[i]? = some inv →
        (∃ g, AddedBy db₀ events i g) ∧ ∀ g, AddedBy db₀ events i g → ForMonthBefore g inv) ∧
      WindowsTile s ∧
      Along callStep (fun db e => ∀ g, e = .call g false → UsageBilled g db) db₀ events := by
  have hunique := uniquePeriods_events hnone h
  have hmonthly := monthly_run hnone hyears h
  have hone := hmonthly.oneAMonth hunique
  refine ⟨hone, fun i inv hi => ⟨?_, ?_⟩, hmonthly.windowsTile hone, ?_⟩
  · exact exists_addedBy h (by simp [hnone]) (List.getElem?_eq_some_iff.mp hi).1
  · exact fun g hadded => hadded.forMonthBefore hyears h hi
  · have hstart : UniquePeriods db₀ := uniquePeriods_events hnone (run_nil db₀)
    exact along_of_inv (fun _ _ _ => uniquePeriods_step) (fun db e hi g _ => usageBilled hi) hstart

/-! ## A spring -/

/-- A day of 2026. -/
def dayOf (month day : ℕ) (hm : 1 ≤ month := by decide) (hm' : month ≤ 12 := by decide) (hd : 1 ≤ day := by decide)
    (hd' : day ≤ daysInMonth 2026 month := by decide) : Date := ⟨2026, month, day, hm, hm', hd, hd'⟩

/-- A client signs up and uses 500 tokens in April. On 8 May it gets its invoice for April, which is drawn up again on
20 May. In June one call fails and the next one adds the invoice for May. -/
theorem invoices_tile_spring :
    let events : List Event :=
      [.interlude ((Operation.addClient none 1000).interlude 15 rfl),
        .interlude ((Operation.recordUsage 0 (dayOf 4 12) 300 200).interlude 15 rfl),
        .call (generationOn 5 8) false, .call (generationOn 5 20) false, .call (generationOn 6 1) true,
        .call (generationOn 6 2) false]
    let s : Database := (run callStep emptyDatabase events).getD emptyDatabase
    (OneAMonth s ∧
        (∀ i inv, s.invoices[i]? = some inv →
          (∃ g, AddedBy emptyDatabase events i g) ∧ ∀ g, AddedBy emptyDatabase events i g → ForMonthBefore g inv) ∧
        WindowsTile s ∧
        Along callStep (fun db e => ∀ g, e = .call g false → UsageBilled g db) emptyDatabase events) ∧
      s.invoices.map (fun inv => (inv.periodStart, inv.usedTokens)) = [(dayOf 4 1, 500), (dayOf 5 1, 0)] := by
  intro events s
  refine ⟨invoices_tile rfl (fun g fails hmem => ?_) rfl, by decide +kernel⟩
  have hcalls : g = generationOn 5 8 ∨ g = generationOn 5 20 ∨ g = generationOn 6 1 ∨ g = generationOn 6 2 := by
    simp only [events, List.mem_cons, List.not_mem_nil, reduceCtorEq, Event.call.injEq, false_or, or_false] at hmem
    tauto
  rcases hcalls with rfl | rfl | rfl | rfl <;> decide

end LlmStore.Billing
