import LlmStore.Billing.Delinquency

/-!
# Clients that owe nothing

The amount of an invoice plays no part in whether it falls due, so a client all of whose invoices are over nothing is
treated like any other: in a run of generations and refreshes it stays `active` exactly as long as no refresh finds a
pending invoice of its whose due time is over (`never_punished_iff`).
-/

namespace LlmStore.Billing

open LlmStore.Calendar LlmStore.Lib LlmStore.Usage

/-! ## Invoices over nothing -/

/-- All invoices of the client are over nothing. -/
def OwesNothing (db : Database) (c : ClientId) : Prop := ∀ inv ∈ invoicesOf db c, inv.totalAmount = 0

instance (db : Database) (c : ClientId) : Decidable (OwesNothing db c) := by unfold OwesNothing; infer_instance

/-! ## One invoice for a client and a month -/

/-- The columns of `uq_billing_invoice_period`. -/
def BillingInvoice.periodKey (inv : BillingInvoice) : ClientId × Date × Date :=
  (inv.clientId, inv.periodStart, inv.periodEnd)

/-- The unique constraint on invoices. -/
def UniquePeriods (db : Database) : Prop := (db.invoices.map BillingInvoice.periodKey).Nodup

theorem Generation.bills_iff {g : Generation} {c : ClientId} {inv : BillingInvoice} :
    g.bills c inv = true ↔ inv.periodKey = (c, monthWindow g.periodReference) := by
  simp [Generation.bills, BillingInvoice.periodKey, Prod.ext_iff, and_assoc]

theorem uniquePeriods_letFallDue {db : Database} (now : Instant) (h : UniquePeriods db) :
    UniquePeriods (letFallDue now db) := by
  have hkey : ∀ inv : BillingInvoice,
      (if inv.fallsDue now then { inv with status := .overdue } else inv).periodKey = inv.periodKey := by
    intro inv
    split_ifs <;> rfl
  simpa [UniquePeriods, letFallDue, Function.comp_def, hkey] using h

theorem uniquePeriods_generateInvoice (g : Generation) {db : Database} (c : ClientId) (h : UniquePeriods db) :
    UniquePeriods (generateInvoice g db c) := by
  rcases generateInvoice_cases g db c with ⟨he, -⟩ | ⟨data, hd, hnone, he⟩ | ⟨i, inv, data, hd, hi, hb, -, he⟩
  · rw [UniquePeriods, he]
    exact h
  · rw [UniquePeriods, he, List.map_append, List.map_singleton, List.nodup_append]
    refine ⟨h, List.nodup_singleton _, ?_⟩
    rintro _ hkey _ hdata rfl
    obtain ⟨inv, hinv, hk⟩ := List.mem_map.mp hkey
    rw [List.mem_singleton] at hdata
    have hb := Generation.bills_iff.mpr (hk.trans (hdata.trans (Generation.bills_iff.mp hd.bills)))
    rw [hnone inv hinv] at hb
    exact Bool.false_ne_true hb
  · obtain ⟨hlt, rfl⟩ := List.getElem?_eq_some_iff.mp hi
    have hsame : data.periodKey = (db.invoices[i]).periodKey :=
      (Generation.bills_iff.mp hd.bills).trans (Generation.bills_iff.mp hb).symm
    rw [UniquePeriods, he, List.map_set, hsame, ← List.getElem_map BillingInvoice.periodKey (h := by simpa using hlt),
      List.set_getElem_self]
    exact h

theorem uniquePeriods_foldl (g : Generation) : ∀ (cs : List ClientId) {db : Database}, UniquePeriods db →
    UniquePeriods (cs.foldl (generateInvoice g) db)
  | [], _, h => h
  | c :: cs, _, h => uniquePeriods_foldl g cs (uniquePeriods_generateInvoice g c h)

/-! ## Nothing falls due -/

/-- The client exists, is `active` and has no overdue invoice. -/
structure Quiet (db : Database) (c : ClientId) : Prop where
  exists_client : c < db.clients.length
  not_overdue : ¬ Overdue db c
  not_delinquent : ¬ Delinquent db c
  unique : UniquePeriods db

/-- No pending invoice of the client is past its due time. -/
def NonePastDue (c : ClientId) (now : Instant) (db : Database) : Prop :=
  ∀ inv ∈ invoicesOf db c, inv.fallsDue now = false

/-- Of the client's pending invoices only the one that the generation draws up again is past its due time, and the one
that it draws up is not due before today. -/
def Generation.NonePastDue (g : Generation) (c : ClientId) (db : Database) : Prop :=
  g.runs = true →
    (∀ inv ∈ invoicesOf db c, inv.fallsDue g.currentTime = true → g.covers c = true ∧ g.bills c inv = true) ∧
    (g.covers c = true → g.dueInDays < 0 → ∃ inv ∈ invoicesOf db c, g.bills c inv = true ∧ inv.closed)

section Quiet

variable {db : Database} {c : ClientId}

/-- After a refresh a client is delinquent just if it has an overdue invoice. -/
theorem not_delinquent_refresh_iff {now : Instant} (days : ℤ) (hc : c < db.clients.length) (ho : ¬ Overdue db c) :
    ¬ Delinquent (refreshBillingStatuses now days db) c ↔ NonePastDue c now db := by
  rw [delinquent_refresh_iff, overdue_letFallDue_iff]
  simp only [hc, ho, true_and, false_or, not_exists, not_and, Bool.not_eq_true, NonePastDue, mem_invoicesOf]
  exact ⟨fun h inv hinv => h inv hinv.1 hinv.2, fun h inv hinv hcl => h inv ⟨hinv, hcl⟩⟩

theorem Quiet.refresh (h : Quiet db c) {now : Instant} (days : ℤ) (hn : NonePastDue c now db) :
    Quiet (refreshBillingStatuses now days db) c := by
  have hd := (not_delinquent_refresh_iff days h.exists_client h.not_overdue).mpr hn
  have hlen : c < (refreshBillingStatuses now days db).clients.length := by
    simpa [refreshBillingStatuses, letFallDue] using h.exists_client
  refine ⟨hlen, fun ho => hd ?_, hd, uniquePeriods_letFallDue now h.unique⟩
  exact delinquent_refresh_iff.mpr ⟨h.exists_client, ho⟩

theorem not_overdue_generateInvoice (g : Generation) (c' : ClientId) (h : ¬ Overdue db c) :
    ¬ Overdue (generateInvoice g db c') c := by
  rintro ⟨inv, hinv, hcl, ho⟩
  rcases generateInvoice_cases g db c' with ⟨he, -⟩ | ⟨data, hd, -, he⟩ | ⟨i, old, data, hd, -, -, -, he⟩
  · exact h ⟨inv, he ▸ hinv, hcl, ho⟩
  · rw [he, List.mem_append, List.mem_singleton] at hinv
    rcases hinv with hinv | rfl
    · exact h ⟨inv, hinv, hcl, ho⟩
    · rw [hd.status] at ho
      cases ho
  · rw [he] at hinv
    rcases List.mem_or_eq_of_mem_set hinv with hinv | rfl
    · exact h ⟨inv, hinv, hcl, ho⟩
    · rw [hd.status] at ho
      cases ho

/-- In the loop of a generation no invoice becomes overdue. -/
theorem not_overdue_foldl (g : Generation) : ∀ (cs : List ClientId) {db : Database}, ¬ Overdue db c →
    ¬ Overdue (cs.foldl (generateInvoice g) db) c
  | [], _, h => h
  | c' :: cs, _, h => not_overdue_foldl g cs (not_overdue_generateInvoice g c' h)

theorem not_closed_of_fallsDue {inv : BillingInvoice} {now : Instant} (h : inv.fallsDue now = true) : ¬ inv.closed := by
  simp only [BillingInvoice.fallsDue, Bool.and_eq_true, decide_eq_true_eq] at h
  rintro (hp | hp) <;> rw [hp] at h <;> cases h.1

/-- The invoices `M` of a client for whom the month's invoice is drawn up: those of other months and the new one. -/
theorem nonePastDue_drawn_iff {g : Generation} {data : BillingInvoice} {L M : List BillingInvoice}
    (hdue : data.fallsDue g.currentTime = true ↔ g.dueInDays < 0)
    (hM : ∀ inv, inv ∈ M ↔ (inv ∈ L ∧ g.bills c inv = false) ∨ inv = data)
    (hopen : ∀ inv ∈ L, g.bills c inv = true → ¬ inv.closed) :
    (∀ inv ∈ M, inv.fallsDue g.currentTime = false) ↔
      (∀ inv ∈ L, inv.fallsDue g.currentTime = true → g.bills c inv = true) ∧
        (g.dueInDays < 0 → ∃ inv ∈ L, g.bills c inv = true ∧ inv.closed) := by
  constructor
  · intro h
    refine ⟨fun inv hinv hf => ?_, fun hdays => ?_⟩
    · by_contra hb
      rw [h inv ((hM inv).mpr (.inl ⟨hinv, (Bool.not_eq_true _).mp hb⟩))] at hf
      cases hf
    · have hf := hdue.mpr hdays
      rw [h data ((hM data).mpr (.inr rfl))] at hf
      cases hf
  · rintro ⟨hbills, hdays⟩ inv hinv
    by_contra hf
    rw [Bool.not_eq_false] at hf
    rcases (hM inv).mp hinv with ⟨hL, hb⟩ | rfl
    · rw [hbills inv hL hf] at hb
      cases hb
    · obtain ⟨old, hold, hb, hclosed⟩ := hdays (hdue.mp hf)
      exact hopen old hold hb hclosed

/-- The client's invoices that are past their due time after its own loop body. -/
theorem nonePastDue_own_iff {g : Generation} (hu : ((invoicesOf db c).map BillingInvoice.periodKey).Nodup)
    (hc : c < db.clients.length) :
    Billing.NonePastDue c g.currentTime (generateInvoice g db c) ↔
      (∀ inv ∈ invoicesOf db c, inv.fallsDue g.currentTime = true → g.bills c inv = true) ∧
        (g.dueInDays < 0 → ∃ inv ∈ invoicesOf db c, g.bills c inv = true ∧ inv.closed) := by
  have hsame : ∀ a ∈ invoicesOf db c, ∀ b ∈ invoicesOf db c, g.bills c a = true → g.bills c b = true → a = b :=
    fun a ha b hb hba hbb => List.inj_on_of_nodup_map hu ha hb
      ((Generation.bills_iff.mp hba).trans (Generation.bills_iff.mp hbb).symm)
  unfold Billing.NonePastDue
  rcases generateInvoice_own g db c with
    ⟨he, hex⟩ | ⟨data, hd, hnone, he⟩ | ⟨before, old, data, after, hd, hL, hb, ho, he⟩
  · -- the month's invoice is closed, so no pending one is of that month
    obtain ⟨old, hold, hb, hclosed⟩ := hex hc
    rw [he]
    constructor
    · intro hnone
      refine ⟨fun inv hinv hf => ?_, fun _ => ⟨old, hold, hb, hclosed⟩⟩
      rw [hnone inv hinv] at hf
      cases hf
    · rintro ⟨hbills, -⟩ inv hinv
      by_contra hf
      rw [Bool.not_eq_false] at hf
      exact not_closed_of_fallsDue hf (hsame _ hold _ hinv hb (hbills inv hinv hf) ▸ hclosed)
  · -- the month has no invoice, and one is added
    rw [he]
    refine nonePastDue_drawn_iff hd.fallsDue_iff (fun inv => ?_) fun inv hinv hb => ?_
    · rw [List.mem_append, List.mem_singleton, and_iff_left_of_imp (hnone inv)]
    · rw [hnone inv hinv] at hb
      cases hb
  · -- the month's invoice is open and drawn up again
    have hold : old ∈ invoicesOf db c := by rw [hL]; simp
    have hrest : ∀ inv, inv ∈ before ++ after ↔ inv ∈ invoicesOf db c ∧ g.bills c inv = false := by
      intro inv
      rw [hL, List.perm_middle.mem_iff, List.mem_cons]
      constructor
      · intro hinv
        refine ⟨.inr hinv, ?_⟩
        by_contra hbi
        rw [Bool.not_eq_false] at hbi
        rw [hL, List.map_append, List.map_cons, List.nodup_middle, List.nodup_cons, ← List.map_append] at hu
        exact hu.1 (List.mem_map.mpr ⟨inv, hinv, (Generation.bills_iff.mp hbi).trans (Generation.bills_iff.mp hb).symm⟩)
      · rintro ⟨rfl | hinv, hbi⟩
        · rw [hb] at hbi
          cases hbi
        · exact hinv
    rw [he]
    refine nonePastDue_drawn_iff hd.fallsDue_iff (fun inv => ?_) fun inv hinv hbi => ?_
    · rw [List.perm_middle.mem_iff, List.mem_cons, hrest, or_comm]
    · rw [hsame inv hinv old hold hbi hb]
      exact ho

/-- The client's invoices that are past their due time after the whole loop. -/
theorem nonePastDue_foldl_iff {g : Generation} (h : Quiet db c) (hrun : g.runs = true) :
    Billing.NonePastDue c g.currentTime ((snapshotClients g db).foldl (generateInvoice g) db) ↔
      g.NonePastDue c db := by
  have hu : ((invoicesOf db c).map BillingInvoice.periodKey).Nodup := h.unique.sublist (List.filter_sublist.map _)
  unfold Generation.NonePastDue
  by_cases hcov : g.covers c = true
  · obtain ⟨db', hclients, hown, hfold⟩ := foldl_own g db (nodup_snapshotClients g db)
      (mem_snapshotClients.mpr ⟨h.exists_client, hcov⟩)
    have hiff := nonePastDue_own_iff (g := g) (hown ▸ hu) (hclients ▸ h.exists_client)
    rw [hown] at hiff
    rw [Billing.NonePastDue, hfold]
    simp only [hrun, hcov, true_imp_iff, true_and]
    exact hiff
  · rw [Billing.NonePastDue, foldl_other g db fun hmem => hcov (mem_snapshotClients.mp hmem).2]
    simp [hrun, hcov]

theorem not_delinquent_generate_iff {g : Generation} (h : Quiet db c) :
    ¬ Delinquent (generateMonthlyInvoices g db) c ↔ g.NonePastDue c db := by
  unfold generateMonthlyInvoices
  split_ifs with hrun
  · rw [not_delinquent_refresh_iff _ (by rw [foldl_clients]; exact h.exists_client)
      (not_overdue_foldl g _ h.not_overdue)]
    exact nonePastDue_foldl_iff h hrun
  · exact iff_of_true h.not_delinquent fun hr => absurd hr hrun

theorem Quiet.generate (h : Quiet db c) {g : Generation} (hn : g.NonePastDue c db) :
    Quiet (generateMonthlyInvoices g db) c := by
  have hd := (not_delinquent_generate_iff h).mpr hn
  unfold generateMonthlyInvoices at hd ⊢
  split_ifs at hd ⊢ with hrun
  · have hlen : c < ((snapshotClients g db).foldl (generateInvoice g) db).clients.length := by
      rw [foldl_clients]
      exact h.exists_client
    refine ⟨by simpa [refreshBillingStatuses, letFallDue] using hlen, fun ho => hd ?_, hd,
      uniquePeriods_letFallDue _ (uniquePeriods_foldl g _ h.unique)⟩
    exact delinquent_refresh_iff.mpr ⟨hlen, ho⟩
  · exact h

end Quiet

/-! ## Operations -/

/-- Generations and refreshes, and what goes on besides: new clients, new usage and other plans. -/
def Operation.isSweep : Operation → Bool
  | .generateInvoices _ | .runBillingCycle .. | .runBillingCycleOnce .. | .refresh _ | .addClient .. | .recordUsage .. =>
    true
  | .patchClient _ patch => patch.billingStatus.isNone
  | _ => false

section Operations

variable (suspendAfterDays : ℤ)

/-- The generation of the scheduled cycle. -/
def scheduled (g : Generation) : Generation := { g with force := false, clientId := none, suspendAfterDays }

/-- None of the operation's refreshes finds a pending invoice of the client that is past its due time. -/
def NothingFallsDue (c : ClientId) (db : Database) : Operation → Prop
  | .generateInvoices g => g.clientId.all (· < db.clients.length) = true →
      Generation.NonePastDue { g with force := true, suspendAfterDays } c db
  | .runBillingCycle g later | .runBillingCycleOnce g later =>
      (scheduled suspendAfterDays g).NonePastDue c db ∧
        NonePastDue c later (generateMonthlyInvoices (scheduled suspendAfterDays g) db)
  | .refresh now => NonePastDue c now db
  | _ => True

variable {db : Database} {c : ClientId}

theorem Quiet.congr {db' : Database} (h : Quiet db c) (hlen : c < db'.clients.length)
    (hd : ¬ Delinquent db' c) (hi : db'.invoices = db.invoices) : Quiet db' c :=
  ⟨hlen, fun ho => h.not_overdue (by rwa [Overdue, hi] at ho), hd, by rw [UniquePeriods, hi]; exact h.unique⟩

/-- A cycle of two refreshes, the first at the end of a generation. -/
theorem not_delinquent_cycle_iff {g : Generation} {later : Instant} (h : Quiet db c) (hn : g.NonePastDue c db) :
    ¬ Delinquent (refreshBillingStatuses later suspendAfterDays (generateMonthlyInvoices g db)) c ↔
      NonePastDue c later (generateMonthlyInvoices g db) := by
  have hq := h.generate hn
  exact not_delinquent_refresh_iff _ hq.exists_client hq.not_overdue

/-- An overdue invoice is not forgotten by the second refresh. -/
theorem delinquent_cycle {g : Generation} {later : Instant} (h : Quiet db c) (hn : ¬ g.NonePastDue c db) :
    Delinquent (refreshBillingStatuses later suspendAfterDays (generateMonthlyInvoices g db)) c := by
  have hd := not_not.mp (mt (not_delinquent_generate_iff h).mp hn)
  unfold generateMonthlyInvoices at hd ⊢
  split_ifs at hd ⊢
  · obtain ⟨hc, ho⟩ := delinquent_refresh_iff.mp hd
    refine delinquent_refresh_iff.mpr ⟨by simpa [refreshBillingStatuses, letFallDue] using hc, ?_⟩
    exact overdue_letFallDue_iff.mpr (.inl ho)
  · exact absurd hd h.not_delinquent

theorem quiet_commits_iff {op : Operation} (h : Quiet db c) (hop : op.isSweep = true) :
    ((∀ s ∈ commits suspendAfterDays db op, ¬ Delinquent s c) ↔ NothingFallsDue suspendAfterDays c db op) ∧
      (NothingFallsDue suspendAfterDays c db op → Quiet ((commits suspendAfterDays db op).getLastD db) c) := by
  cases op with
  | generateInvoices g =>
    simp only [commits, generateInvoices, NothingFallsDue]
    split_ifs with hc
    · simpa [committed, hc] using ⟨not_delinquent_generate_iff h, h.generate⟩
    · simpa [committed, hc] using h
  | runBillingCycle g later =>
    have hfirst := not_delinquent_generate_iff (g := scheduled suspendAfterDays g) h
    refine ⟨?_, fun hn => (h.generate hn.1).refresh suspendAfterDays hn.2⟩
    simp only [commits, runBillingCycle, List.forall_mem_cons, NothingFallsDue]
    constructor
    · rintro ⟨hd, hd', -⟩
      exact ⟨hfirst.mp hd, (not_delinquent_cycle_iff suspendAfterDays h (hfirst.mp hd)).mp hd'⟩
    · rintro ⟨hn, hn'⟩
      exact ⟨hfirst.mpr hn, (not_delinquent_cycle_iff suspendAfterDays h hn).mpr hn', List.forall_mem_nil _⟩
  | runBillingCycleOnce g later =>
    refine ⟨?_, fun hn => (h.generate hn.1).refresh suspendAfterDays hn.2⟩
    simp only [commits, runBillingCycleOnce, List.forall_mem_singleton, NothingFallsDue]
    constructor
    · intro hd
      have hn : (scheduled suspendAfterDays g).NonePastDue c db := by
        by_contra hn
        exact hd (delinquent_cycle suspendAfterDays h hn)
      exact ⟨hn, (not_delinquent_cycle_iff suspendAfterDays h hn).mp hd⟩
    · rintro ⟨hn, hn'⟩
      exact (not_delinquent_cycle_iff suspendAfterDays h hn).mpr hn'
  | refresh now =>
    simpa [commits, NothingFallsDue] using
      ⟨not_delinquent_refresh_iff _ h.exists_client h.not_overdue, h.refresh suspendAfterDays⟩
  | addClient plan quota =>
    have hd := mt (delinquent_addClient plan quota).mp h.not_delinquent
    refine ⟨by simpa [commits, NothingFallsDue] using hd, fun _ => h.congr ?_ hd rfl⟩
    simpa [commits] using Nat.lt_succ_of_lt h.exists_client
  | recordUsage c' today prompt completion =>
    refine ⟨?_, fun _ => h.congr h.exists_client h.not_delinquent rfl⟩
    simp only [commits, List.forall_mem_singleton, NothingFallsDue, iff_true]
    exact h.not_delinquent
  | patchClient c' patch =>
    have hstatus : patch.billingStatus = none := by simpa [Operation.isSweep] using hop
    simp only [commits, patchClient, NothingFallsDue]
    split_ifs with hc
    · have hd : ¬ Delinquent (db.setClient c' fun client =>
          { client with
            billingStatus := patch.billingStatus.getD client.billingStatus
            billingPlan := patch.billingPlan.getD client.billingPlan }) c := by
        rw [delinquent_setClient]
        rintro ⟨client, hcl, hne⟩
        refine h.not_delinquent ⟨client, hcl, ?_⟩
        split_ifs at hne
        · rwa [hstatus] at hne
        · exact hne
      refine ⟨by simpa [committed] using hd, fun _ => h.congr ?_ hd rfl⟩
      simpa [committed, Database.setClient] using h.exists_client
    · exact ⟨by simp [committed], fun _ => h⟩
  | markInvoiceOverdue later i => cases hop
  | markInvoicePaid now later i payload => cases hop
  | cancelInvoice now later i => cases hop
  | createPayment clientLoaded later payload => cases hop
  | cancelPayment now p => cases hop
  | pixWebhook now later payload => cases hop

/-- In a run a client that starts quiet is `active` in every committed state just if nothing of its falls due. -/
theorem history_iff {ops : List Operation} {db : Database} (h : Quiet db c) (hops : ∀ op ∈ ops, op.isSweep = true) :
    (∀ s ∈ history suspendAfterDays db ops, ¬ Delinquent s c) ↔
      Along (step suspendAfterDays) (NothingFallsDue suspendAfterDays c) db ops := by
  induction ops generalizing db with
  | nil => simp [history, Along]
  | cons op ops ih =>
    obtain ⟨hiff, hquiet⟩ := quiet_commits_iff suspendAfterDays h (hops op List.mem_cons_self)
    have hops' : ∀ op' ∈ ops, op'.isSweep = true := fun op' hop' => hops op' (List.mem_cons_of_mem _ hop')
    simp only [history, List.forall_mem_append, Along, step, Option.some.injEq, forall_eq', hiff]
    constructor
    · rintro ⟨hn, hrest⟩
      exact ⟨hn, (ih (hquiet hn) hops').mp hrest⟩
    · rintro ⟨hn, hrest⟩
      exact ⟨hn, (ih (hquiet hn) hops').mpr hrest⟩

/-- A client that owes nothing has a billing status other than `active`. -/
def Punished (db : Database) (c : ClientId) : Prop := OwesNothing db c ∧ Delinquent db c

/-- **A client that owes nothing is never punished exactly if no refresh comes after the due time of one of its
invoices.** -/
theorem never_punished_iff (db : Database) (c : ClientId) (hc : c < db.clients.length) (hactive : ¬ Delinquent db c)
    (hoverdue : ¬ Overdue db c) (hunique : UniquePeriods db) (ops : List Operation)
    (hops : ∀ op ∈ ops, op.isSweep = true) (hfree : ∀ s ∈ history suspendAfterDays db ops, OwesNothing s c) :
    (∀ s ∈ history suspendAfterDays db ops, ¬ Punished s c) ↔
      Along (step suspendAfterDays) (NothingFallsDue suspendAfterDays c) db ops := by
  rw [← history_iff suspendAfterDays ⟨hc, hoverdue, hactive, hunique⟩ hops]
  exact forall₂_congr fun s hs => not_congr (and_iff_right (hfree s hs))

end Operations

/-! ## A client on the free plan -/

/-- A new client on the default plan `free`. -/
def freeClient : Database where
  clients :=
    [{ billingStatus := .active
       billingPlan := some ⟨50000, [⟨true, 0, 0, "USD"⟩]⟩
       monthlyTokenQuota := 50000 }]
  invoices := []
  payments := []
  usage := { quotaCounters := ∅, usageRecords := ∅ }

instance (db : Database) (c : ClientId) : Decidable (Punished db c) := by unfold Punished; infer_instance

/-- Its invoice for April is drawn up on the 1st of May and refreshed on the 2nd. -/
theorem never_punished_iff_may :
    (∀ s ∈ history 15 freeClient [.generateInvoices (generationOn 5 1), .refresh (generationOn 5 2).currentTime],
        ¬ Punished s 0) ↔
      Along (step 15) (NothingFallsDue 15 0) freeClient
        [.generateInvoices (generationOn 5 1), .refresh (generationOn 5 2).currentTime] :=
  never_punished_iff 15 freeClient 0 (by decide) (by decide) (by simp [Overdue, freeClient]) List.nodup_nil
    [.generateInvoices (generationOn 5 1), .refresh (generationOn 5 2).currentTime] (by decide) (by decide +kernel)

/-- **A client of the free plan is punished**: on the 20th of May its invoice over nothing is overdue. -/
theorem free_client_punished :
    ¬ ∀ s ∈ history 15 freeClient [.generateInvoices (generationOn 5 1), .refresh (generationOn 5 20).currentTime],
      ¬ Punished s 0 := by
  decide +kernel

end LlmStore.Billing
