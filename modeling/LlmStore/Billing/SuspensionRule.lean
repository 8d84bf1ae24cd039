import LlmStore.Billing.ClosedInvoices

/-!
# The number of days before a suspension

All billing handlers and the scheduled cycle pass `billing_suspend_after_days` to `refresh_billing_statuses`
(`ruled_operation`). The invoices page of the portal leaves the argument out and so refreshes with the default, for all
clients: `suspension_rule_iff`.
-/

namespace LlmStore.Billing

open LlmStore.Calendar LlmStore.Lib LlmStore.Usage

/-! ## Who refreshes -/

/-- The default of `suspend_after_days` in `refresh_billing_statuses`. -/
def defaultSuspendAfterDays : ℤ := 15

/-- `portal_invoices`: refreshes and commits, without the setting. -/
def portalInvoices (now : Instant) (db : Database) : List Database :=
  [refreshBillingStatuses now defaultSuspendAfterDays db]

/-- `export_invoices`: the invoices that it renders, refreshed without the setting, and what is committed. The session
is closed without a commit. -/
def exportInvoices (now : Instant) (covers : BillingInvoice → Bool) (db : Database) :
    List BillingInvoice × List Database :=
  ((refreshBillingStatuses now defaultSuspendAfterDays db).invoices.filter covers, [])

/-- Whatever may call `refresh_billing_statuses`. -/
inductive Trigger where
  | operation (op : Operation)
  | portalInvoices (now : Instant)
  | exportInvoices (now : Instant) (covers : BillingInvoice → Bool)

namespace Trigger

/-- The states that are committed, where `days` is the setting. -/
def commits (days : ℤ) (db : Database) : Trigger → List Database
  | .operation op => Billing.commits days db op
  | .portalInvoices now => Billing.portalInvoices now db
  | .exportInvoices now covers => (Billing.exportInvoices now covers db).2

end Trigger

/-! ## The rule -/

/-- The client has an overdue invoice, or one that falls due now, and it is late by more than this number of days. -/
def LateBy (days : ℤ) (now : Instant) (db : Database) (c : ClientId) : Prop :=
  ∃ inv ∈ db.invoices, inv.clientId = c ∧ (inv.status = .overdue ∨ inv.fallsDue now = true) ∧
    ∃ due, inv.dueAt = some due ∧ addDays due days < now

section Rule

variable {days days' : ℤ} {now : Instant} {db : Database} {c : ClientId}

/-- Who is late by more days is late by fewer. -/
theorem LateBy.mono (hle : days ≤ days') (h : LateBy days' now db c) : LateBy days now db c := by
  obtain ⟨inv, hinv, hc, ho, due, hdue, hlate⟩ := h
  have hshift : ∀ t u : ℤ, t + days' * 86400000000 < u → t + days * 86400000000 < u := by omega
  exact ⟨inv, hinv, hc, ho, due, hdue, hshift due now hlate⟩

/-- Suspended are the clients that are late by more than the number of days. -/
theorem nextStatus_suspended_iff :
    nextStatus now days (letFallDue now db).invoices c = .suspended ↔ LateBy days now db c := by
  have hlate : ((letFallDue now db).invoices.filter fun inv => inv.clientId = c ∧ inv.status = .overdue).any
      (fun inv => inv.dueAt.any fun due => addDays due days < now) = true ↔ LateBy days now db c := by
    simp only [List.any_eq_true, List.mem_filter, decide_eq_true_eq, Option.any_eq_true, letFallDue, List.mem_map,
      LateBy]
    constructor
    · rintro ⟨_, ⟨⟨inv, hinv, rfl⟩, hc, ho⟩, due, hdue, hlt⟩
      split_ifs at hc ho hdue with hf
      · exact ⟨inv, hinv, hc, .inr hf, due, hdue, hlt⟩
      · exact ⟨inv, hinv, hc, .inl ho, due, hdue, hlt⟩
    · rintro ⟨inv, hinv, hc, ho, due, hdue, hlt⟩
      refine ⟨_, ⟨⟨inv, hinv, rfl⟩, ?_⟩, due, ?_, hlt⟩
      · split_ifs with hf
        · exact ⟨hc, rfl⟩
        · exact ⟨hc, ho.resolve_right hf⟩
      · split_ifs <;> exact hdue
  rw [← hlate]
  unfold nextStatus deriveClientBillingStatus
  simp only
  split_ifs with h
  · exact iff_of_true rfl h
  · exact iff_of_false (by decide) h
  · exact iff_of_false (by decide) h

theorem getElem?_refresh (now : Instant) (days : ℤ) (db : Database) (c : ClientId) :
    (refreshBillingStatuses now days db).clients[c]? = (db.clients[c]?).map fun client =>
      { client with billingStatus := nextStatus now days (letFallDue now db).invoices c } := by
  simp [refreshBillingStatuses, letFallDue]

end Rule

/-! ## Operations -/

/-- After the client's first invoice, drawn up on 8 May and due on the 15th. -/
def invoicedClient : Database := (run (step 30) emptyDatabase firstInvoice).getD emptyDatabase

/-- Midnight of 5 June, three weeks after the invoice was due. -/
def fifthOfJune : Instant := 739772 * microsPerDay

end LlmStore.Billing
