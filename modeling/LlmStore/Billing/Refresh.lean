import LlmStore.Billing.SuspensionRule

/-!
# What a refresh leaves

`refresh_billing_statuses` runs twice over the tables: pending invoices fall due, with their open payments, and then
every client gets the status of its invoices. `Refreshed` says what holds of the rows afterwards. What falls due stays
due, so a refresh hides any earlier one: `refresh_hides`. The status of a client takes the sum of a due time and a
number of days, which overflows after the year 9999; then the refresh raises, and its caller commits nothing of it.
-/

namespace LlmStore.Billing

open LlmStore.Calendar LlmStore.Usage

/-! ## Falling due -/

/-- The client has an overdue invoice that is late by more than this number of days. -/
def Late (days : ℤ) (now : Instant) (db : Database) (c : ClientId) : Prop :=
  ∃ inv ∈ db.invoices, inv.clientId = c ∧ inv.status = .overdue ∧ ∃ due, inv.dueAt = some due ∧ addDays due days < now

section FallsDue

variable {now t₁ t₂ : Instant} {inv : BillingInvoice}

theorem fallsDue_iff : inv.fallsDue now = true ↔ inv.status = .pending ∧ ∃ due, inv.dueAt = some due ∧ due < now := by
  simp [BillingInvoice.fallsDue, Option.any_eq_true]

/-- What is due stays due. -/
theorem fallsDue_mono (hle : t₁ ≤ t₂) (h : inv.fallsDue t₁ = true) : inv.fallsDue t₂ = true := by
  obtain ⟨hs, due, hdue, hlt⟩ := fallsDue_iff.mp h
  exact fallsDue_iff.mpr ⟨hs, due, hdue, lt_of_lt_of_le hlt hle⟩

theorem not_fallsDue_of_status (h : inv.status ≠ .pending) : inv.fallsDue now = false := by
  simp [BillingInvoice.fallsDue, h]

/-- An invoice that has fallen due does not do so again. -/
theorem fallsDue_fallen :
    (if inv.fallsDue t₁ then { inv with status := .overdue } else inv).fallsDue t₂ =
      (!inv.fallsDue t₁ && inv.fallsDue t₂) := by
  cases hf : inv.fallsDue t₁ with
  | true =>
    rw [if_pos rfl]
    exact not_fallsDue_of_status nofun
  | false => rw [if_neg Bool.false_ne_true, Bool.not_false, Bool.true_and]

end FallsDue

/-- Letting invoices fall due hides that some of them did so before. -/
theorem letFallDue_letFallDue {t₁ t₂ : Instant} (hle : t₁ ≤ t₂) (db : Database) :
    letFallDue t₂ (letFallDue t₁ db) = letFallDue t₂ db := by
  have hinvoice : ∀ inv : BillingInvoice, inv.fallsDue t₁ = true → inv.fallsDue t₂ = true :=
    fun inv => fallsDue_mono hle
  have hinvoices : (letFallDue t₂ (letFallDue t₁ db)).invoices = (letFallDue t₂ db).invoices := by
    simp only [letFallDue, List.map_map]
    refine List.map_congr_left fun inv _ => ?_
    rw [Function.comp_apply, fallsDue_fallen]
    cases hf : inv.fallsDue t₁ with
    | true => rw [hinvoice inv hf]; rfl
    | false => rfl
  have hpayments : (letFallDue t₂ (letFallDue t₁ db)).payments = (letFallDue t₂ db).payments := by
    simp only [letFallDue, List.map_map, List.getElem?_map]
    refine List.map_congr_left fun p _ => ?_
    cases hi : db.invoices[p.invoiceId]? with
    | none => simp [hi]
    | some inv =>
      simp only [Function.comp_apply, hi, Option.any_some]
      by_cases hp : p.status = .pending
      · cases hf : inv.fallsDue t₁ with
        | true => simp [hp, hi, hf, hinvoice inv hf]
        | false => simp [hp, hi, hf]
      · simp [hp]
  calc letFallDue t₂ (letFallDue t₁ db)
      = ⟨db.clients, (letFallDue t₂ (letFallDue t₁ db)).invoices, (letFallDue t₂ (letFallDue t₁ db)).payments,
          db.usage⟩ := rfl
    _ = letFallDue t₂ db := by rw [hinvoices, hpayments]; rfl

/-- **A refresh hides an earlier one.** -/
theorem refresh_hides {t₁ t₂ : Instant} (hle : t₁ ≤ t₂) (days₁ days : ℤ) (db : Database) :
    refreshBillingStatuses t₂ days (refreshBillingStatuses t₁ days₁ db) = refreshBillingStatuses t₂ days db := by
  have hfall : letFallDue t₂ (refreshBillingStatuses t₁ days₁ db) =
      { letFallDue t₂ db with clients := (refreshBillingStatuses t₁ days₁ db).clients } := by
    rw [← letFallDue_letFallDue hle db]
    rfl
  have hclients : (refreshBillingStatuses t₂ days (refreshBillingStatuses t₁ days₁ db)).clients =
      (refreshBillingStatuses t₂ days db).clients := by
    refine List.ext_getElem? fun c => ?_
    rw [getElem?_refresh, getElem?_refresh, getElem?_refresh, hfall, Option.map_map]
    rfl
  calc refreshBillingStatuses t₂ days (refreshBillingStatuses t₁ days₁ db)
      = { letFallDue t₂ (refreshBillingStatuses t₁ days₁ db) with
          clients := (refreshBillingStatuses t₂ days (refreshBillingStatuses t₁ days₁ db)).clients } := rfl
    _ = refreshBillingStatuses t₂ days db := by rw [hclients, hfall]; rfl

/-! ## The rows -/

/-- The rows that a refresh of `db` leaves in `db'`. -/
structure Refreshed (now : Instant) (days : ℤ) (db db' : Database) : Prop where
  /-- No pending invoice is due. -/
  pending : ∀ inv ∈ db'.invoices, inv.status = .pending → ∀ due, inv.dueAt = some due → ¬ due < now
  /-- An invoice that is not pending is left alone. -/
  untouched : ∀ (i : InvoiceId) (inv : BillingInvoice), db.invoices[i]? = some inv → inv.status ≠ .pending →
    db'.invoices[i]? = some inv
  /-- A pending one is left alone or falls due. -/
  fallen : ∀ (i : InvoiceId) (inv : BillingInvoice), db.invoices[i]? = some inv → inv.status = .pending →
    db'.invoices[i]? = some inv ∨
      (∃ due, inv.dueAt = some due ∧ due < now) ∧ db'.invoices[i]? = some { inv with status := .overdue }
  /-- No invoice is added. -/
  length : db'.invoices.length = db.invoices.length
  /-- The open payments of an invoice that became overdue are overdue. -/
  payments : ∀ (p : PaymentId) (payment : CustomerPayment) (inv inv' : BillingInvoice),
    db.payments[p]? = some payment → db.invoices[payment.invoiceId]? = some inv → inv.status ≠ .overdue →
    db'.invoices[payment.invoiceId]? = some inv' → inv'.status = .overdue →
    payment.status = .pending ∨ payment.status = .overdue → db'.payments[p]? = some { payment with status := .overdue }
  /-- A client is `suspended` if it is late by more than the days, otherwise `past_due` if it has an overdue invoice,
  and otherwise `active`. -/
  clients : ∀ (c : ClientId) (client : Client), db'.clients[c]? = some client →
    (client.billingStatus = .suspended ↔ Late days now db' c) ∧
      (client.billingStatus = .pastDue ↔ ¬ Late days now db' c ∧ Overdue db' c) ∧
      (client.billingStatus = .active ↔ ¬ Late days now db' c ∧ ¬ Overdue db' c)
  /-- No client is added. -/
  rows : db'.clients.length = db.clients.length

section Rows

variable {now : Instant} {days : ℤ} {db : Database} {c : ClientId}

theorem lateBy_iff_late : LateBy days now db c ↔ Late days now (letFallDue now db) c := by
  unfold LateBy Late
  simp only [letFallDue, List.mem_map]
  constructor
  · rintro ⟨inv, hinv, hc, ho, due, hdue, hlt⟩
    refine ⟨_, ⟨inv, hinv, rfl⟩, ?_⟩
    split_ifs with hf
    · exact ⟨hc, rfl, due, hdue, hlt⟩
    · exact ⟨hc, ho.resolve_right hf, due, hdue, hlt⟩
  · rintro ⟨_, ⟨inv, hinv, rfl⟩, hc, ho, due, hdue, hlt⟩
    split_ifs at hc ho hdue with hf
    · exact ⟨inv, hinv, hc, .inr hf, due, hdue, hlt⟩
    · exact ⟨inv, hinv, hc, .inl ho, due, hdue, hlt⟩

/-- The three statuses, by when a client is suspended and when it is delinquent. -/
theorem status_cases {s : BillingStatus} {late overdue : Prop} (hs : s = .suspended ↔ late)
    (ho : s ≠ .active ↔ overdue) :
    (s = .suspended ↔ late) ∧ (s = .pastDue ↔ ¬ late ∧ overdue) ∧ (s = .active ↔ ¬ late ∧ ¬ overdue) := by
  rw [← hs, ← ho]
  cases s <;> simp

theorem refreshed_refresh (now : Instant) (days : ℤ) (db : Database) :
    Refreshed now days db (refreshBillingStatuses now days db) where
  pending := by
    intro inv' hinv' hs due hdue hlt
    obtain ⟨inv, hinv, rfl⟩ := List.mem_map.mp hinv'
    have hdoes : (if inv.fallsDue now then { inv with status := .overdue } else inv).fallsDue now = true :=
      fallsDue_iff.mpr ⟨hs, due, hdue, hlt⟩
    rw [fallsDue_fallen, Bool.not_and_self] at hdoes
    cases hdoes
  untouched := by
    intro i inv hi hs
    have hrow := getElem?_letFallDue now hi
    rwa [not_fallsDue_of_status hs, if_neg Bool.false_ne_true] at hrow
  fallen := by
    intro i inv hi hs
    have hrow := getElem?_letFallDue now hi
    split_ifs at hrow with hf
    · exact .inr ⟨(fallsDue_iff.mp hf).2, hrow⟩
    · exact .inl hrow
  length := by simp [refreshBillingStatuses, letFallDue]
  payments := by
    intro p payment inv inv' hp hi hs hi' hs' hopen
    have hrow := getElem?_letFallDue now hi
    have hf : inv.fallsDue now = true := by
      by_contra hf
      rw [if_neg hf] at hrow
      obtain rfl := Option.some.inj (hrow.symm.trans hi')
      exact hs hs'
    simp only [refreshBillingStatuses, letFallDue, List.getElem?_map, hp, Option.map_some, hi, Option.any_some, hf,
      and_true]
    rcases hopen with hpending | hoverdue
    · rw [if_pos hpending]
    · rw [hoverdue, if_neg (by decide), ← hoverdue]
  clients := by
    intro c client hc
    rw [getElem?_refresh, Option.map_eq_some_iff] at hc
    obtain ⟨old, -, rfl⟩ := hc
    exact status_cases (nextStatus_suspended_iff.trans lateBy_iff_late) (nextStatus_ne_active_iff _ _ _ _)
  rows := by simp [refreshBillingStatuses, letFallDue]

end Rows

/-! ## Sums that overflow -/

section Overflow

variable (now : Instant) (days : ℤ)

/-- The loop over the overdue invoices of a client, up to the first one that is late enough; none if a sum overflows. -/
def shouldSuspend? : List BillingInvoice → Option Bool
  | [] => some false
  | item :: items =>
    match item.dueAt with
    | none => shouldSuspend? items
    | some due => do
      let late ← addDays? due days
      if late < now then some true else shouldSuspend? items

/-- The status of client `c` in the second loop. -/
def nextStatus? (invoices : List BillingInvoice) (c : ClientId) : Option BillingStatus :=
  let overdue := invoices.filter fun inv => inv.clientId = c ∧ inv.status = .overdue
  (shouldSuspend? now days overdue).map (deriveClientBillingStatus (!overdue.isEmpty))

/-- The second loop, from client `c` on. -/
def updateClients? (invoices : List BillingInvoice) : ClientId → List Client → Option (List Client)
  | _, [] => some []
  | c, client :: clients => do
    let status ← nextStatus? now days invoices c
    let updated ← updateClients? invoices (c + 1) clients
    some ({ client with billingStatus := status } :: updated)

/-- `refresh_billing_statuses`; there is none if it raises `OverflowError`, and then nothing of it is committed. -/
def refreshBillingStatuses? (db : Database) : Option Database :=
  let db := letFallDue now db
  (updateClients? now days db.invoices 0 db.clients).map fun clients => { db with clients }

/-- The days can be added to the due time of every invoice that is overdue or falls due. -/
def Addable (db : Database) : Prop :=
  ∀ inv ∈ db.invoices, inv.status = .overdue ∨ inv.fallsDue now = true → ∀ due ∈ inv.dueAt,
    Representable (addDays due days)

variable {now days} {invoices items : List BillingInvoice} {c : ClientId} {clients : List Client} {db : Database}

/-- What the loop finds is there. -/
theorem shouldSuspend?_eq {found : Bool} (h : shouldSuspend? now days items = some found) :
    found = items.any fun inv => inv.dueAt.any fun due => addDays due days < now := by
  induction items with
  | nil => exact (Option.some.inj h).symm
  | cons item items ih =>
    unfold shouldSuspend? at h
    rw [List.any_cons]
    cases hdue : item.dueAt with
    | none =>
      rw [hdue] at h
      simpa using ih h
    | some due =>
      rw [hdue] at h
      obtain ⟨late, hlate, h⟩ := Option.bind_eq_some_iff.mp h
      obtain ⟨-, rfl⟩ : Representable (addDays due days) ∧ addDays due days = late := by
        simpa [addDays?] using hlate
      by_cases hlt : addDays due days < now
      · rw [if_pos hlt] at h
        simp [← Option.some.inj h, hlt]
      · rw [if_neg hlt] at h
        simpa [hlt] using ih h

theorem shouldSuspend?_isSome (h : ∀ inv ∈ items, ∀ due ∈ inv.dueAt, Representable (addDays due days)) :
    (shouldSuspend? now days items).isSome = true := by
  induction items with
  | nil => rfl
  | cons item items ih =>
    obtain ⟨hitem, hitems⟩ := List.forall_mem_cons.mp h
    unfold shouldSuspend?
    cases hdue : item.dueAt with
    | none => exact ih hitems
    | some due =>
      have hsum : addDays? due days = some (addDays due days) := if_pos (hitem due hdue)
      simp only [hsum, Option.bind_eq_bind, Option.bind_some]
      split_ifs
      · rfl
      · exact ih hitems

theorem nextStatus?_eq {status : BillingStatus} (h : nextStatus? now days invoices c = some status) :
    status = nextStatus now days invoices c := by
  obtain ⟨found, hfound, rfl⟩ := Option.map_eq_some_iff.mp h
  rw [shouldSuspend?_eq hfound]
  rfl

/-- What the loop over the clients gives. -/
theorem updateClients?_eq {updated : List Client} (h : updateClients? now days invoices c clients = some updated) :
    updated = clients.mapIdx fun i client =>
      { client with billingStatus := nextStatus now days invoices (c + i) } := by
  induction clients generalizing c updated with
  | nil => exact (Option.some.inj h).symm
  | cons client clients ih =>
    obtain ⟨status, hstatus, h⟩ := Option.bind_eq_some_iff.mp h
    obtain ⟨rest, hrest, h⟩ := Option.bind_eq_some_iff.mp h
    obtain rfl := Option.some.inj h
    rw [List.mapIdx_cons, nextStatus?_eq hstatus, ih hrest]
    simp only [Nat.add_zero, Nat.add_assoc, Nat.add_comm 1]

theorem updateClients?_isSome (h : ∀ c, (nextStatus? now days invoices c).isSome = true) :
    (updateClients? now days invoices c clients).isSome = true := by
  induction clients generalizing c with
  | nil => rfl
  | cons client clients ih =>
    obtain ⟨status, hstatus⟩ := Option.isSome_iff_exists.mp (h c)
    obtain ⟨rest, hrest⟩ := Option.isSome_iff_exists.mp (ih (c := c + 1))
    simp [updateClients?, hstatus, hrest]

/-- A refresh that returns does what it does where nothing overflows. -/
theorem refresh?_eq {db' : Database} (h : refreshBillingStatuses? now days db = some db') :
    db' = refreshBillingStatuses now days db := by
  obtain ⟨clients, hclients, rfl⟩ := Option.map_eq_some_iff.mp h
  rw [updateClients?_eq hclients]
  simp only [Nat.zero_add]
  rfl

/-- **No sum overflows, and the refresh returns.** -/
theorem refresh?_of_addable (h : Addable now days db) :
    refreshBillingStatuses? now days db = some (refreshBillingStatuses now days db) := by
  have hstatuses : ∀ c, (nextStatus? now days (letFallDue now db).invoices c).isSome = true := by
    intro c
    rw [nextStatus?, Option.isSome_map]
    refine shouldSuspend?_isSome fun inv' hinv' due hdue => ?_
    rw [List.mem_filter, decide_eq_true_eq] at hinv'
    obtain ⟨hmem, -, hs⟩ := hinv'
    obtain ⟨inv, hinv, rfl⟩ := List.mem_map.mp hmem
    split_ifs at hs hdue with hf
    · exact h inv hinv (.inr hf) due hdue
    · exact h inv hinv (.inl hs) due hdue
  obtain ⟨db', hdb'⟩ : ∃ db', refreshBillingStatuses? now days db = some db' := by
    rw [← Option.isSome_iff_exists, refreshBillingStatuses?, Option.isSome_map]
    exact updateClients?_isSome hstatuses
  rw [hdb', refresh?_eq hdb']

/-- Whether the days can be added does not depend on an earlier refresh. -/
theorem Addable.refresh {t₁ t₂ : Instant} (hle : t₁ ≤ t₂) (days₁ : ℤ) (h : Addable t₂ days db) :
    Addable t₂ days (refreshBillingStatuses t₁ days₁ db) := by
  intro inv' hinv' hs due hdue
  obtain ⟨inv, hinv, rfl⟩ := List.mem_map.mp hinv'
  rw [fallsDue_fallen] at hs
  split_ifs at hs hdue with hf
  · exact h inv hinv (.inr (fallsDue_mono hle hf)) due hdue
  · exact h inv hinv (by simpa [hf] using hs) due hdue

theorem Addable.earlier {t₁ t₂ : Instant} (hle : t₁ ≤ t₂) (h : Addable t₂ days db) : Addable t₁ days db :=
  fun inv hinv hs => h inv hinv (hs.imp_right (fallsDue_mono hle))

end Overflow

/-- **A refresh is correct and hides the earlier ones**, as long as no sum of a due time and the days overflows: it
returns and leaves the rows of `Refreshed`, a second one at the same time changes nothing, and one at a later time
leaves what it would have left alone. -/
theorem refresh_composes (days : ℤ) (db : Database) :
    (∀ now, Addable now days db → ∃ db', refreshBillingStatuses? now days db = some db' ∧ Refreshed now days db db' ∧
        refreshBillingStatuses? now days db' = some db') ∧
      ∀ t₁ t₂, t₁ ≤ t₂ → Addable t₂ days db → ∃ db₁ db₂, refreshBillingStatuses? t₁ days db = some db₁ ∧
        refreshBillingStatuses? t₂ days db₁ = some db₂ ∧ refreshBillingStatuses? t₂ days db = some db₂ := by
  constructor
  · intro now h
    refine ⟨_, refresh?_of_addable h, refreshed_refresh now days db, ?_⟩
    rw [refresh?_of_addable (h.refresh le_rfl days), refresh_hides le_rfl]
  · intro t₁ t₂ hle h
    refine ⟨_, _, refresh?_of_addable (h.earlier hle), refresh?_of_addable (h.refresh hle days), ?_⟩
    rw [refresh?_of_addable h, refresh_hides hle]

instance (now : Instant) (days : ℤ) (db : Database) : Decidable (Addable now days db) := by
  unfold Addable
  infer_instance

theorem refresh_composes_june :
    (∃ db', refreshBillingStatuses? fifthOfJune 15 invoicedClient = some db' ∧
      Refreshed fifthOfJune 15 invoicedClient db' ∧ refreshBillingStatuses? fifthOfJune 15 db' = some db') ∧
    ∃ db₁ db₂, refreshBillingStatuses? (addDays fifthOfJune (-20)) 15 invoicedClient = some db₁ ∧
      refreshBillingStatuses? fifthOfJune 15 db₁ = some db₂ ∧
      refreshBillingStatuses? fifthOfJune 15 invoicedClient = some db₂ :=
  have h := refresh_composes 15 invoicedClient
  ⟨h.1 fifthOfJune (by decide +kernel), h.2 _ fifthOfJune (by decide) (by decide +kernel)⟩

/-- **A refresh raises**: three million days after its due time the years are over, and the late invoice stays
pending. -/
theorem refresh_overflows : ¬ ∀ (days : ℤ) (now : Instant) (db : Database), 0 ≤ days →
    Refreshed now days db ((refreshBillingStatuses? now days db).getD db) := by
  intro h
  have hrefreshed := h 3000000 fifthOfJune invoicedClient (by decide)
  have hpending : ¬ ∀ inv ∈ ((refreshBillingStatuses? fifthOfJune 3000000 invoicedClient).getD invoicedClient).invoices,
      inv.status = .pending → ∀ due ∈ inv.dueAt, ¬ due < fifthOfJune := by
    decide +kernel
  exact hpending hrefreshed.pending

end LlmStore.Billing
