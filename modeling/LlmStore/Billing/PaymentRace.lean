import Mathlib.Logic.Function.Basic
import LlmStore.Billing.ClosedInvoices

/-!
# A payment and the refreshes that overlap it

`mark_invoice_paid` and `pix_webhook` mark an invoice as paid, while any number of sessions run
`refresh_billing_statuses` and `generate_monthly_invoices`. Every session selects the row without locking it, decides in
Python, and at its next flush writes the columns that it has changed. `step` is one statement of one session on the row
of one invoice: a query sees the committed columns and what the session has flushed itself, a flush locks the row until
its transaction ends, a commit makes the flushed columns the committed ones.

Alone, the sessions do what the handlers do (`refresh_solo`, `generate_solo`, `pay_solo`). Together, a payment stays
exactly if no session commits after it a status that it has decided on before (`payment_kept_iff`).
-/

namespace LlmStore.Billing.PaymentRace

open LlmStore.Calendar LlmStore.Lib LlmStore.Usage

/-! ## The row and its sessions -/

/-- The columns of an invoice on which the loops decide. -/
structure Columns where
  status : InvoiceStatus
  dueAt : Option Instant
  deriving DecidableEq

/-- New values for some of the columns. -/
structure Changes where
  status : Option InvoiceStatus := none
  dueAt : Option (Option Instant) := none
  deriving DecidableEq

namespace Changes

/-- The columns whose value has changed. -/
def between (original current : Columns) : Changes where
  status := if current.status = original.status then none else some current.status
  dueAt := if current.dueAt = original.dueAt then none else some current.dueAt

def write (w : Changes) (row : Columns) : Columns := ⟨w.status.getD row.status, w.dueAt.getD row.dueAt⟩

/-- The changes `old` and after them `new`. -/
def after (old new : Changes) : Changes := ⟨new.status.or old.status, new.dueAt.or old.dueAt⟩

end Changes

/-- The invoice as a session holds it. -/
structure Loaded where
  /-- The status that the session found when it loaded the invoice. -/
  found : InvoiceStatus
  /-- The columns as they were loaded or last flushed. -/
  original : Columns
  current : Columns
  deriving DecidableEq

structure Session where
  loaded : Option Loaded := none
  /-- Flushed and not yet committed. -/
  written : Changes := {}
  deriving DecidableEq

namespace Session

/-- The columns that a query of the session finds. -/
def sees (x : Session) (row : Columns) : Columns := x.written.write row

/-- The invoice after a query: one that is loaded already keeps its values. -/
def load (x : Session) (row : Columns) : Loaded := x.loaded.getD ⟨(x.sees row).status, x.sees row, x.sees row⟩

/-- A query for the invoice and a change in Python. -/
def change (x : Session) (row : Columns) (f : Columns → Columns) : Session :=
  { x with loaded := some { x.load row with current := f (x.load row).current } }

/-- The session has flushed a payment. -/
def pays (x : Session) : Bool := x.written.status = some InvoiceStatus.paid

/-- Nothing is left to flush. Queries and commits flush first. -/
def clean (x : Session) : Bool := x.loaded.all fun l => l.original = l.current

end Session

structure State (τ : Type*) where
  /-- The committed columns. -/
  row : Columns
  /-- The session whose transaction has written the row. -/
  lock : Option τ
  session : τ → Session
  /-- A payment has been committed. -/
  paid : Bool

/-! ## Steps -/

inductive Payment where
  | markInvoicePaid
  | pixWebhook
  deriving DecidableEq

/-- The invoices that the handler does not pay. -/
def Payment.refuses : Payment → InvoiceStatus → Bool
  | .markInvoicePaid, status => status = .cancelled || status = .paid
  | .pixWebhook, status => status = .paid

inductive Action (τ : Type*) where
  /-- A query for invoices that are only read, such as `Client.invoices`. -/
  | load (t : τ)
  /-- The first query of `refresh_billing_statuses`, and its loop. -/
  | refresh (t : τ) (now : Instant)
  /-- The query of `generate_monthly_invoices` for the invoice of the month, and what it makes of it. -/
  | generate (t : τ) (dueAt : Instant)
  /-- The query of a payment, and what it makes of the invoice. -/
  | pay (t : τ) (payment : Payment)
  | flush (t : τ)
  | commit (t : τ)
  | rollback (t : τ)

/-- `BillingInvoice.fallsDue`. -/
def Columns.fallsDue (now : Instant) (row : Columns) : Bool := row.status = .pending && row.dueAt.any (· < now)

/-- An invoice that is not closed is drawn up again. -/
def Columns.redraw (dueAt : Instant) (row : Columns) : Columns :=
  if row.status = .paid ∨ row.status = .cancelled then row else ⟨.pending, some dueAt⟩

def Columns.pay (payment : Payment) (row : Columns) : Columns :=
  if payment.refuses row.status then row else { row with status := .paid }

section Step

variable {τ : Type*} [DecidableEq τ]

def State.set (s : State τ) (t : τ) (x : Session) : State τ := { s with session := Function.update s.session t x }

/-- The lock is given up by session `t`. -/
def State.unlock (s : State τ) (t : τ) : State τ := { s with lock := if s.lock = some t then none else s.lock }

/-- A query of session `t`, which has nothing to flush. -/
def State.query (s : State τ) (t : τ) (x : Session) : Option (State τ) :=
  if (s.session t).clean then some (s.set t x) else none

def step (s : State τ) : Action τ → Option (State τ)
  | .load t => s.query t ((s.session t).change s.row id)
  | .refresh t now =>
    s.query t
      (if ((s.session t).sees s.row).fallsDue now then
        (s.session t).change s.row fun columns => { columns with status := .overdue }
      else s.session t)
  | .generate t dueAt => s.query t ((s.session t).change s.row (Columns.redraw dueAt))
  | .pay t payment => s.query t ((s.session t).change s.row (Columns.pay payment))
  | .flush t =>
    match (s.session t).loaded with
    | none => some s
    | some l =>
      if l.original = l.current then some s
      else if s.lock = none ∨ s.lock = some t then
        some ({ s with lock := some t }.set t
          { loaded := some { l with original := l.current }
            written := (s.session t).written.after (.between l.original l.current) })
      else none
  | .commit t =>
    if (s.session t).clean then
      some (({ s with
        row := (s.session t).sees s.row
        paid := s.paid || (s.session t).pays }.unlock t).set t
          { s.session t with written := {} })
    else none
  | .rollback t => some ((s.unlock t).set t {})

end Step

/-- No session has looked at the invoice. -/
def init {τ : Type*} (row : Columns) : State τ := { row, lock := none, session := fun _ => {}, paid := false }

/-! ## What one step does -/

section Steps

variable {τ : Type*} [DecidableEq τ] {s s' : State τ} {t : τ} {a : Action τ}

@[simp] theorem set_row (s : State τ) (t : τ) (x : Session) : (s.set t x).row = s.row := rfl

@[simp] theorem set_paid (s : State τ) (t : τ) (x : Session) : (s.set t x).paid = s.paid := rfl

@[simp] theorem set_session_self (s : State τ) (t : τ) (x : Session) : (s.set t x).session t = x := by
  simp [State.set]

theorem set_session_ne (s : State τ) {t u : τ} (x : Session) (h : u ≠ t) : (s.set t x).session u = s.session u := by
  simp [State.set, h]

theorem query_eq_some {x : Session} (h : s.query t x = some s') : (s.session t).clean = true ∧ s' = s.set t x := by
  unfold State.query at h
  split_ifs at h with hclean
  exact ⟨hclean, (Option.some.inj h).symm⟩

/-- What a query makes of an invoice that is paid: nothing. -/
def KeepsPaid (f : Columns → Columns) : Prop := ∀ row, row.status = .paid → (f row).status = .paid

theorem keepsPaid_id : KeepsPaid id := fun _ h => h

theorem keepsPaid_redraw (dueAt : Instant) : KeepsPaid (Columns.redraw dueAt) := by
  intro row h
  rw [Columns.redraw, if_pos (.inl h)]
  exact h

theorem keepsPaid_pay (payment : Payment) : KeepsPaid (Columns.pay payment) := by
  intro row h
  unfold Columns.pay
  split_ifs
  · exact h
  · rfl

/-- **The steps**: a query leaves its session as it was, or the invoice in it as some `f` makes it, where `f` leaves a
paid one alone unless a refresh has found the row pending; a flush moves the session's changes to the row it has
written; a commit makes these the committed ones; a rollback forgets the session. -/
inductive Effect (s : State τ) : Action τ → State τ → Prop
  | idle {a : Action τ} : Effect s a s
  | query {a : Action τ} {t : τ} {f : Columns → Columns}
      (hf : KeepsPaid f ∨ ((s.session t).sees s.row).status = .pending) :
      Effect s a (s.set t ((s.session t).change s.row f))
  | flush {t : τ} {l : Loaded} (hl : (s.session t).loaded = some l) :
      Effect s (.flush t)
        ({ s with lock := some t }.set t
          { loaded := some { l with original := l.current }
            written := (s.session t).written.after (.between l.original l.current) })
  | commit {t : τ} :
      Effect s (.commit t)
        (({ s with
          row := (s.session t).sees s.row
          paid := s.paid || (s.session t).pays }.unlock t).set t
            { s.session t with written := {} })
  | rollback {t : τ} : Effect s (.rollback t) ((s.unlock t).set t {})

theorem set_session (s : State τ) (t : τ) : s.set t (s.session t) = s := by simp [State.set]

theorem effect_of_step (h : step s a = some s') : Effect s a s' := by
  cases a with
  | load t =>
    obtain ⟨-, rfl⟩ := query_eq_some h
    exact .query (.inl keepsPaid_id)
  | refresh t now =>
    obtain ⟨-, rfl⟩ := query_eq_some h
    split_ifs with hdue
    · have hpending : ((s.session t).sees s.row).status = .pending := by
        simp only [Columns.fallsDue, Bool.and_eq_true, decide_eq_true_eq] at hdue
        exact hdue.1
      exact .query (.inr hpending)
    · rw [set_session]
      exact .idle
  | generate t dueAt =>
    obtain ⟨-, rfl⟩ := query_eq_some h
    exact .query (.inl (keepsPaid_redraw dueAt))
  | pay t payment =>
    obtain ⟨-, rfl⟩ := query_eq_some h
    exact .query (.inl (keepsPaid_pay payment))
  | flush t =>
    simp only [step] at h
    split at h
    · obtain rfl := Option.some.inj h
      exact .idle
    · rename_i l hl
      split_ifs at h
      · obtain rfl := Option.some.inj h
        exact .idle
      · obtain rfl := Option.some.inj h
        exact .flush hl
  | commit t =>
    simp only [step] at h
    split_ifs at h
    obtain rfl := Option.some.inj h
    exact .commit
  | rollback t =>
    obtain rfl := Option.some.inj h
    exact .rollback

/-! ## Overtaking -/

/-- After the payment, a session commits another status, which it has decided on for an invoice that it found unpaid. -/
def Overtakes (s : State τ) (a : Action τ) : Prop :=
  s.paid = true ∧ ∃ t l status, a = .commit t ∧ (s.session t).loaded = some l ∧ l.found ≠ .paid ∧
    (s.session t).written.status = some status ∧ status ≠ .paid

/-- What a session knows of the invoice: before the payment it has not found it paid, and if it has found it paid, it
leaves the status alone. -/
structure Session.Sound (paid : Bool) (x : Session) : Prop where
  loaded : x.loaded = none → x.written = {}
  unpaid : paid = false → ∀ l, x.loaded = some l → l.found ≠ .paid
  kept : ∀ l, x.loaded = some l → l.found = .paid →
    l.original.status = .paid ∧ l.current.status = .paid ∧ x.written.status = none

/-- The invoice is paid from the payment on. -/
structure Sound (s : State τ) : Prop where
  row : s.row.status = .paid ↔ s.paid = true
  session : ∀ t, (s.session t).Sound s.paid

end Steps

section Sound

variable {paid : Bool} {x : Session} {row : Columns}

theorem Session.sound_empty (paid : Bool) : Session.Sound paid {} where
  loaded _ := rfl
  unpaid _ l hl := by cases hl
  kept l hl := by cases hl

theorem Session.Sound.mono {paid' : Bool} (h : x.Sound paid) (hp : paid = true → paid' = true) : x.Sound paid' where
  loaded := h.loaded
  unpaid hp' l hl := by
    refine h.unpaid ?_ l hl
    by_contra hne
    rw [hp (by simpa using hne)] at hp'
    cases hp'
  kept := h.kept

/-- A session that holds the invoice as paid sees it so. -/
theorem Session.Sound.sees_paid (h : x.Sound paid) (hrow : row.status = .paid ↔ paid = true) {l : Loaded}
    (hl : x.loaded = some l) (hfound : l.found = .paid) : (x.sees row).status = .paid := by
  obtain ⟨-, -, hwritten⟩ := h.kept l hl hfound
  have hpaid : paid = true := by
    by_contra hne
    exact h.unpaid (by simpa using hne) l hl hfound
  simp [Session.sees, Changes.write, hwritten, hrow.mpr hpaid]

theorem Session.Sound.change {f : Columns → Columns} (h : x.Sound paid) (hrow : row.status = .paid ↔ paid = true)
    (hf : KeepsPaid f ∨ (x.sees row).status = .pending) : (x.change row f).Sound paid := by
  have hpending : (x.sees row).status = .paid → KeepsPaid f := by
    intro hpaid
    refine hf.resolve_right fun hp => ?_
    rw [hpaid] at hp
    cases hp
  cases hx : x.loaded with
  | none =>
    have hwritten := h.loaded hx
    have hsees : x.sees row = row := by simp [Session.sees, hwritten, Changes.write]
    have hload : x.load row = ⟨row.status, row, row⟩ := by simp [Session.load, hx, hsees]
    refine ⟨fun hn => by simp [Session.change] at hn, fun hp l hl => ?_, fun l hl hfound => ?_⟩
    · rw [Session.change, hload] at hl
      obtain rfl := Option.some.inj hl
      intro hpaid
      rw [hrow.mp hpaid] at hp
      cases hp
    · rw [Session.change, hload] at hl
      obtain rfl := Option.some.inj hl
      refine ⟨hfound, hpending (by rwa [hsees]) row hfound, ?_⟩
      rw [Session.change, hwritten]
  | some l₀ =>
    have hload : x.load row = l₀ := by simp [Session.load, hx]
    refine ⟨fun hn => by simp [Session.change] at hn, fun hp l hl => ?_, fun l hl hfound => ?_⟩
    · rw [Session.change, hload] at hl
      obtain rfl := Option.some.inj hl
      exact h.unpaid hp l₀ hx
    · rw [Session.change, hload] at hl
      obtain rfl := Option.some.inj hl
      obtain ⟨horiginal, hcurrent, hwritten⟩ := h.kept l₀ hx hfound
      exact ⟨horiginal, hpending (h.sees_paid hrow hx hfound) _ hcurrent, hwritten⟩

theorem Session.Sound.flush (h : x.Sound paid) {l : Loaded} (hl : x.loaded = some l) :
    Session.Sound paid { loaded := some { l with original := l.current }
                         written := x.written.after (.between l.original l.current) } where
  loaded hn := by cases hn
  unpaid hp l' hl' := by
    obtain rfl := Option.some.inj hl'
    exact h.unpaid hp l hl
  kept l' hl' hfound := by
    obtain rfl := Option.some.inj hl'
    obtain ⟨horiginal, hcurrent, hwritten⟩ := h.kept l hl hfound
    refine ⟨hcurrent, hcurrent, ?_⟩
    simp [Changes.after, Changes.between, horiginal, hcurrent, hwritten]

end Sound

section Runs

variable {τ : Type*} [DecidableEq τ] {s s' : State τ} {a : Action τ}

theorem Sound.set {t : τ} {x : Session} (h : Sound s) (hx : x.Sound s.paid) : Sound (s.set t x) where
  row := h.row
  session u := by
    by_cases hut : u = t
    · rw [hut, set_session_self]
      exact hx
    · rw [set_session_ne s x hut]
      exact h.session u

/-- A step that does not overtake the payment keeps the invoice sound. -/
theorem sound_step (h : Sound s) (ha : ¬ Overtakes s a) (hstep : step s a = some s') : Sound s' := by
  cases effect_of_step hstep with
  | idle => exact h
  | query hf => exact h.set ((h.session _).change h.row hf)
  | @flush t l hl =>
    have hlocked : Sound { s with lock := some t } := ⟨h.row, h.session⟩
    exact hlocked.set ((h.session t).flush hl)
  | @commit t =>
    have hx := h.session t
    have hmono : s.paid = true → (s.paid || (s.session t).pays) = true := fun hp => by rw [hp, Bool.true_or]
    have hrow : ((s.session t).sees s.row).status = .paid ↔ (s.paid || (s.session t).pays) = true := by
      cases hw : (s.session t).written.status with
      | none => simp [Session.sees, Changes.write, Session.pays, hw, h.row]
      | some status =>
        have hother : status ≠ .paid → s.paid = false := by
          intro hne
          by_contra hp
          cases hl : (s.session t).loaded with
          | none =>
            rw [hx.loaded hl] at hw
            cases hw
          | some l =>
            refine ha ⟨by simpa using hp, t, l, status, rfl, hl, fun hfound => ?_, hw, hne⟩
            rw [(hx.kept l hl hfound).2.2] at hw
            cases hw
        by_cases hpaid : status = .paid
        · simp [Session.sees, Changes.write, Session.pays, hw, hpaid]
        · simp [Session.sees, Changes.write, Session.pays, hw, hpaid, hother hpaid]
    have hcommitted : Sound ({ s with
        row := (s.session t).sees s.row
        paid := s.paid || (s.session t).pays }.unlock t) := ⟨hrow, fun u => (h.session u).mono hmono⟩
    exact hcommitted.set ⟨fun _ => rfl, (hx.mono hmono).unpaid, fun l hl hfound =>
      ⟨(hx.kept l hl hfound).1, (hx.kept l hl hfound).2.1, rfl⟩⟩
  | @rollback t =>
    have hunlocked : Sound (s.unlock t) := ⟨h.row, h.session⟩
    exact hunlocked.set (Session.sound_empty _)

/-- The invoice is not paid and no session has found it so. Nothing is written and not yet committed. -/
structure Start (s : State τ) : Prop where
  paid : s.paid = false
  row : s.row.status ≠ .paid
  written : ∀ t, (s.session t).written = {}
  found : ∀ t l, (s.session t).loaded = some l → l.found ≠ .paid

omit [DecidableEq τ] in
theorem Start.sound (h : Start s) : Sound s where
  row := iff_of_false h.row (by simp [h.paid])
  session t := ⟨fun _ => h.written t, fun _ => h.found t, fun l hl hfound => absurd hfound (h.found t l hl)⟩

omit [DecidableEq τ] in
theorem start_init {row : Columns} (h : row.status ≠ .paid) : Start (init row : State τ) where
  paid := rfl
  row := h
  written _ := rfl
  found _ _ hl := by cases hl

/-- In every state of the run after the commit of a payment the committed status is `paid`. -/
def PaymentKept (s : State τ) (as : List (Action τ)) : Prop :=
  ∀ bs cs t, as = bs ++ cs → run step s bs = some t → t.paid = true → t.row.status = .paid

/-- A commit that overtakes the payment takes it back. -/
theorem lost_of_overtakes (ha : Overtakes s a) (hstep : step s a = some s') :
    s'.paid = true ∧ s'.row.status ≠ .paid := by
  obtain ⟨hpaid, t, l, status, rfl, -, -, hwritten, hne⟩ := ha
  simp only [step] at hstep
  split_ifs at hstep
  obtain rfl := Option.some.inj hstep
  refine ⟨?_, ?_⟩
  · show (s.paid || (s.session t).pays) = true
    rw [hpaid, Bool.true_or]
  · show ((s.session t).sees s.row).status ≠ .paid
    rwa [Session.sees, Changes.write, hwritten, Option.getD_some]

/-- **When a payment stays**: in a run of any number of sessions, the invoice is `paid` from the commit of a payment on
just if no session commits after it a status that it has decided on for an invoice that it had found unpaid. -/
theorem payment_kept_iff {as : List (Action τ)} (h₀ : Start s) (h : run step s as = some s') :
    PaymentKept s as ↔ Along step (fun s a => ¬ Overtakes s a) s as := by
  constructor
  · intro hkept
    refine along_of_at h fun bs a cs t has ht hover => ?_
    rw [has] at h
    obtain ⟨u, hu, h⟩ := run_append_iff.mp h
    obtain rfl : t = u := Option.some.inj (ht.symm.trans hu)
    obtain ⟨v, hv, -⟩ := run_cons_iff.mp h
    obtain ⟨hpaid, hlost⟩ := lost_of_overtakes hover hv
    refine hlost (hkept (bs ++ [a]) cs v ?_ (run_snoc_iff.mpr ⟨t, ht, hv⟩) hpaid)
    rw [has, List.append_assoc, List.singleton_append]
  · rintro halong bs cs t rfl ht hpaid
    have hsound : Sound t :=
      run_inv_along (fun _ _ _ hs ha hstep => sound_step hs ha hstep) h₀.sound ((along_append ht).mp halong).1 ht
    exact hsound.row.mpr hpaid

end Runs

/-! ## Sessions that run alone -/

/-- The columns of an invoice. -/
def columns (inv : BillingInvoice) : Columns := ⟨inv.status, inv.dueAt⟩

section Solo

variable {τ : Type*} [DecidableEq τ]

theorem write_between (original current : Columns) : (Changes.between original current).write original = current := by
  obtain ⟨status, dueAt⟩ := current
  simp only [Changes.write, Changes.between, Columns.mk.injEq]
  constructor
  · split_ifs with h
    · exact h.symm
    · rfl
  · split_ifs with h
    · exact h.symm
    · rfl

/-- A commit of a session with nothing to flush. -/
theorem commit_row {s : State τ} {t : τ} (h : (s.session t).clean = true) :
    (step s (.commit t)).map (·.row) = some ((s.session t).sees s.row) := by
  simp only [step, if_pos h, Option.map_some]
  rfl

/-- A session that makes `f` of the invoice and commits. -/
theorem solo_change (row : Columns) (t : τ) (f : Columns → Columns) :
    (run step ((init row : State τ).set t (Session.change {} row f)) [.flush t, .commit t]).map (·.row) =
      some (f row) := by
  let s₁ := (init row : State τ).set t (Session.change {} row f)
  have hsession : s₁.session t = Session.change {} row f := set_session_self _ t _
  have hloaded : (s₁.session t).loaded = some ⟨row.status, row, f row⟩ := by
    rw [hsession]
    rfl
  have hflush : ∃ s₂, step s₁ (.flush t) = some s₂ ∧ (s₂.session t).clean = true ∧
      (s₂.session t).sees s₂.row = f row := by
    by_cases hf : row = f row
    · refine ⟨s₁, by simp only [step, hloaded, if_pos hf], ?_, ?_⟩
      · simp [Session.clean, hloaded, ← hf]
      · rw [hsession]
        exact hf
    · have hlock : s₁.lock = none ∨ s₁.lock = some t := .inl rfl
      refine ⟨_, by simp only [step, hloaded, if_neg hf, if_pos hlock]; rfl, ?_, ?_⟩
      · rw [set_session_self]
        simp [Session.clean]
      · rw [set_session_self, hsession]
        have hbetween := write_between row (f row)
        have hafter : Changes.after {} (.between row (f row)) = .between row (f row) := by simp [Changes.after]
        show ((Changes.after {} (.between row (f row))).write row) = f row
        rw [hafter, hbetween]
  obtain ⟨s₂, hs₂, hclean, hsees⟩ := hflush
  show (run step s₁ [.flush t, .commit t]).map (·.row) = some (f row)
  have hcommit := commit_row hclean
  cases hs₃ : step s₂ (.commit t) with
  | none =>
    rw [hs₃] at hcommit
    cases hcommit
  | some s₃ =>
    rw [hs₃] at hcommit
    rw [run_cons_iff.mpr ⟨s₂, hs₂, run_cons_iff.mpr ⟨s₃, hs₃, rfl⟩⟩, hcommit, hsees]

/-- A query of a session that has not looked at the invoice, and its commit. -/
theorem solo_query {row : Columns} {t : τ} {a : Action τ} (f : Columns → Columns)
    (h : step (init row) a = some ((init row).set t (Session.change {} row f))) :
    (run step (init row : State τ) [a, .flush t, .commit t]).map (·.row) = some (f row) := by
  rw [← solo_change row t f, run, h, Option.bind_some]

/-- A refresh that is alone leaves the columns that `refresh_billing_statuses` leaves. -/
theorem refresh_solo {db : Database} {i : InvoiceId} {inv : BillingInvoice} (hi : db.invoices[i]? = some inv)
    (now : Instant) (t : τ) :
    (run step (init (columns inv) : State τ) [.refresh t now, .flush t, .commit t]).map (·.row) =
      ((letFallDue now db).invoices[i]?).map columns := by
  rw [getElem?_letFallDue now hi, Option.map_some]
  have hdue : (columns inv).fallsDue now = inv.fallsDue now := rfl
  by_cases hf : inv.fallsDue now = true
  · rw [if_pos hf]
    refine solo_query (fun columns => { columns with status := .overdue }) ?_
    have hsees : (({} : Session).sees (columns inv)).fallsDue now = true := hdue.trans hf
    show State.query _ t (if (({} : Session).sees (columns inv)).fallsDue now then _ else _) = _
    rw [if_pos hsees]
    rfl
  · rw [if_neg hf]
    have hsees : ¬ (({} : Session).sees (columns inv)).fallsDue now = true := by rwa [← hdue] at hf
    have hquery : step (init (columns inv) : State τ) (.refresh t now) = some (init (columns inv)) := by
      show State.query _ t (if (({} : Session).sees (columns inv)).fallsDue now then _ else _) = _
      rw [if_neg hsees]
      exact congrArg some (set_session _ t)
    rw [run, hquery, Option.bind_some]
    rfl

/-- A generation that is alone leaves the columns that `generate_monthly_invoices` leaves when it comes to the invoice. -/
theorem generate_solo {db : Database} {g : Generation} {c : ClientId} {i : InvoiceId} {inv : BillingInvoice}
    (hc : c < db.clients.length) (hi : db.invoices.findIdx? (g.bills c) = some i) (hinv : db.invoices[i]? = some inv)
    (t : τ) :
    (run step (init (columns inv) : State τ) [.generate t g.dueAt, .flush t, .commit t]).map (·.row) =
      ((generateInvoice g db c).invoices[i]?).map columns := by
  rw [solo_query (Columns.redraw g.dueAt) rfl]
  obtain ⟨hlt, -⟩ := List.getElem?_eq_some_iff.mp hinv
  simp only [generateInvoice, List.getElem?_eq_getElem hc, hi, hinv, Option.any_some, Bool.or_eq_true,
    decide_eq_true_eq]
  by_cases hclosed : inv.status = .paid ∨ inv.status = .cancelled
  · have hredraw : (columns inv).redraw g.dueAt = columns inv := if_pos hclosed
    rw [if_pos hclosed, hredraw, hinv, Option.map_some]
  · have hredraw : (columns inv).redraw g.dueAt = ⟨.pending, some g.dueAt⟩ := if_neg hclosed
    rw [if_neg hclosed, hredraw, List.getElem?_set_self hlt, Option.map_some]
    rfl

/-- A payment that is alone leaves the columns that `mark_invoice_paid` leaves at its first commit. -/
theorem markInvoicePaid_solo {db : Database} {i : InvoiceId} {inv : BillingInvoice} (hi : db.invoices[i]? = some inv)
    (days : ℤ) (now later : Instant) (payload : InvoiceMarkPaidRequest) (t : τ) :
    (run step (init (columns inv) : State τ) [.pay t .markInvoicePaid, .flush t, .commit t]).map (·.row) =
      (((committed (markInvoicePaid days now later i payload db)).headD db).invoices[i]?).map columns := by
  rw [solo_query (Columns.pay .markInvoicePaid) rfl]
  by_cases hrefused : Payment.refuses .markInvoicePaid inv.status = true
  · have hpay : (columns inv).pay .markInvoicePaid = columns inv := if_pos hrefused
    have hnothing : committed (markInvoicePaid days now later i payload db) = [] := by
      rcases (by simpa [Payment.refuses] using hrefused : inv.status = .cancelled ∨ inv.status = .paid) with hs | hs <;>
        simp [markInvoicePaid, hi, hs, committed]
    rw [hpay, hnothing, List.headD_nil, hi, Option.map_some]
  · have hpay : (columns inv).pay .markInvoicePaid = ⟨.paid, inv.dueAt⟩ := if_neg hrefused
    obtain ⟨hcancelled, hpaid⟩ : inv.status ≠ .cancelled ∧ inv.status ≠ .paid := by
      simpa [Payment.refuses] using hrefused
    rw [hpay]
    simp only [markInvoicePaid, hi, if_neg hcancelled, if_neg hpaid, committed, List.headD_cons,
      Database.setClient_invoices, Database.setOpenPayment_invoices]
    simp [Database.setInvoice, hi, columns]

/-- A payment that is alone leaves the columns that `pix_webhook` leaves. -/
theorem pixWebhook_solo {db : Database} {i : InvoiceId} {inv : BillingInvoice} (hi : db.invoices[i]? = some inv)
    (days : ℤ) (now later : Instant) {payload : WebhookPayload} (hid : payload.invoiceId = some i)
    (hstatus : payload.status = "paid") (t : τ) :
    (run step (init (columns inv) : State τ) [.pay t .pixWebhook, .flush t, .commit t]).map (·.row) =
      (((committed (pixWebhook days now later payload db)).headD db).invoices[i]?).map columns := by
  rw [solo_query (Columns.pay .pixWebhook) rfl]
  by_cases hpaid : inv.status = .paid
  · have hpay : (columns inv).pay .pixWebhook = columns inv := if_pos (decide_eq_true hpaid)
    rw [hpay]
    simp [pixWebhook, hid, hi, hpaid, committed]
  · have hpay : (columns inv).pay .pixWebhook = ⟨.paid, inv.dueAt⟩ := if_neg fun h => hpaid (of_decide_eq_true h)
    have hrefresh : ∀ w : Database, w.invoices[i]? = some { inv with status := .paid, paidAt := some now } →
        (refreshBillingStatuses later days w).invoices[i]? = some { inv with status := .paid, paidAt := some now } :=
      fun w hw => (getElem?_letFallDue later hw).trans rfl
    rw [hpay]
    simp only [pixWebhook, hid, hi, if_neg hpaid, if_pos hstatus, committed, List.headD_cons]
    rw [hrefresh]
    · rfl
    · rw [Database.setOpenPayment_invoices]
      simp [Database.setInvoice, hi]

end Solo

/-! ## A payment while a page is refreshed -/

/-- Session `true` pays the invoice, session `false` refreshes the statuses. The invoice was due at 5. -/
def dueInvoice : State Bool := init { status := .pending, dueAt := some 5 }

/-- The refresh comes first. -/
def refreshedFirst : List (Action Bool) :=
  [.refresh false 10, .flush false, .commit false, .pay true .markInvoicePaid, .flush true, .commit true,
    .refresh true 11, .commit true]

theorem start_dueInvoice : Start dueInvoice := start_init (by decide)

theorem payment_kept_refreshedFirst :
    (run step dueInvoice refreshedFirst).isSome = true ∧
      (PaymentKept dueInvoice refreshedFirst ↔
        Along step (fun s a => ¬ Overtakes s a) dueInvoice refreshedFirst) := by
  have hrun : (run step dueInvoice refreshedFirst).isSome = true := by decide +kernel
  obtain ⟨s, hs⟩ := Option.isSome_iff_exists.mp hrun
  exact ⟨hrun, payment_kept_iff start_dueInvoice hs⟩

/-- **A payment is undone**: a page has selected the pending invoice for its refresh before the payment, and writes
`overdue` after it. -/
theorem payment_undone : ¬ ∀ as : List (Action Bool), (run step dueInvoice as).isSome = true →
    PaymentKept dueInvoice as := by
  intro h
  let as : List (Action Bool) :=
    [.refresh false 10, .pay true .markInvoicePaid, .flush true, .commit true, .flush false, .commit false]
  have hrun : (run step dueInvoice as).isSome = true := by decide +kernel
  have hlost : ∃ s, run step dueInvoice as = some s ∧ s.paid = true ∧ s.row.status = .overdue := ⟨_, rfl, rfl, rfl⟩
  obtain ⟨s, hs, hpaid, hstatus⟩ := hlost
  have hkept := h as hrun as [] s (List.append_nil as).symm hs hpaid
  rw [hstatus] at hkept
  cases hkept

end LlmStore.Billing.PaymentRace
