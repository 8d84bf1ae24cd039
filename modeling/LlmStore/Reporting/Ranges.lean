import LlmStore.Billing.Periods
import LlmStore.Reporting.Exports

/-!
# Ranges of days

The `start_date` and `end_date` of an export. A clause on a column of times compares with the midnight of the first day
and with that of the day after the last one, a clause on a column of dates with the days themselves; both select the rows
of the days from the first through the last (`mem_exported_iff`). The exports of two ranges of which one ends on the day
before the other begins are, one behind the other, the export of both (`exported_append`).
-/

namespace LlmStore.Calendar

/-! ## Days one after the other -/

/-- The years that a `date` of Python can have. -/
def Date.InRange (d : Date) : Prop := 1 ≤ d.year ∧ d.year ≤ 9999

instance Date.decidableLe (a b : Date) : Decidable (a ≤ b) := decidable_of_iff _ Date.le_iff.symm

/-- `d + timedelta(days=1)`; `none` is `OverflowError`. -/
def Date.tomorrow (d : Date) : Option Date :=
  if hday : d.day < daysInMonth d.year d.month then
    some { d with day := d.day + 1, day_pos := Nat.succ_pos _, day_le := hday }
  else if hmonth : d.month < 12 then
    some ⟨d.year, d.month + 1, 1, Nat.succ_pos _, hmonth, Nat.one_pos, daysInMonth_pos _ _⟩
  else if d.year < 9999 then some ⟨d.year + 1, 1, 1, Nat.one_pos, Nat.le_add_left 1 11, Nat.one_pos, daysInMonth_pos _ _⟩
  else none

theorem Date.daysBeforeMonth_succ (y : ℕ) {m : ℕ} (hm : 1 ≤ m) :
    Date.daysBeforeMonth y (m + 1) = Date.daysBeforeMonth y m + daysInMonth y m := by
  obtain ⟨m, rfl⟩ := Nat.exists_eq_add_of_le' hm
  simp [Date.daysBeforeMonth, List.range_succ]

theorem Date.daysBeforeMonth_december (y : ℕ) :
    Date.daysBeforeMonth y 12 + daysInMonth y 12 = if isLeap y then 366 else 365 := by
  cases hy : isLeap y <;> simp [Date.daysBeforeMonth, daysInMonth, List.range_succ, hy]

/-- A day of a month is not behind the first of the next one. -/
theorem Date.daysBeforeMonth_le {y m m' : ℕ} (hm : 1 ≤ m) (hlt : m < m') :
    Date.daysBeforeMonth y m + daysInMonth y m ≤ Date.daysBeforeMonth y m' := by
  induction m' with
  | zero => omega
  | succ m' ih =>
    rcases Nat.lt_succ_iff_lt_or_eq.mp hlt with hlt | rfl
    · have hnext := Date.daysBeforeMonth_succ y (m := m') (by omega)
      have := ih hlt
      omega
    · rw [Date.daysBeforeMonth_succ y hm]

theorem Date.daysBeforeYear_le {y y' : ℕ} (hy : 1 ≤ y) (hlt : y < y') :
    Date.daysBeforeYear y + (if isLeap y then 366 else 365) ≤ Date.daysBeforeYear y' := by
  induction y' with
  | zero => omega
  | succ y' ih =>
    rcases Nat.lt_succ_iff_lt_or_eq.mp hlt with hlt | rfl
    · have hnext := Date.daysBeforeYear_succ (y := y') (by omega)
      have := ih hlt
      omega
    · rw [Date.daysBeforeYear_succ hy]

/-- The days of a year. -/
theorem Date.dayOfYear_le (d : Date) :
    Date.daysBeforeMonth d.year d.month + d.day ≤ if isLeap d.year then 366 else 365 := by
  have hday := d.day_le
  have hdecember := Date.daysBeforeMonth_december d.year
  rcases Nat.lt_or_ge d.month 12 with hm | hm
  · have := Date.daysBeforeMonth_le (y := d.year) d.month_pos hm
    omega
  · have hm : d.month = 12 := Nat.le_antisymm d.month_le hm
    rw [hm] at hday ⊢
    omega

theorem Date.toOrdinal_lt {a b : Date} (ha : 1 ≤ a.year) (h : ¬ b ≤ a) : a.toOrdinal < b.toOrdinal := by
  have hday := a.day_le
  have hpos := b.day_pos
  have hyear := a.dayOfYear_le
  rw [Date.le_iff] at h
  unfold Date.toOrdinal
  rcases Nat.lt_trichotomy a.year b.year with hy | hy | hy
  · have := Date.daysBeforeYear_le ha hy
    omega
  · rcases Nat.lt_trichotomy a.month b.month with hm | hm | hm
    · have := Date.daysBeforeMonth_le (y := a.year) a.month_pos hm
      rw [← hy]
      omega
    · rw [← hy, ← hm]
      omega
    · omega
  · omega

/-- Dates compare by their ordinals. -/
theorem Date.toOrdinal_le_iff {a b : Date} (ha : 1 ≤ a.year) (hb : 1 ≤ b.year) : a.toOrdinal ≤ b.toOrdinal ↔ a ≤ b := by
  constructor
  · intro h
    by_contra hab
    have := Date.toOrdinal_lt hb hab
    omega
  · intro h
    by_cases hba : b ≤ a
    · rw [Date.le_antisymm h hba]
    · exact (Date.toOrdinal_lt ha hba).le

theorem Date.toOrdinal_tomorrow {d e : Date} (hd : 1 ≤ d.year) (h : d.tomorrow = some e) :
    e.toOrdinal = d.toOrdinal + 1 ∧ 1 ≤ e.year := by
  have hpos := d.day_pos
  have hle := d.day_le
  unfold Date.tomorrow at h
  split_ifs at h with hday hmonth hyear
  · obtain rfl := Option.some.inj h
    exact ⟨rfl, hd⟩
  · obtain rfl := Option.some.inj h
    have hnext := Date.daysBeforeMonth_succ d.year d.month_pos
    refine ⟨?_, hd⟩
    simp only [Date.toOrdinal]
    omega
  · obtain rfl := Option.some.inj h
    have hmonth' : d.month = 12 := Nat.le_antisymm d.month_le (not_lt.mp hmonth)
    have hnext := Date.daysBeforeYear_succ hd
    have hdecember := Date.daysBeforeMonth_december d.year
    have hjanuary : Date.daysBeforeMonth (d.year + 1) 1 = 0 := rfl
    refine ⟨?_, Nat.succ_pos _⟩
    simp only [Date.toOrdinal, hmonth'] at hday hle ⊢
    omega

/-- No day lies between. -/
theorem Date.le_or_tomorrow_le {d e x : Date} (hd : 1 ≤ d.year) (hx : 1 ≤ x.year) (h : d.tomorrow = some e) :
    ¬ x ≤ d ↔ e ≤ x := by
  obtain ⟨hnext, he⟩ := Date.toOrdinal_tomorrow hd h
  rw [← Date.toOrdinal_le_iff hx hd, ← Date.toOrdinal_le_iff he hx]
  omega

theorem Date.le_tomorrow {d e : Date} (hd : 1 ≤ d.year) (h : d.tomorrow = some e) : d ≤ e := by
  obtain ⟨hnext, he⟩ := Date.toOrdinal_tomorrow hd h
  rw [← Date.toOrdinal_le_iff hd he]
  omega

/-- `datetime.combine(d, datetime.min.time())`. -/
def Date.midnight (d : Date) : Instant := (d.toOrdinal : ℤ) * microsPerDay

theorem Datetime.midnight_le_iff (d : Date) (t : Datetime) : d.midnight ≤ t.instant ↔ d.toOrdinal ≤ t.date.toOrdinal := by
  have hlt := t.micros.isLt
  change (d.toOrdinal : ℤ) * 86400000000 ≤ (t.date.toOrdinal : ℤ) * 86400000000 + (t.micros.val : ℤ) ↔ _
  omega

theorem Datetime.lt_midnight_iff (d : Date) (t : Datetime) :
    t.instant < d.midnight ↔ t.date.toOrdinal < d.toOrdinal := by
  rw [← not_le, Datetime.midnight_le_iff, not_le]

end LlmStore.Calendar

namespace LlmStore.Reporting

open LlmStore.Calendar

/-! ## The clauses -/

/-- `_date_range_clause`. -/
def dateRangeClause (startDate endDate : Option Date) (column : Date) : Bool :=
  startDate.all (fun d => decide (d ≤ column)) && endDate.all fun d => decide (column ≤ d)

/-- From the midnight of one day on, before the midnight of another. -/
def betweenMidnights (startDate after : Option Date) (column : Instant) : Bool :=
  startDate.all (fun d => decide (d.midnight ≤ column)) && after.all fun d => decide (column < d.midnight)

/-- `_datetime_range_clause`; `none` is the `OverflowError` of the day after the last one. -/
def datetimeRangeClause (startDate endDate : Option Date) : Option (Instant → Bool) :=
  match endDate with
  | none => some (betweenMidnights startDate none)
  | some d => d.tomorrow.map fun after => betweenMidnights startDate (some after)

/-- `_export_params`, without the format. -/
structure ExportParams where
  startDate : Option Date
  endDate : Option Date
  clientId : Option Uuid

namespace ExportName

/-- The column that a range of times is about. -/
def created : (x : ExportName) → x.Row → Datetime
  | clients => ClientRow.createdAt
  | usage => UsageRecordRow.createdAt
  | invoices => InvoiceRow.createdAt
  | payments => PaymentRow.createdAt
  | securityEvents => SecurityEventRow.createdAt
  | requestLogs => RequestLogRow.createdAt

/-- The column that is compared with `client_id`. -/
def client : (x : ExportName) → x.Row → Option Uuid
  | clients => fun row => some row.id
  | usage => fun row => some row.clientId
  | invoices => fun row => some row.clientId
  | payments => fun row => some row.clientId
  | securityEvents => SecurityEventRow.clientId
  | requestLogs => fun row => some row.clientId

/-- The clauses on the range: on the start of the period for the usage, on the creation for the others. -/
def rangeClause (startDate endDate : Option Date) : (x : ExportName) → Option (x.Row → Bool)
  | usage => some fun record => dateRangeClause startDate endDate record.periodStart
  | x => (datetimeRangeClause startDate endDate).map fun clause row => clause (x.created row).instant

def clauses (x : ExportName) (params : ExportParams) : Option (x.Row → Bool) :=
  (x.rangeClause params.startDate params.endDate).map fun range row =>
    range row && params.clientId.all fun id => decide (x.client row = some id)

/-- `order_by`: a row may stand before another. -/
def Before : (x : ExportName) → x.Row → x.Row → Prop
  | usage => fun a b => b.periodStart ≤ a.periodStart ∧
      (a.periodStart = b.periodStart → b.createdAt.instant ≤ a.createdAt.instant)
  | x => fun a b => (x.created b).instant ≤ (x.created a).instant

/-- The rows are an answer to the query: those that meet the clauses, in the order that is asked for. Rows that the order
does not tell apart come in any order. -/
structure Exported (x : ExportName) (table : List x.Row) (params : ExportParams) (rows : List x.Row) : Prop where
  selected : ∃ clause, x.clauses params = some clause ∧ rows.Perm (table.filter clause)
  ordered : rows.Pairwise x.Before

/-- The day that the range is about. -/
def day : (x : ExportName) → x.Row → Date
  | usage => UsageRecordRow.periodStart
  | x => fun row => (x.created row).date

end ExportName

/-! ## The days of a range -/

/-- The dates are such as `date` can hold. -/
structure ExportParams.Valid (params : ExportParams) : Prop where
  startDate : ∀ d ∈ params.startDate, 1 ≤ d.year
  endDate : ∀ d ∈ params.endDate, 1 ≤ d.year

/-- The day is none before the first and none behind the last. -/
def ExportParams.Covers (params : ExportParams) (day : Date) : Prop :=
  (∀ d ∈ params.startDate, d ≤ day) ∧ ∀ d ∈ params.endDate, day ≤ d

section Days

variable {params : ExportParams}

theorem dateRangeClause_iff (day : Date) :
    dateRangeClause params.startDate params.endDate day = true ↔ params.Covers day := by
  simp [dateRangeClause, ExportParams.Covers, Option.all_eq_true]

theorem datetimeRangeClause_iff (hparams : params.Valid) {clause : Instant → Bool}
    (h : datetimeRangeClause params.startDate params.endDate = some clause) {t : Datetime} (ht : 1 ≤ t.date.year) :
    clause t.instant = true ↔ params.Covers t.date := by
  have hfirst : params.startDate.all (fun d => decide (d.midnight ≤ t.instant)) = true ↔
      ∀ d ∈ params.startDate, d ≤ t.date := by
    rw [Option.all_eq_true]
    refine forall₂_congr fun d hd => ?_
    rw [decide_eq_true_eq, Datetime.midnight_le_iff, Date.toOrdinal_le_iff (hparams.startDate d hd) ht]
  cases hend : params.endDate with
  | none =>
    simp only [datetimeRangeClause, hend, Option.some.injEq] at h
    rw [← h, betweenMidnights, Option.all_none, Bool.and_true, hfirst]
    simp [ExportParams.Covers, hend]
  | some last =>
    simp only [datetimeRangeClause, hend, Option.map_eq_some_iff] at h
    obtain ⟨after, hafter, h⟩ := h
    have hlast : t.instant < after.midnight ↔ t.date ≤ last := by
      have hyear := hparams.endDate last hend
      have hnext := (Date.toOrdinal_tomorrow hyear hafter).2
      rw [Datetime.lt_midnight_iff, ← not_le, Date.toOrdinal_le_iff hnext ht, ← Date.le_or_tomorrow_le hyear ht hafter,
        not_not]
    rw [← h, betweenMidnights, Option.all_some, Bool.and_eq_true, hfirst, decide_eq_true_eq, hlast]
    simp [ExportParams.Covers, hend]

theorem rangeClause_iff (hparams : params.Valid) {x : ExportName} {clause : x.Row → Bool}
    (h : x.rangeClause params.startDate params.endDate = some clause) {row : x.Row} (hrow : 1 ≤ (x.day row).year) :
    clause row = true ↔ params.Covers (x.day row) := by
  have htime : ∀ created : x.Row → Datetime, 1 ≤ (created row).date.year →
      (datetimeRangeClause params.startDate params.endDate).map (fun clause row => clause (created row).instant) =
        some clause → (clause row = true ↔ params.Covers (created row).date) := by
    intro created hyear hclause
    obtain ⟨clause', hclause', rfl⟩ := Option.map_eq_some_iff.mp hclause
    exact datetimeRangeClause_iff hparams hclause' hyear
  cases x with
  | usage =>
    obtain rfl := Option.some.inj h
    exact dateRangeClause_iff row.periodStart
  | clients => exact htime _ hrow h
  | invoices => exact htime _ hrow h
  | payments => exact htime _ hrow h
  | securityEvents => exact htime _ hrow h
  | requestLogs => exact htime _ hrow h

/-- The client that is asked for, if one is. -/
def ExportParams.Concerns (params : ExportParams) (client : Option Uuid) : Prop :=
  ∀ id ∈ params.clientId, client = some id

theorem clauses_iff (hparams : params.Valid) {x : ExportName} {clause : x.Row → Bool}
    (h : x.clauses params = some clause) {row : x.Row} (hrow : 1 ≤ (x.day row).year) :
    clause row = true ↔ params.Covers (x.day row) ∧ params.Concerns (x.client row) := by
  obtain ⟨range, hrange, rfl⟩ := Option.map_eq_some_iff.mp h
  rw [Bool.and_eq_true, rangeClause_iff hparams hrange hrow, Option.all_eq_true]
  simp [ExportParams.Concerns]

/-- An export has the rows of the days from the first through the last, both included. -/
theorem mem_exported_iff (hparams : params.Valid) {x : ExportName} {table rows : List x.Row}
    (h : x.Exported table params rows) {row : x.Row} (hrow : 1 ≤ (x.day row).year) :
    row ∈ rows ↔ row ∈ table ∧ params.Covers (x.day row) ∧ params.Concerns (x.client row) := by
  obtain ⟨clause, hclause, hperm⟩ := h.selected
  rw [hperm.mem_iff, List.mem_filter, clauses_iff hparams hclause hrow]

end Days

/-! ## Adjacent ranges -/

section Adjacent

variable {x : ExportName}

/-- A row of a later day stands before one of an earlier day. -/
theorem before_of_day {a b : x.Row} (ha : 1 ≤ (x.day a).year) (hb : 1 ≤ (x.day b).year) (h : ¬ x.day a ≤ x.day b) :
    x.Before a b := by
  have hlt := Date.toOrdinal_lt hb h
  have htime : ∀ s t : Datetime, s.date.toOrdinal < t.date.toOrdinal → s.instant ≤ t.instant := by
    intro s t hst
    have hs := s.micros.isLt
    change (s.date.toOrdinal : ℤ) * 86400000000 + (s.micros.val : ℤ) ≤
      (t.date.toOrdinal : ℤ) * 86400000000 + (t.micros.val : ℤ)
    omega
  cases x with
  | usage =>
    refine ⟨(Date.toOrdinal_le_iff hb ha).mp hlt.le, fun heq => ?_⟩
    have hlt' : b.periodStart.toOrdinal < a.periodStart.toOrdinal := hlt
    rw [heq] at hlt'
    exact absurd hlt' (lt_irrefl _)
  | clients => exact htime _ _ hlt
  | invoices => exact htime _ _ hlt
  | payments => exact htime _ _ hlt
  | securityEvents => exact htime _ _ hlt
  | requestLogs => exact htime _ _ hlt

/-- Whether a query raises depends on the last day only. -/
theorem clauses_of_endDate {params params' : ExportParams} (h : params'.endDate = params.endDate) {clause : x.Row → Bool}
    (hclause : x.clauses params = some clause) : ∃ clause', x.clauses params' = some clause' := by
  have htime : (datetimeRangeClause params.startDate params.endDate).isSome →
      (datetimeRangeClause params'.startDate params'.endDate).isSome := by
    rw [h]
    cases params.endDate with
    | none => exact fun _ => rfl
    | some last => simp only [datetimeRangeClause, Option.isSome_map, imp_self]
  obtain ⟨range, hrange, -⟩ := Option.map_eq_some_iff.mp hclause
  have hsome : (x.rangeClause params'.startDate params'.endDate).isSome := by
    cases x with
    | usage => rfl
    | _ =>
      obtain ⟨_, hr, -⟩ := Option.map_eq_some_iff.mp hrange
      exact Option.isSome_map.trans (htime (Option.isSome_iff_exists.mpr ⟨_, hr⟩))
  obtain ⟨range', hrange'⟩ := Option.isSome_iff_exists.mp hsome
  exact ⟨_, by rw [ExportName.clauses, hrange', Option.map_some]⟩

section Split

variable {params : ExportParams} {day next d : Date}

/-- The days behind a day that is covered. -/
theorem covers_later_iff (hday : 1 ≤ day.year) (hnext : day.tomorrow = some next) (hcovers : params.Covers day)
    (hd : 1 ≤ d.year) :
    ExportParams.Covers { params with startDate := some next } d ↔ params.Covers d ∧ ¬ d ≤ day := by
  rw [Date.le_or_tomorrow_le hday hd hnext]
  constructor
  · rintro ⟨hfirst, hlast⟩
    have hle : next ≤ d := hfirst next rfl
    have hday' : day ≤ d := Date.le_trans (Date.le_tomorrow hday hnext) hle
    exact ⟨⟨fun first hfirst => Date.le_trans (hcovers.1 first hfirst) hday', hlast⟩, hle⟩
  · rintro ⟨⟨-, hlast⟩, hle⟩
    exact ⟨fun first hfirst => Option.some.inj hfirst ▸ hle, hlast⟩

/-- The other days. -/
theorem covers_earlier_iff (hcovers : params.Covers day) :
    ExportParams.Covers { params with endDate := some day } d ↔ params.Covers d ∧ d ≤ day := by
  constructor
  · rintro ⟨hfirst, hlast⟩
    have hle : d ≤ day := hlast day rfl
    exact ⟨⟨hfirst, fun last hlast => Date.le_trans hle (hcovers.2 last hlast)⟩, hle⟩
  · rintro ⟨⟨hfirst, -⟩, hle⟩
    exact ⟨hfirst, fun last hlast => Option.some.inj hlast ▸ hle⟩

end Split

/-- The export from the first day through the last is the export from the day after some day between, followed by the one
through that day. -/
theorem exported_append {params : ExportParams} (hparams : params.Valid) {table newer older : List x.Row}
    (htable : ∀ row ∈ table, 1 ≤ (x.day row).year) {day next : Date} (hday : 1 ≤ day.year)
    (hnext : day.tomorrow = some next) (hcovers : params.Covers day)
    (hnewer : x.Exported table { params with startDate := some next } newer)
    (holder : x.Exported table { params with endDate := some day } older) :
    x.Exported table params (newer ++ older) := by
  have hnextYear := (Date.toOrdinal_tomorrow hday hnext).2
  have hnewerParams : ExportParams.Valid { params with startDate := some next } :=
    ⟨fun d hd => Option.some.inj hd ▸ hnextYear, hparams.endDate⟩
  have holderParams : ExportParams.Valid { params with endDate := some day } :=
    ⟨hparams.startDate, fun d hd => Option.some.inj hd ▸ hday⟩
  obtain ⟨newerClause, hnewerClause, hnewerPerm⟩ := hnewer.selected
  obtain ⟨olderClause, holderClause, holderPerm⟩ := holder.selected
  have hend : params.endDate = ExportParams.endDate { params with startDate := some next } := rfl
  obtain ⟨clause, hclause⟩ := clauses_of_endDate hend hnewerClause
  have hnewerEq : ∀ row ∈ table, newerClause row = (clause row && !decide (x.day row ≤ day)) := by
    intro row hrow
    have hyear := htable row hrow
    rw [Bool.eq_iff_iff, Bool.and_eq_true, Bool.not_eq_true', decide_eq_false_iff_not, clauses_iff hparams hclause hyear,
      clauses_iff hnewerParams hnewerClause hyear, covers_later_iff hday hnext hcovers hyear]
    exact and_right_comm
  have holderEq : ∀ row ∈ table, olderClause row = (clause row && decide (x.day row ≤ day)) := by
    intro row hrow
    have hyear := htable row hrow
    rw [Bool.eq_iff_iff, Bool.and_eq_true, decide_eq_true_eq, clauses_iff hparams hclause hyear,
      clauses_iff holderParams holderClause hyear, covers_earlier_iff hcovers]
    exact and_right_comm
  refine ⟨⟨clause, hclause, (hnewerPerm.append holderPerm).trans ?_⟩, ?_⟩
  · have hsplit := List.filter_append_perm (fun row => !decide (x.day row ≤ day)) (table.filter clause)
    simp only [Bool.not_not, List.filter_filter] at hsplit
    rw [List.filter_congr hnewerEq, List.filter_congr holderEq]
    simpa only [Bool.and_comm] using hsplit
  · rw [List.pairwise_append]
    refine ⟨hnewer.ordered, holder.ordered, fun a ha b hb => ?_⟩
    have ha' := List.mem_filter.mp (hnewerPerm.mem_iff.mp ha)
    have hb' := List.mem_filter.mp (holderPerm.mem_iff.mp hb)
    have hlater : ¬ x.day a ≤ day := by simpa using (Bool.and_eq_true_iff.mp ((hnewerEq a ha'.1).symm.trans ha'.2)).2
    have hearlier : x.day b ≤ day := by simpa using (Bool.and_eq_true_iff.mp ((holderEq b hb'.1).symm.trans hb'.2)).2
    exact before_of_day (htable a ha'.1) (htable b hb'.1) fun hab => hlater (Date.le_trans hab hearlier)

theorem lastOfJanuary_exists : (1 ≤ 1 ∧ 1 ≤ 12) ∧ 1 ≤ 31 ∧ 31 ≤ daysInMonth 2026 1 := by decide

def lastOfJanuary : Date := .ofExists lastOfJanuary_exists

theorem firstOfFebruary_exists : (1 ≤ 2 ∧ 2 ≤ 12) ∧ 1 ≤ 1 ∧ 1 ≤ daysInMonth 2026 2 := by decide

def firstOfFebruary : Date := .ofExists firstOfFebruary_exists

def winter : ExportParams := ⟨some januaryUsage.periodStart, some firstOfFebruary, none⟩

def februaryUsage : UsageRecordRow := { januaryUsage with id := 3, periodStart := firstOfFebruary }

theorem winter_valid : winter.Valid where
  startDate := fun d hd => Option.some.inj hd ▸ (by decide : 1 ≤ januaryUsage.periodStart.year)
  endDate := fun d hd => Option.some.inj hd ▸ (by decide : 1 ≤ firstOfFebruary.year)

theorem winter_covers : winter.Covers lastOfJanuary where
  left := fun d hd => Option.some.inj hd ▸ (by decide : januaryUsage.periodStart ≤ lastOfJanuary)
  right := fun d hd => Option.some.inj hd ▸ (by decide : lastOfJanuary ≤ firstOfFebruary)

theorem exported_append_winter :
    ExportName.Exported .usage [januaryUsage, februaryUsage] winter ([februaryUsage] ++ [januaryUsage]) := by
  have hnext : lastOfJanuary.tomorrow = some firstOfFebruary := rfl
  have hyear : 1 ≤ lastOfJanuary.year := by decide
  refine exported_append (x := .usage) winter_valid ?_ hyear hnext winter_covers ?_ ?_
  · intro row hrow
    simp only [List.mem_cons, List.not_mem_nil, or_false] at hrow
    rcases hrow with rfl | rfl <;> decide
  · exact ⟨⟨_, rfl, .of_eq rfl⟩, List.pairwise_singleton _ _⟩
  · exact ⟨⟨_, rfl, .of_eq rfl⟩, List.pairwise_singleton _ _⟩

end Adjacent

end LlmStore.Reporting
