import LlmStore.Billing.Invoices
import LlmStore.Core.Floats
import LlmStore.Lib.Groups
import LlmStore.Reporting.Ranges

/-!
# The monthly report

`build_monthly_report` reads the month from `YYYY-MM`, counts the payments created in it and the invoices and the usage of
its first day. A month has one text and a text one month (`parseMonth_eq_some_iff`), so the reports of different months
share the payments, the invoices and the tokens out among them (`monthly_reports_share_out`), and the payments of a report
are the rows of the export for its period (`report_agrees_with_export`).
-/

namespace LlmStore.Calendar

/-! ## Some days later -/

/-- `d + timedelta(days=n)`; `none` is `OverflowError`. -/
def Date.plusDays : ℕ → Date → Option Date
  | 0, d => some d
  | n + 1, d => d.tomorrow.bind (Date.plusDays n)

/-- `d - timedelta(days=1)`, behind the first day of all. -/
def Date.yesterday (d : Date) : Date :=
  if h : d.day = 1 then d.previousMonthLastDay
  else
    { d with
      day := d.day - 1
      day_pos := Nat.le_sub_one_of_lt (lt_of_le_of_ne d.day_pos (Ne.symm h))
      day_le := (Nat.sub_le _ _).trans d.day_le }

theorem daysInMonth_ge (year month : ℕ) : 28 ≤ daysInMonth year month := by
  unfold daysInMonth
  split_ifs <;> omega

/-- `d.replace(day=28)`. -/
def Date.day28 (d : Date) : Date :=
  { d with day := 28, day_pos := Nat.le_add_left 1 27, day_le := daysInMonth_ge _ _ }

/-- The first day of the month after that of `d`. -/
def Date.nextMonth (d : Date) : Option Date := (d.day28.plusDays 4).map Date.firstDay

theorem Date.tomorrow_cases {d e : Date} (h : d.tomorrow = some e) :
    (d.day < daysInMonth d.year d.month ∧ e.year = d.year ∧ e.month = d.month ∧ e.day = d.day + 1) ∨
      (d.day = daysInMonth d.year d.month ∧ e.Follows d ∧ e.day = 1) := by
  have hle := d.day_le
  have hmonth_le := d.month_le
  unfold Date.tomorrow at h
  unfold Date.Follows
  split_ifs at h with hday hmonth hyear
  · obtain rfl := Option.some.inj h
    exact .inl ⟨hday, rfl, rfl, rfl⟩
  · obtain rfl := Option.some.inj h
    refine .inr ⟨by omega, ?_, rfl⟩
    rw [if_neg (by omega)]
    exact ⟨rfl, rfl⟩
  · obtain rfl := Option.some.inj h
    refine .inr ⟨by omega, ?_, rfl⟩
    rw [if_pos (by omega)]
    exact ⟨rfl, rfl⟩

/-- Some days later in the same month. -/
theorem Date.plusDays_same {n : ℕ} {d e : Date} (h : d.plusDays n = some e) (hn : d.day + n ≤ daysInMonth d.year d.month) :
    e.year = d.year ∧ e.month = d.month ∧ e.day = d.day + n := by
  induction n generalizing d with
  | zero =>
    obtain rfl := Option.some.inj h
    exact ⟨rfl, rfl, rfl⟩
  | succ n ih =>
    obtain ⟨d', hd', h⟩ := Option.bind_eq_some_iff.mp h
    rcases Date.tomorrow_cases hd' with ⟨-, hy, hm, hday⟩ | ⟨hlast, -⟩
    · obtain ⟨hy', hm', hday'⟩ := ih h (by rw [hy, hm, hday]; omega)
      exact ⟨hy'.trans hy, hm'.trans hm, by omega⟩
    · omega

/-- Some days later in the next month. -/
theorem Date.plusDays_follows {n : ℕ} {d e : Date} (h : d.plusDays n = some e)
    (hn : daysInMonth d.year d.month < d.day + n) (hle : d.day + n ≤ daysInMonth d.year d.month + 28) : e.Follows d := by
  induction n generalizing d with
  | zero =>
    have := d.day_le
    omega
  | succ n ih =>
    obtain ⟨d', hd', h⟩ := Option.bind_eq_some_iff.mp h
    rcases Date.tomorrow_cases hd' with ⟨-, hy, hm, hday⟩ | ⟨hlast, hfollows, hday⟩
    · have hnext := ih h (by rw [hy, hm, hday]; omega) (by rw [hy, hm, hday]; omega)
      unfold Date.Follows at hnext ⊢
      rwa [hy, hm] at hnext
    · have hge := daysInMonth_ge d'.year d'.month
      obtain ⟨hy, hm, -⟩ := Date.plusDays_same h (by omega)
      unfold Date.Follows at hfollows ⊢
      rwa [hy, hm]

/-- `replace(day=28) + timedelta(days=4)` is in the next month, however long the month is. -/
theorem Date.follows_nextMonth {d e : Date} (h : d.nextMonth = some e) : e.Follows d ∧ e.day = 1 := by
  obtain ⟨d', hd', rfl⟩ := Option.map_eq_some_iff.mp h
  have hle : daysInMonth d.year d.month ≤ 31 := by
    unfold daysInMonth
    split_ifs <;> omega
  have hge := daysInMonth_ge d.year d.month
  have hfollows : d'.Follows d.day28 := Date.plusDays_follows hd' (by simp only [Date.day28]; omega) (by
    simp only [Date.day28]
    omega)
  exact ⟨hfollows, rfl⟩

/-- The day before the first of the next month is the last one of the month. -/
theorem Date.yesterday_nextMonth {d e : Date} (hd : 1 ≤ d.year) (h : d.nextMonth = some e) : e.yesterday = d.lastDay := by
  obtain ⟨hfollows, hday⟩ := Date.follows_nextMonth h
  have hm := d.month_le
  have hpos := d.month_pos
  unfold Date.Follows at hfollows
  rw [Date.yesterday, dif_pos hday]
  unfold Date.previousMonthLastDay Date.lastDay
  split_ifs at hfollows with hdecember
  · obtain ⟨hy, hmonth⟩ := hfollows
    rw [dif_pos hmonth]
    simp only [Date.mk.injEq, hy, hdecember]
    exact ⟨by omega, trivial, rfl⟩
  · obtain ⟨hy, hmonth⟩ := hfollows
    rw [dif_neg (by omega)]
    have hprev : e.month - 1 = d.month := by omega
    simp only [hy, hprev]

theorem Date.firstDay_eq_self {d : Date} (h : d.day = 1) : d.firstDay = d := by
  obtain ⟨y, m, day, _, _, _, _⟩ := d
  obtain rfl : day = 1 := h
  rfl

/-- The days from the first of the month on, before the first of the next one. -/
theorem Date.sameMonth_iff {d e x : Date} (hd : 1 ≤ d.year) (hday : d.day = 1) (h : d.nextMonth = some e)
    (hx : 1 ≤ x.year) :
    d.toOrdinal ≤ x.toOrdinal ∧ x.toOrdinal < e.toOrdinal ↔ x.year = d.year ∧ x.month = d.month := by
  obtain ⟨hfollows, heday⟩ := Date.follows_nextMonth h
  have he : 1 ≤ e.year := by
    unfold Date.Follows at hfollows
    split_ifs at hfollows <;> omega
  have hdfirst : d.firstDay = d := Date.firstDay_eq_self hday
  have hefirst : e.firstDay = e := Date.firstDay_eq_self heday
  have hbetween := Date.le_lastDay_or_firstDay_le hfollows x
  rw [hefirst] at hbetween
  rw [← not_le, Date.toOrdinal_le_iff hd hx, Date.toOrdinal_le_iff he hx, ← Date.mem_window_iff, hdfirst]
  constructor
  · rintro ⟨hfirst, hbefore⟩
    exact ⟨hfirst, hbetween.resolve_right hbefore⟩
  · rintro ⟨hfirst, hlast⟩
    refine ⟨hfirst, fun hle => ?_⟩
    have hgap := Date.le_trans hle hlast
    unfold Date.Follows at hfollows
    rw [Date.le_iff] at hgap
    simp only [Date.lastDay] at hgap
    split_ifs at hfollows <;> omega

end LlmStore.Calendar

namespace LlmStore.Reporting

open LlmStore.Calendar LlmStore.Floats LlmStore.Lib

/-! ## Months as texts -/

/-- `d.strftime("%Y-%m")`, for a year with four digits. -/
def monthText (d : Date) : List Char := pad 4 d.year ++ '-' :: pad 2 d.month

def digitValue (c : Char) : Option ℕ := if c.isDigit then some (c.toNat - 48) else none

def firstOf (year month : ℕ) : Option Date :=
  if h : 1 ≤ year ∧ 1 ≤ month ∧ month ≤ 12 then
    some ⟨year, month, 1, h.2.1, h.2.2, Nat.one_pos, daysInMonth_pos _ _⟩
  else none

/-- `date.fromisoformat(f"{month}-01")`; `none` is `ValueError`. -/
def parseMonth : List Char → Option Date
  | [y₃, y₂, y₁, y₀, '-', m₁, m₀] => do
    let y₃ ← digitValue y₃
    let y₂ ← digitValue y₂
    let y₁ ← digitValue y₁
    let y₀ ← digitValue y₀
    let m₁ ← digitValue m₁
    let m₀ ← digitValue m₀
    firstOf (1000 * y₃ + 100 * y₂ + 10 * y₁ + y₀) (10 * m₁ + m₀)
  | _ => none

theorem digitValue_eq_some_iff {c : Char} {n : ℕ} : digitValue c = some n ↔ n < 10 ∧ c = n.digitChar := by
  have hdigit : c.isDigit = true ↔ 48 ≤ c.toNat ∧ c.toNat ≤ 57 := Char.isDigit_iff_toNat
  unfold digitValue
  constructor
  · intro h
    split_ifs at h with hc
    have hn := hdigit.mp hc
    have hlt : n < 10 := by
      have := Option.some.inj h
      omega
    refine ⟨hlt, Char.toNat_inj.mp ?_⟩
    rw [Nat.toNat_digitChar_of_lt_ten hlt, ← Option.some.inj h]
    omega
  · rintro ⟨hlt, rfl⟩
    have hvalue := Nat.toNat_digitChar_of_lt_ten hlt
    rw [if_pos (hdigit.mpr (by omega)), hvalue]
    congr 1
    omega

theorem firstOf_eq_some_iff {y m : ℕ} {d : Date} :
    firstOf y m = some d ↔ 1 ≤ d.year ∧ d.day = 1 ∧ d.year = y ∧ d.month = m := by
  unfold firstOf
  constructor
  · intro h
    split_ifs at h with hd
    obtain rfl := Option.some.inj h
    exact ⟨hd.1, rfl, rfl, rfl⟩
  · rintro ⟨hyear, hday, rfl, rfl⟩
    rw [dif_pos ⟨hyear, d.month_pos, d.month_le⟩]
    obtain ⟨y, m, day, _, _, _, _⟩ := d
    obtain rfl : day = 1 := hday
    rfl

/-- The digits of a month. -/
theorem monthText_eq {d : Date} {y₃ y₂ y₁ y₀ m₁ m₀ : ℕ} (h₃ : y₃ < 10) (h₂ : y₂ < 10) (h₁ : y₁ < 10) (h₀ : y₀ < 10)
    (hm₁ : m₁ < 10) (hm₀ : m₀ < 10) (hy : d.year = 1000 * y₃ + 100 * y₂ + 10 * y₁ + y₀) (hm : d.month = 10 * m₁ + m₀) :
    monthText d = [y₃.digitChar, y₂.digitChar, y₁.digitChar, y₀.digitChar, '-', m₁.digitChar, m₀.digitChar] := by
  have hyear : pad 4 d.year = [y₃.digitChar, y₂.digitChar, y₁.digitChar, y₀.digitChar] := by
    have e₃ : d.year / 1000 % 10 = y₃ := by omega
    have e₂ : d.year / 100 % 10 = y₂ := by omega
    have e₁ : d.year / 10 % 10 = y₁ := by omega
    have e₀ : d.year % 10 = y₀ := by omega
    simp [pad, List.range_succ, e₃, e₂, e₁, e₀]
  have hmonth : pad 2 d.month = [m₁.digitChar, m₀.digitChar] := by
    have e₁ : d.month / 10 % 10 = m₁ := by omega
    have e₀ : d.month % 10 = m₀ := by omega
    simp [pad, List.range_succ, e₁, e₀]
  rw [monthText, hyear, hmonth]
  rfl

/-- The text of a month is read as its first day, and no other text is. -/
theorem parseMonth_eq_some_iff {s : List Char} {d : Date} :
    parseMonth s = some d ↔ 1 ≤ d.year ∧ d.year ≤ 9999 ∧ d.day = 1 ∧ s = monthText d := by
  constructor
  · intro h
    unfold parseMonth at h
    split at h
    · simp only [Option.bind_eq_bind, Option.bind_eq_some_iff, digitValue_eq_some_iff, firstOf_eq_some_iff] at h
      obtain ⟨y₃, ⟨h₃, rfl⟩, y₂, ⟨h₂, rfl⟩, y₁, ⟨h₁, rfl⟩, y₀, ⟨h₀, rfl⟩, m₁, ⟨hm₁, rfl⟩, m₀, ⟨hm₀, rfl⟩, hpos, hday, hy,
        hm⟩ := h
      exact ⟨hpos, by omega, hday, (monthText_eq h₃ h₂ h₁ h₀ hm₁ hm₀ hy hm).symm⟩
    · cases h
  · rintro ⟨hpos, hle, hday, rfl⟩
    have hm := d.month_le
    have htext : monthText d = [(d.year / 1000).digitChar, (d.year / 100 % 10).digitChar, (d.year / 10 % 10).digitChar,
        (d.year % 10).digitChar, '-', (d.month / 10).digitChar, (d.month % 10).digitChar] :=
      monthText_eq (by omega) (by omega) (by omega) (by omega) (by omega) (by omega) (by omega) (by omega)
    have hdigit : ∀ n < 10, digitValue n.digitChar = some n := fun n hn => digitValue_eq_some_iff.mpr ⟨hn, rfl⟩
    rw [htext, parseMonth, hdigit _ (by omega), hdigit _ (by omega), hdigit _ (by omega), hdigit _ (by omega),
      hdigit _ (by omega), hdigit _ (by omega)]
    exact firstOf_eq_some_iff.mpr ⟨hpos, hday, by omega, by omega⟩

/-! ## The report -/

structure ReportClient where
  id : Usage.ClientId
  isBlocked : Bool
  billing : Billing.Client

/-- What the report reads. The clients are in the order of `list_client_billing_snapshots`. -/
structure Books where
  invoices : List InvoiceRow
  payments : List PaymentRow
  clients : List ReportClient
  usage : List UsageRecordRow
  counters : Usage.UsageTables

structure MonthlyReport where
  month : List Char
  periodStart : Date
  periodEnd : Date
  forecastRevenueUsd : ℚ
  paidRevenueUsd : ℚ
  delinquencyUsd : ℚ
  activeClients : ℕ
  consumedTokens : ℤ
  estimatedCostUsd : ℚ
  estimatedMarginUsd : ℚ
  invoicesTotal : ℕ
  paymentsTotal : ℕ

inductive ReportError where
  | http (e : HTTPException)
  | overflowError

/-- The first day of the month of the report: that of today for no month and for the empty text. -/
def reportMonth (today : Date) (month : Option (List Char)) : Except ReportError Date :=
  match month with
  | none => .ok today.firstDay
  | some text =>
    if text = [] then .ok today.firstDay
    else
      match parseMonth text with
      | some d => .ok d
      | none => .error (.http ⟨422, "month must use YYYY-MM format"⟩)

def UsageRecordRow.tokens (row : UsageRecordRow) : ℤ := row.promptTokens + row.completionTokens

namespace Books

/-- The payments that were created in the month, up to the first day of the next one. -/
def paymentsOf (books : Books) (first next : Date) : List PaymentRow :=
  books.payments.filter fun payment => betweenMidnights (some first) (some next) payment.createdAt.instant

def invoicesOf (books : Books) (first : Date) : List InvoiceRow :=
  books.invoices.filter fun invoice => decide (invoice.periodStart = first)

def usageOf (books : Books) (first : Date) : List UsageRecordRow :=
  books.usage.filter fun row => decide (row.periodType = "monthly" ∧ row.periodStart = first)

/-- `total_estimated` of the invoice previews of `list_client_billing_snapshots`. -/
def previews (books : Books) (usageDate : Date) : List ℚ :=
  books.clients.map fun client =>
    (Billing.buildInvoicePreview (Billing.resolveEffectivePlan client.billing)
      (Billing.monthlyUsedTokens books.counters client.id usageDate)).totalEstimated

end Books

/-- `round(sum(float(x) for x in xs), 6)`. -/
def roundedSum (xs : List ℚ) : ℚ := roundFloat (sumFloats (xs.map toFloat))

/-- `build_monthly_report`. -/
def buildMonthlyReport (books : Books) (today : Date) (month : Option (List Char)) : Except ReportError MonthlyReport := do
  let first ← reportMonth today month
  match first.nextMonth with
  | none => .error .overflowError
  | some next =>
    let invoices := books.invoicesOf first
    let payments := books.paymentsOf first next
    let forecast := roundedSum (books.previews first)
    let tokens := ((books.usageOf first).map UsageRecordRow.tokens).sum
    let cost : ℚ := if tokens = 0 then 0 else roundDecimal (tokens / 1000 * (1 / 100))
    .ok
      { month := monthText first
        periodStart := first
        periodEnd := next.yesterday
        forecastRevenueUsd := forecast
        paidRevenueUsd := roundedSum ((payments.filter fun payment => payment.status = "paid").map PaymentRow.amount)
        delinquencyUsd := roundedSum
          ((invoices.filter fun invoice => invoice.status = "pending" ∨ invoice.status = "overdue").map
            InvoiceRow.totalAmount)
        activeClients := books.clients.countP fun client => !client.isBlocked && client.billing.billingStatus = .active
        consumedTokens := tokens
        estimatedCostUsd := toFloat cost
        estimatedMarginUsd := toFloat (roundDecimal (shortest forecast - cost))
        invoicesTotal := invoices.length
        paymentsTotal := payments.length }

/-! ## The months of the rows -/

/-- The dates are such as `date` can hold. -/
structure Books.Valid (books : Books) : Prop where
  payments : ∀ payment ∈ books.payments, payment.createdAt.date.InRange
  invoices : ∀ invoice ∈ books.invoices, invoice.periodStart.InRange
  usage : ∀ row ∈ books.usage, row.periodStart.InRange

section Rows

variable {text : List Char} {first next : Date}

/-- A date has the text of the month if it lies in the month. -/
theorem monthText_eq_iff (hmonth : parseMonth text = some first) {d : Date} (hd : d.InRange) :
    monthText d = text ↔ d.year = first.year ∧ d.month = first.month := by
  obtain ⟨hpos, hle, hday, htext⟩ := parseMonth_eq_some_iff.mp hmonth
  constructor
  · intro h
    have hparse : parseMonth text = some d.firstDay := parseMonth_eq_some_iff.mpr ⟨hd.1, hd.2, rfl, h.symm⟩
    obtain rfl : first = d.firstDay := Option.some.inj (hmonth.symm.trans hparse)
    exact ⟨rfl, rfl⟩
  · rintro ⟨hy, hm⟩
    rw [htext, monthText, monthText, hy, hm]

theorem paymentsOf_eq {books : Books} (hbooks : books.Valid) (hmonth : parseMonth text = some first)
    (hnext : first.nextMonth = some next) :
    books.paymentsOf first next = books.payments.filter fun payment => monthText payment.createdAt.date = text := by
  obtain ⟨hpos, hle, hday, -⟩ := parseMonth_eq_some_iff.mp hmonth
  refine List.filter_congr fun payment hpayment => ?_
  have hrange := hbooks.payments payment hpayment
  rw [Bool.eq_iff_iff, decide_eq_true_eq, monthText_eq_iff hmonth hrange,
    ← Date.sameMonth_iff hpos hday hnext hrange.1, ← Datetime.midnight_le_iff, ← Datetime.lt_midnight_iff]
  rw [betweenMidnights, Option.all_some, Option.all_some, Bool.and_eq_true, decide_eq_true_eq, decide_eq_true_eq]

/-- The first day of the month is the only one whose text is that of the month. -/
theorem eq_first_iff (hmonth : parseMonth text = some first) {d : Date} (hd : d.InRange) :
    d = first ↔ d.day = 1 ∧ monthText d = text := by
  obtain ⟨hpos, hle, hday, htext⟩ := parseMonth_eq_some_iff.mp hmonth
  constructor
  · rintro rfl
    exact ⟨hday, htext.symm⟩
  · rintro ⟨hday', h⟩
    exact Option.some.inj ((parseMonth_eq_some_iff.mpr ⟨hd.1, hd.2, hday', h.symm⟩).symm.trans hmonth)

theorem invoicesOf_eq {books : Books} (hbooks : books.Valid) (hmonth : parseMonth text = some first) :
    books.invoicesOf first = (books.invoices.filter fun invoice => invoice.periodStart.day = 1).filter
      fun invoice => monthText invoice.periodStart = text := by
  rw [List.filter_filter, Books.invoicesOf]
  refine List.filter_congr fun invoice hinvoice => ?_
  rw [Bool.eq_iff_iff, decide_eq_true_eq, eq_first_iff hmonth (hbooks.invoices invoice hinvoice)]
  simp [and_comm]

theorem usageOf_eq {books : Books} (hbooks : books.Valid) (hmonth : parseMonth text = some first) :
    books.usageOf first = (books.usage.filter fun row => row.periodType = "monthly" ∧ row.periodStart.day = 1).filter
      fun row => monthText row.periodStart = text := by
  rw [List.filter_filter, Books.usageOf]
  refine List.filter_congr fun row hrow => ?_
  rw [Bool.eq_iff_iff, decide_eq_true_eq, eq_first_iff hmonth (hbooks.usage row hrow), ← and_assoc]
  simp [and_comm]

/-- What the report of a month counts. -/
theorem report_eq {books : Books} {today : Date} {report : MonthlyReport} (htext : text ≠ [])
    (h : buildMonthlyReport books today (some text) = .ok report) :
    ∃ first next, parseMonth text = some first ∧ first.nextMonth = some next ∧
      report.periodStart = first ∧ report.periodEnd = next.yesterday ∧
      report.paymentsTotal = (books.paymentsOf first next).length ∧
      report.invoicesTotal = (books.invoicesOf first).length ∧
      report.consumedTokens = ((books.usageOf first).map UsageRecordRow.tokens).sum := by
  obtain ⟨first, hfirst, h⟩ := bind_eq_ok_iff.mp h
  have hmonth : parseMonth text = some first := by
    rw [reportMonth, if_neg htext] at hfirst
    split at hfirst
    · rename_i d hd
      rw [hd, Except.ok.inj hfirst]
    · cases hfirst
  cases hnext : first.nextMonth with
  | none =>
    rw [hnext] at h
    cases h
  | some next =>
    rw [hnext] at h
    obtain rfl := Except.ok.inj h
    exact ⟨first, next, hmonth, hnext, rfl, rfl, rfl, rfl, rfl⟩

end Rows

/-! ## Reports of several months -/

theorem map_eq_map_of_forall₂ {α β γ : Type} {R : α → β → Prop} {as : List α} {bs : List β} (h : List.Forall₂ R as bs)
    {f : α → γ} {g : β → γ} (hfg : ∀ a ∈ as, ∀ b, R a b → g b = f a) : bs.map g = as.map f := by
  induction h with
  | nil => rfl
  | cons hab _ ih =>
    rw [List.map_cons, List.map_cons, hfg _ List.mem_cons_self _ hab, ih fun a ha => hfg a (List.mem_cons_of_mem _ ha)]

section Several

variable {books : Books} {today : Date} {months : List (List Char)} {reports : List MonthlyReport}

/-- A figure that is the sum over the rows of the month adds up to the sum over the rows of all months. -/
theorem sum_reports {ρ M : Type} [AddCommMonoid M] (hmonths : months.Nodup)
    (h : List.Forall₂ (fun month report => buildMonthlyReport books today (some month) = .ok report)
      months reports) {figure : MonthlyReport → M} {key : ρ → List Char} {amount : ρ → M} {rows : List ρ}
    (hfigure : ∀ month ∈ months, ∀ report, buildMonthlyReport books today (some month) = .ok report →
      figure report = ((rows.filter fun row => key row = month).map amount).sum) :
    (reports.map figure).sum = ((rows.filter fun row => key row ∈ months).map amount).sum := by
  rw [map_eq_map_of_forall₂ h hfigure]
  refine (sum_over_keys hmonths key amount rows).trans ?_
  congr 2
  exact List.filter_congr fun row _ => decide_eq_decide.mpr Iff.rfl

end Several

/-- The reports of different months share out the payments that were created in them, and the invoices and the usage of
their first days: none is counted twice and none is left out. -/
theorem monthly_reports_share_out {books : Books} (hbooks : books.Valid) {today : Date}
    {months : List (List Char)} (hmonths : months.Nodup) (htext : [] ∉ months) {reports : List MonthlyReport}
    (h : List.Forall₂ (fun month report => buildMonthlyReport books today (some month) = .ok report)
      months reports) :
    (reports.map MonthlyReport.paymentsTotal).sum =
        (books.payments.filter fun payment => monthText payment.createdAt.date ∈ months).length ∧
      (reports.map MonthlyReport.invoicesTotal).sum =
        (books.invoices.filter fun invoice =>
          invoice.periodStart.day = 1 ∧ monthText invoice.periodStart ∈ months).length ∧
      (reports.map MonthlyReport.consumedTokens).sum =
        ((books.usage.filter fun row => row.periodType = "monthly" ∧ row.periodStart.day = 1 ∧
          monthText row.periodStart ∈ months).map UsageRecordRow.tokens).sum := by
  have hne : ∀ month ∈ months, month ≠ [] := fun month hmonth he => htext (he ▸ hmonth)
  have hlength : ∀ {ρ : Type} (rows : List ρ), rows.length = (rows.map fun _ => 1).sum := by simp
  refine ⟨?_, ?_, ?_⟩
  · rw [hlength]
    refine sum_reports hmonths h fun month hmonth report hreport => ?_
    obtain ⟨first, next, hparse, hnext, -, -, hpayments, -, -⟩ := report_eq (hne month hmonth) hreport
    rw [hpayments, paymentsOf_eq hbooks hparse hnext, hlength]
  · have hrows : (books.invoices.filter fun invoice =>
        invoice.periodStart.day = 1 ∧ monthText invoice.periodStart ∈ months) =
        (books.invoices.filter fun invoice => invoice.periodStart.day = 1).filter
          fun invoice => monthText invoice.periodStart ∈ months := by
      rw [List.filter_filter]
      exact List.filter_congr fun invoice _ => by rw [Bool.decide_and, Bool.and_comm]
    rw [hrows, hlength]
    refine sum_reports hmonths h fun month hmonth report hreport => ?_
    obtain ⟨first, next, hparse, hnext, -, -, -, hinvoices, -⟩ := report_eq (hne month hmonth) hreport
    rw [hinvoices, invoicesOf_eq hbooks hparse, hlength]
  · have hrows : (books.usage.filter fun row => row.periodType = "monthly" ∧ row.periodStart.day = 1 ∧
          monthText row.periodStart ∈ months) =
        (books.usage.filter fun row => row.periodType = "monthly" ∧ row.periodStart.day = 1).filter
          fun row => monthText row.periodStart ∈ months := by
      rw [List.filter_filter]
      refine List.filter_congr fun row _ => ?_
      rw [Bool.and_comm, ← Bool.decide_and]
      exact decide_eq_decide.mpr and_assoc.symm
    rw [hrows]
    refine sum_reports hmonths h fun month hmonth report hreport => ?_
    obtain ⟨first, next, hparse, hnext, -, -, -, -, htokens⟩ := report_eq (hne month hmonth) hreport
    rw [htokens, usageOf_eq hbooks hparse]

/-- The export of the payments for the period of a report has as many rows as the report counts payments. -/
theorem report_agrees_with_export {books : Books} (hbooks : books.Valid) {today : Date}
    {month : List Char} (htext : month ≠ []) {report : MonthlyReport}
    (h : buildMonthlyReport books today (some month) = .ok report) {rows : List PaymentRow}
    (hrows : ExportName.Exported .payments books.payments ⟨some report.periodStart, some report.periodEnd, none⟩ rows) :
    rows.Perm (books.payments.filter fun payment => monthText payment.createdAt.date = month) ∧
      report.paymentsTotal = rows.length := by
  obtain ⟨first, next, hparse, hnext, hstart, hend, hpayments, -, -⟩ := report_eq htext h
  obtain ⟨hpos, -, hday, -⟩ := parseMonth_eq_some_iff.mp hparse
  obtain ⟨clause, hclause, hperm⟩ := hrows.selected
  rw [hstart, hend, Date.yesterday_nextMonth hpos hnext] at hclause
  have hvalid : ExportParams.Valid ⟨some first, some first.lastDay, none⟩ :=
    ⟨fun d hd => Option.some.inj hd ▸ hpos, fun d hd => Option.some.inj hd ▸ hpos⟩
  have hfilter : books.payments.filter clause =
      books.payments.filter fun payment => monthText payment.createdAt.date = month := by
    refine List.filter_congr fun payment hpayment => ?_
    have hrange := hbooks.payments payment hpayment
    have hcovers : ExportParams.Covers ⟨some first, some first.lastDay, none⟩ payment.createdAt.date ↔
        first.firstDay ≤ payment.createdAt.date ∧ payment.createdAt.date ≤ first.lastDay := by
      rw [Date.firstDay_eq_self hday]
      simp [ExportParams.Covers]
    rw [Bool.eq_iff_iff, decide_eq_true_eq, monthText_eq_iff hparse hrange, ← Date.mem_window_iff, ← hcovers,
      clauses_iff hvalid hclause hrange.1]
    exact and_iff_left fun id hid => absurd hid (Option.some_ne_none id).symm
  rw [hfilter] at hperm
  exact ⟨hperm, by rw [hpayments, paymentsOf_eq hbooks hparse hnext, hperm.length_eq]⟩

/-! ## Two months -/

def januaryPayment : PaymentRow where
  id := 4
  invoiceId := 5
  clientId := 2
  clientName := "Ana"
  status := "paid"
  amount := 10
  currency := "USD"
  paymentMethod := "manual_pix"
  paymentReference := none
  note := none
  paidAt := none
  cancelledAt := none
  createdAt := ⟨lastOfJanuary, 3600000000⟩
  updatedAt := ⟨firstOfFebruary, 0⟩

def ledger : Books :=
  ⟨[], [januaryPayment], [⟨2, false, ⟨.active, none, 300000⟩⟩], [januaryUsage, februaryUsage], ⟨∅, ∅⟩⟩

theorem ledger_valid : ledger.Valid where
  payments := fun payment h => by
    rw [List.mem_singleton.mp h]
    exact ⟨by decide, by decide⟩
  invoices := fun invoice h => nomatch h
  usage := fun row h => by
    simp only [ledger, List.mem_cons, List.not_mem_nil, or_false] at h
    rcases h with rfl | rfl
    · exact ⟨by decide, by decide⟩
    · exact ⟨by decide, by decide⟩

def january : List Char := ['2', '0', '2', '6', '-', '0', '1']

def february : List Char := ['2', '0', '2', '6', '-', '0', '2']

theorem report_january : ∃ report, buildMonthlyReport ledger firstOfFebruary (some january) = .ok report ∧
    report.periodStart = januaryUsage.periodStart ∧ report.periodEnd = lastOfJanuary := ⟨_, rfl, rfl, rfl⟩

theorem report_february : ∃ report, buildMonthlyReport ledger firstOfFebruary (some february) = .ok report :=
  ⟨_, rfl⟩

theorem monthly_reports_share_out_winter : ∃ reports : List MonthlyReport,
    (reports.map MonthlyReport.paymentsTotal).sum =
        (ledger.payments.filter fun payment => monthText payment.createdAt.date ∈ [january, february]).length ∧
      (reports.map MonthlyReport.invoicesTotal).sum =
        (ledger.invoices.filter fun invoice =>
          invoice.periodStart.day = 1 ∧ monthText invoice.periodStart ∈ [january, february]).length ∧
      (reports.map MonthlyReport.consumedTokens).sum =
        ((ledger.usage.filter fun row => row.periodType = "monthly" ∧ row.periodStart.day = 1 ∧
          monthText row.periodStart ∈ [january, february]).map UsageRecordRow.tokens).sum := by
  obtain ⟨r₁, h₁, -⟩ := report_january
  obtain ⟨r₂, h₂⟩ := report_february
  exact ⟨[r₁, r₂], monthly_reports_share_out ledger_valid (by decide) (by decide) (.cons h₁ (.cons h₂ .nil))⟩

theorem exported_january : ExportName.Exported .payments ledger.payments
    ⟨some januaryUsage.periodStart, some lastOfJanuary, none⟩ [januaryPayment] := by
  set params : ExportParams := ⟨some januaryUsage.periodStart, some lastOfJanuary, none⟩ with hparams
  obtain ⟨clause, hclause⟩ : ∃ clause, ExportName.clauses .payments params = some clause := ⟨_, rfl⟩
  have hvalid : params.Valid :=
    ⟨fun d hd => Option.some.inj hd ▸ (by decide : 1 ≤ januaryUsage.periodStart.year),
      fun d hd => Option.some.inj hd ▸ (by decide : 1 ≤ lastOfJanuary.year)⟩
  have hyear : 1 ≤ (ExportName.day .payments januaryPayment).year := by decide
  have hselected : clause januaryPayment = true :=
    (clauses_iff hvalid hclause hyear).mpr
      ⟨⟨fun d hd => Option.some.inj hd ▸ (by decide : januaryUsage.periodStart ≤ lastOfJanuary),
        fun d hd => Option.some.inj hd ▸ (by decide : lastOfJanuary ≤ lastOfJanuary)⟩, fun id hid => nomatch hid⟩
  refine ⟨⟨clause, hclause, ?_⟩, List.pairwise_singleton _ _⟩
  rw [ledger, List.filter_cons_of_pos hselected]
  rfl

theorem report_agrees_with_export_january : ∃ report : MonthlyReport,
    [januaryPayment].Perm (ledger.payments.filter fun payment => monthText payment.createdAt.date = january) ∧
      report.paymentsTotal = [januaryPayment].length := by
  obtain ⟨report, hreport, hstart, hend⟩ := report_january
  refine ⟨report, report_agrees_with_export ledger_valid (by decide) hreport ?_⟩
  rw [hstart, hend]
  exact exported_january

end LlmStore.Reporting
