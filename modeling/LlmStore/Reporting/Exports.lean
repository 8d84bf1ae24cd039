import LlmStore.Core.Calendar
import LlmStore.Core.JsonEquality
import LlmStore.Core.JsonValues
import LlmStore.Lib.Csv

/-!
# The exports

The six exports of `services/export_reporting.py` and the response that `render_export_response` makes of their rows, as
JSON or as CSV. An export is a list of columns, each with its key and its value for a row of the query, so that all its
rows have the same keys. The file in CSV can be read back: every record is a row with its values as texts
(`readExport_renderCsv`), and where a column holds a list or an object, its text is JSON for it (`loads_cell`).
-/

namespace LlmStore.Reporting

open LlmStore.Calendar LlmStore.Decimal LlmStore.JsonText

/-! ## Values as texts -/

/-- `f"{n:0{width}}"`, for a number with no more digits. -/
def pad (width n : ℕ) : List Char := (List.range width).map fun i => Nat.digitChar (n / 10 ^ (width - 1 - i) % 10)

/-- `date.isoformat()`. -/
def isoDate (d : Date) : List Char := pad 4 d.year ++ '-' :: pad 2 d.month ++ '-' :: pad 2 d.day

/-- `datetime.isoformat()`, in UTC; the microseconds are left out where there are none. -/
def isoDatetime (t : Datetime) : List Char :=
  let seconds := t.micros.val / 1000000
  let micros := t.micros.val % 1000000
  isoDate t.date ++ 'T' :: pad 2 (seconds / 3600) ++ ':' :: pad 2 (seconds / 60 % 60) ++ ':' :: pad 2 (seconds % 60) ++
    (if micros = 0 then [] else '.' :: pad 6 micros) ++ "+00:00".toList

abbrev Uuid := BitVec 128

/-- `str(value)`, with its groups of 8, 4, 4, 4 and 12 digits. -/
def uuidText (id : Uuid) : List Char :=
  let group (n : ℕ) (shift : ℕ) := (List.range n).map fun i => hexDigit (id.toNat / 16 ^ (shift + n - 1 - i))
  group 8 24 ++ '-' :: group 4 20 ++ '-' :: group 4 16 ++ '-' :: group 4 12 ++ '-' :: group 12 0

example : uuidText 0x0123456789abcdef0123456789abcdef = "01234567-89ab-cdef-0123-456789abcdef".toList := by decide

/-- A value that may be `None`. -/
def optional {α : Type} (f : α → Json) : Option α → Json
  | none => .null
  | some a => f a

def text (s : String) : Json := .str s.toList

def uuid (id : Uuid) : Json := .str (uuidText id)

/-- `_iso`. -/
def iso : Option Datetime → Json := optional fun t => .str (isoDatetime t)

/-- `_json_list`. -/
def jsonList (raw : Option String) : Json :=
  match raw with
  | none => .null
  | some raw =>
    if raw.toList = [] then .null
    else
      match loads raw.toList with
      | .ok value => value
      | .error _ => .str raw.toList

/-! ## The rows of the queries -/

structure ClientRow where
  id : Uuid
  name : String
  description : Option String
  isBlocked : Bool
  billingStatus : String
  billingPlanId : Option Uuid
  rateLimitPerMinute : ℤ
  dailyTokenQuota : ℤ
  monthlyTokenQuota : ℤ
  maxContextTokens : ℤ
  maxOutputTokens : ℤ
  allowedModelsJson : Option String
  ipAllowlistJson : Option String
  ipBlocklistJson : Option String
  createdAt : Datetime
  updatedAt : Datetime

/-- A usage record with the name of its client. -/
structure UsageRecordRow where
  id : Uuid
  clientId : Uuid
  clientName : String
  periodStart : Date
  periodType : String
  requestCount : ℤ
  promptTokens : ℤ
  completionTokens : ℤ
  createdAt : Datetime
  updatedAt : Datetime

/-- An invoice with the name of its client. -/
structure InvoiceRow where
  id : Uuid
  clientId : Uuid
  clientName : String
  billingPlanId : Option Uuid
  status : String
  currency : String
  periodStart : Date
  periodEnd : Date
  monthlyPrice : ℚ
  includedTokens : ℤ
  usedTokens : ℤ
  overageTokens : ℤ
  overagePricePer1kTokens : ℚ
  overageCost : ℚ
  totalAmount : ℚ
  paymentMethod : String
  dueAt : Option Datetime
  paidAt : Option Datetime
  cancelledAt : Option Datetime
  createdAt : Datetime
  updatedAt : Datetime

/-- A payment with the name of its client. -/
structure PaymentRow where
  id : Uuid
  invoiceId : Uuid
  clientId : Uuid
  clientName : String
  status : String
  amount : ℚ
  currency : String
  paymentMethod : String
  paymentReference : Option String
  note : Option String
  paidAt : Option Datetime
  cancelledAt : Option Datetime
  createdAt : Datetime
  updatedAt : Datetime

structure SecurityEventRow where
  id : Uuid
  clientId : Option Uuid
  requestLogId : Option Uuid
  eventType : String
  severity : String
  correlationId : Option String
  sourceIp : Option String
  apiKeyPrefix : Option String
  title : String
  detailJson : Option String
  createdAt : Datetime

structure RequestLogRow where
  id : Uuid
  clientId : Uuid
  model : String
  endpoint : String
  promptTokensEstimated : ℤ
  completionTokensEstimated : ℤ
  latencyMs : ℤ
  httpStatus : ℤ
  isStream : Bool
  estimatedCostUsd : ℚ
  backendName : Option String
  attempts : ℤ
  fallbackUsed : Bool
  cacheHit : Bool
  backendErrorsJson : Option String
  errorMessage : Option String
  requestSummary : Option String
  correlationId : Option String
  sourceIp : Option String
  createdAt : Datetime

/-! ## The exports -/

/-- The columns of an export. -/
abbrev Export (ρ : Type) := List (String × (ρ → Json))

def exportClients : Export ClientRow :=
  [("id", fun item => uuid item.id),
    ("name", fun item => text item.name),
    ("description", fun item => optional text item.description),
    ("is_blocked", fun item => .bool item.isBlocked),
    ("billing_status", fun item => text item.billingStatus),
    ("billing_plan_id", fun item => optional uuid item.billingPlanId),
    ("rate_limit_per_minute", fun item => .int item.rateLimitPerMinute),
    ("daily_token_quota", fun item => .int item.dailyTokenQuota),
    ("monthly_token_quota", fun item => .int item.monthlyTokenQuota),
    ("max_context_tokens", fun item => .int item.maxContextTokens),
    ("max_output_tokens", fun item => .int item.maxOutputTokens),
    ("allowed_models", fun item => jsonList item.allowedModelsJson),
    ("ip_allowlist", fun item => jsonList item.ipAllowlistJson),
    ("ip_blocklist", fun item => jsonList item.ipBlocklistJson),
    ("created_at", fun item => iso (some item.createdAt)),
    ("updated_at", fun item => iso (some item.updatedAt))]

def exportUsage : Export UsageRecordRow :=
  [("id", fun record => uuid record.id),
    ("client_id", fun record => uuid record.clientId),
    ("client_name", fun record => text record.clientName),
    ("period_start", fun record => .str (isoDate record.periodStart)),
    ("period_type", fun record => text record.periodType),
    ("request_count", fun record => .int record.requestCount),
    ("prompt_tokens", fun record => .int record.promptTokens),
    ("completion_tokens", fun record => .int record.completionTokens),
    ("total_tokens", fun record => .int (record.promptTokens + record.completionTokens)),
    ("created_at", fun record => iso (some record.createdAt)),
    ("updated_at", fun record => iso (some record.updatedAt))]

def exportInvoices : Export InvoiceRow :=
  [("id", fun invoice => uuid invoice.id),
    ("client_id", fun invoice => uuid invoice.clientId),
    ("client_name", fun invoice => text invoice.clientName),
    ("billing_plan_id", fun invoice => optional uuid invoice.billingPlanId),
    ("status", fun invoice => text invoice.status),
    ("currency", fun invoice => text invoice.currency),
    ("period_start", fun invoice => .str (isoDate invoice.periodStart)),
    ("period_end", fun invoice => .str (isoDate invoice.periodEnd)),
    ("monthly_price", fun invoice => .float (.finite invoice.monthlyPrice)),
    ("included_tokens", fun invoice => .int invoice.includedTokens),
    ("used_tokens", fun invoice => .int invoice.usedTokens),
    ("overage_tokens", fun invoice => .int invoice.overageTokens),
    ("overage_price_per_1k_tokens", fun invoice => .float (.finite invoice.overagePricePer1kTokens)),
    ("overage_cost", fun invoice => .float (.finite invoice.overageCost)),
    ("total_amount", fun invoice => .float (.finite invoice.totalAmount)),
    ("payment_method", fun invoice => text invoice.paymentMethod),
    ("due_at", fun invoice => iso invoice.dueAt),
    ("paid_at", fun invoice => iso invoice.paidAt),
    ("cancelled_at", fun invoice => iso invoice.cancelledAt),
    ("created_at", fun invoice => iso (some invoice.createdAt)),
    ("updated_at", fun invoice => iso (some invoice.updatedAt))]

def exportPayments : Export PaymentRow :=
  [("id", fun payment => uuid payment.id),
    ("invoice_id", fun payment => uuid payment.invoiceId),
    ("client_id", fun payment => uuid payment.clientId),
    ("client_name", fun payment => text payment.clientName),
    ("status", fun payment => text payment.status),
    ("amount", fun payment => .float (.finite payment.amount)),
    ("currency", fun payment => text payment.currency),
    ("payment_method", fun payment => text payment.paymentMethod),
    ("payment_reference", fun payment => optional text payment.paymentReference),
    ("note", fun payment => optional text payment.note),
    ("paid_at", fun payment => iso payment.paidAt),
    ("cancelled_at", fun payment => iso payment.cancelledAt),
    ("created_at", fun payment => iso (some payment.createdAt)),
    ("updated_at", fun payment => iso (some payment.updatedAt))]

/-- The details that `serialize_security_event` shows. -/
def eventDetails (detailJson : Option String) : Json :=
  match detailJson with
  | none => .obj []
  | some raw =>
    if raw.toList = [] then .obj []
    else
      match loads raw.toList with
      | .ok details => details
      | .error _ => .obj [("raw", .str raw.toList)]

/-- `serialize_security_event`. -/
def exportSecurityEvents : Export SecurityEventRow :=
  [("id", fun event => uuid event.id),
    ("client_id", fun event => optional uuid event.clientId),
    ("request_log_id", fun event => optional uuid event.requestLogId),
    ("event_type", fun event => text event.eventType),
    ("severity", fun event => text event.severity),
    ("correlation_id", fun event => optional text event.correlationId),
    ("source_ip", fun event => optional text event.sourceIp),
    ("api_key_prefix", fun event => optional text event.apiKeyPrefix),
    ("title", fun event => text event.title),
    ("details", fun event => eventDetails event.detailJson),
    ("created_at", fun event => iso (some event.createdAt))]

def exportRequestLogs : Export RequestLogRow :=
  [("id", fun row => uuid row.id),
    ("client_id", fun row => uuid row.clientId),
    ("model", fun row => text row.model),
    ("endpoint", fun row => text row.endpoint),
    ("prompt_tokens_estimated", fun row => .int row.promptTokensEstimated),
    ("completion_tokens_estimated", fun row => .int row.completionTokensEstimated),
    ("latency_ms", fun row => .int row.latencyMs),
    ("http_status", fun row => .int row.httpStatus),
    ("is_stream", fun row => .bool row.isStream),
    ("estimated_cost_usd", fun row => .float (.finite row.estimatedCostUsd)),
    ("backend_name", fun row => optional text row.backendName),
    ("attempts", fun row => .int row.attempts),
    ("fallback_used", fun row => .bool row.fallbackUsed),
    ("cache_hit", fun row => .bool row.cacheHit),
    ("backend_errors", fun row => jsonList row.backendErrorsJson),
    ("error_message", fun row => optional text row.errorMessage),
    ("request_summary", fun row => optional text row.requestSummary),
    ("correlation_id", fun row => optional text row.correlationId),
    ("source_ip", fun row => optional text row.sourceIp),
    ("created_at", fun row => iso (some row.createdAt))]

inductive ExportName where
  | clients
  | usage
  | invoices
  | payments
  | securityEvents
  | requestLogs
  deriving DecidableEq

namespace ExportName

abbrev Row : ExportName → Type
  | clients => ClientRow
  | usage => UsageRecordRow
  | invoices => InvoiceRow
  | payments => PaymentRow
  | securityEvents => SecurityEventRow
  | requestLogs => RequestLogRow

def columns : (x : ExportName) → Export x.Row
  | clients => exportClients
  | usage => exportUsage
  | invoices => exportInvoices
  | payments => exportPayments
  | securityEvents => exportSecurityEvents
  | requestLogs => exportRequestLogs

/-- The columns that hold what `json.loads` makes of a column of the table, with that column. -/
def jsonColumns : (x : ExportName) → List (String × (x.Row → Option String))
  | clients => [("allowed_models", ClientRow.allowedModelsJson), ("ip_allowlist", ClientRow.ipAllowlistJson),
      ("ip_blocklist", ClientRow.ipBlocklistJson)]
  | securityEvents => [("details", SecurityEventRow.detailJson)]
  | requestLogs => [("backend_errors", RequestLogRow.backendErrorsJson)]
  | _ => []

end ExportName

/-! ## The response -/

/-- A `dict` of the rows that are rendered. -/
abbrev ExportRow := List (String × Json)

def Export.row {ρ : Type} (e : Export ρ) (item : ρ) : ExportRow := e.map fun column => (column.1, column.2 item)

def Export.rows {ρ : Type} (e : Export ρ) (items : List ρ) : List ExportRow := items.map e.row

/-- `ValueError`: the `dict` contains fields that are not in `fieldnames`. -/
inductive WriteError where
  | valueError
  deriving DecidableEq, Repr

/-- `float.__repr__`, of any float. -/
def strFloat : PyFloat → List Char
  | .finite q => reprFloat q
  | .negZero => '-' :: reprFloat 0
  | .posInf => "inf".toList
  | .negInf => "-inf".toList
  | .nan => "nan".toList

/-- What the writer writes for a value: lists and objects as JSON. -/
def cell : Json → List Char
  | .null => []
  | .bool b => if b then "True".toList else "False".toList
  | .int n => reprInt n
  | .float x => strFloat x
  | .str s => s
  | value => dumps .default value

/-- `DictWriter._dict_to_list`. -/
def dictToList (fieldnames : List String) (row : ExportRow) : Except WriteError Csv.Record :=
  if row.all fun field => fieldnames.contains field.1 then
    .ok (fieldnames.map fun key => ((row.lookup key).map cell).getD [])
  else .error .valueError

theorem excel_delimiter_stays : ',' ≠ '\r' ∧ ',' ≠ '\n' := by decide

theorem excel_quote_stays : '"' ≠ '\r' ∧ '"' ≠ '\n' := by decide

theorem excel_delimiter_ne_quote : ',' ≠ '"' := by decide

/-- The dialect that is the default, with `csv.field_size_limit()`. -/
def excel : Csv.Dialect := ⟨',', '"', 131072, excel_delimiter_ne_quote, excel_delimiter_stays, excel_quote_stays⟩

/-- The header: the keys of the first row. -/
def fieldnames : List ExportRow → List String
  | [] => []
  | row :: _ => row.map Prod.fst

/-- The text that `DictWriter` makes. -/
def renderCsv (rows : List ExportRow) : Except WriteError (List Char) := do
  let records ← rows.mapM (dictToList (fieldnames rows))
  return excel.writeRows ((fieldnames rows).map String.toList :: records)

inductive Response where
  | json (content : Json) (disposition : String)
  | csv (content : List Char) (disposition : String)

/-- The header `Content-Disposition`. -/
def disposition (name extension : String) : String := "attachment; filename=\"" ++ name ++ "." ++ extension ++ "\""

def renderExportResponse (now : Datetime) (name : String) (rows : List ExportRow) (exportFormat : String) :
    Except WriteError Response :=
  if exportFormat = "json" then
    let content := Json.obj [("exported_at", iso (some now)), ("name", text name), ("rows", .arr (rows.map .obj))]
    .ok (.json content (disposition name "json"))
  else do
    let content ← renderCsv rows
    return .csv content (disposition name "csv")

/-! ## Reading an export -/

/-- `csv.DictReader` on records that are as long as the header: records without fields are skipped. -/
def dictReader : List Csv.Record → List (List (String × List Char))
  | [] => []
  | fieldnames :: records =>
    (records.filter fun record => !record.isEmpty).map fun record => (fieldnames.map String.ofList).zip record

def readExport (content : List Char) : Except Csv.ReadError (List (List (String × List Char))) :=
  (excel.readText content).map dictReader

section Rows

variable {ρ : Type} {e : Export ρ}

theorem dictToList_row (hkeys : (e.map Prod.fst).Nodup) (item : ρ) :
    dictToList (e.map Prod.fst) (e.row item) = .ok (e.map fun column => cell (column.2 item)) := by
  rw [Export.row]
  have hall : (e.map fun column => (column.1, column.2 item)).all
      (fun field => (e.map Prod.fst).contains field.1) = true := by
    simp only [List.all_map, List.all_eq_true, Function.comp_apply, List.contains_iff_mem, List.mem_map]
    exact fun column hcolumn => ⟨column, hcolumn, rfl⟩
  have hkeys' : ((e.map fun column => (column.1, column.2 item)).map Prod.fst).Nodup := by
    rw [List.map_map]
    exact hkeys
  rw [dictToList, if_pos hall, List.map_map]
  congr 1
  apply List.map_congr_left
  intro column hcolumn
  have hlookup := (lookup_eq_some_iff hkeys' column.1 (column.2 item)).mpr
    (List.mem_map.mpr ⟨column, hcolumn, rfl⟩)
  simp [hlookup]

theorem mapM_dictToList (hkeys : (e.map Prod.fst).Nodup) (items : List ρ) :
    (e.rows items).mapM (dictToList (e.map Prod.fst)) =
      .ok (items.map fun item => e.map fun column => cell (column.2 item)) := by
  induction items with
  | nil => rfl
  | cons item items ih =>
    rw [Export.rows] at ih
    rw [Export.rows, List.map_cons, List.mapM_cons, dictToList_row hkeys, ih]
    rfl

/-- A file in CSV is read as the rows with the texts of their values. -/
theorem readExport_renderCsv (hkeys : (e.map Prod.fst).Nodup) (he : e ≠ [])
    (hheader : ∀ column ∈ e, column.1.toList.length ≤ excel.limit) {items : List ρ}
    (hfits : ∀ item ∈ items, ∀ column ∈ e, (cell (column.2 item)).length ≤ excel.limit) :
    ∃ content, renderCsv (e.rows items) = .ok content ∧
      readExport content = .ok (items.map fun item => e.map fun column => (column.1, cell (column.2 item))) := by
  cases items with
  | nil => exact ⟨_, rfl, rfl⟩
  | cons item items =>
    set records : List Csv.Record := (item :: items).map fun item => e.map fun column => cell (column.2 item)
      with hrecords
    set header : Csv.Record := (e.map Prod.fst).map String.toList with hheader'
    have hfieldnames : fieldnames (e.rows (item :: items)) = e.map Prod.fst := by
      rw [Export.rows, List.map_cons, fieldnames, Export.row, List.map_map]
      rfl
    have hrender : renderCsv (e.rows (item :: items)) = .ok (excel.writeRows (header :: records)) := by
      rw [renderCsv, hfieldnames, mapM_dictToList hkeys]
      rfl
    have hfit : ∀ row ∈ header :: records, excel.Fits row := by
      intro row hrow field hfield
      rcases List.mem_cons.mp hrow with rfl | hrow
      · rw [hheader', List.map_map] at hfield
        obtain ⟨column, hcolumn, rfl⟩ := List.mem_map.mp hfield
        exact hheader column hcolumn
      · obtain ⟨item, hitem, rfl⟩ := List.mem_map.mp hrow
        obtain ⟨column, hcolumn, rfl⟩ := List.mem_map.mp hfield
        exact hfits item hitem column hcolumn
    refine ⟨_, hrender, ?_⟩
    have hempty : (records.filter fun record => !record.isEmpty) = records := by
      rw [List.filter_eq_self]
      intro record hrecord
      obtain ⟨item, -, rfl⟩ := List.mem_map.mp hrecord
      simp [he]
    have hkeys' : header.map String.ofList = e.map Prod.fst := by
      rw [hheader', List.map_map]
      exact List.map_id'' (fun key => String.ofList_toList) _
    rw [readExport, Csv.readText_writeRows hfit, Except.map, dictReader, hempty, hrecords, hkeys', List.map_map]
    simp only [Function.comp_def, List.zip_map']

end Rows

namespace ExportName

/-- The name that the endpoint renders the export under. -/
def name : ExportName → String
  | clients => "clients"
  | usage => "usage"
  | invoices => "invoices"
  | payments => "payments"
  | securityEvents => "security-events"
  | requestLogs => "request-logs"

theorem keys_nodup (x : ExportName) : (x.columns.map Prod.fst).Nodup := by
  cases x <;> simp [columns, exportClients, exportUsage, exportInvoices, exportPayments, exportSecurityEvents,
    exportRequestLogs]

theorem columns_ne_nil (x : ExportName) : x.columns ≠ [] := by cases x <;> exact List.cons_ne_nil _ _

theorem literal_fits {key : String} (chars : List Char) (hkey : key = String.ofList chars)
    (hfits : chars.length ≤ excel.limit) : key.toList.length ≤ excel.limit := by
  rwa [hkey, String.toList_ofList]

theorem header_fits (x : ExportName) : ∀ column ∈ x.columns, column.1.toList.length ≤ excel.limit := by
  cases x <;>
    simp only [columns, exportClients, exportUsage, exportInvoices, exportPayments, exportSecurityEvents,
      exportRequestLogs, List.forall_mem_cons, List.not_mem_nil, IsEmpty.forall_iff, implies_true, and_true] <;>
    repeat' apply And.intro
  all_goals exact literal_fits _ rfl (by decide)

/-- The columns of JSON are among the columns. -/
theorem mem_columns_of_jsonColumns {x : ExportName} {key : String} {raw : x.Row → Option String}
    (h : (key, raw) ∈ x.jsonColumns) : ∃ shown : Option String → Json,
      (key, fun item => shown (raw item)) ∈ x.columns ∧ (shown = jsonList ∨ shown = eventDetails) := by
  cases x with
  | clients =>
    simp only [jsonColumns, List.mem_cons, List.not_mem_nil, or_false, Prod.mk.injEq] at h
    rcases h with ⟨rfl, rfl⟩ | ⟨rfl, rfl⟩ | ⟨rfl, rfl⟩
    all_goals exact ⟨jsonList, by simp [columns, exportClients], .inl rfl⟩
  | requestLogs =>
    obtain ⟨rfl, rfl⟩ := Prod.mk.inj (List.mem_singleton.mp h)
    exact ⟨jsonList, by simp [columns, exportRequestLogs], .inl rfl⟩
  | securityEvents =>
    obtain ⟨rfl, rfl⟩ := Prod.mk.inj (List.mem_singleton.mp h)
    exact ⟨eventDetails, by simp [columns, exportSecurityEvents], .inr rfl⟩
  | usage => cases h
  | invoices => cases h
  | payments => cases h

end ExportName

/-- The values of a row of the export fit into the fields that are read. -/
def ExportName.Fits (x : ExportName) (items : List x.Row) : Prop :=
  ∀ item ∈ items, ∀ column ∈ x.columns, (cell (column.2 item)).length ≤ excel.limit

/-- Every export in CSV can be read back: as many records as there are rows, in their order, and in each the texts of the
row's values under the keys that the JSON format has. -/
theorem export_csv_read_back (now : Datetime) (x : ExportName) {items : List x.Row} (hfits : x.Fits items) :
    ∃ content, renderExportResponse now x.name (x.columns.rows items) "csv" =
        .ok (.csv content (disposition x.name "csv")) ∧
      readExport content = .ok (items.map fun item =>
        x.columns.map fun column => (column.1, cell (column.2 item))) := by
  obtain ⟨content, hcontent, hread⟩ := readExport_renderCsv x.keys_nodup x.columns_ne_nil x.header_fits hfits
  refine ⟨content, ?_, hread⟩
  rw [renderExportResponse, if_neg (by decide), hcontent]
  rfl

theorem newYear_exists : (1 ≤ 1 ∧ 1 ≤ 12) ∧ 1 ≤ 1 ∧ 1 ≤ daysInMonth 2026 1 := by decide

theorem newYear_tomorrow_exists : (1 ≤ 1 ∧ 1 ≤ 12) ∧ 1 ≤ 2 ∧ 2 ≤ daysInMonth 2026 1 := by decide

def januaryUsage : UsageRecordRow where
  id := 1
  clientId := 2
  clientName := "Ana \"and\", Bruno\r\nLtd"
  periodStart := .ofExists newYear_exists
  periodType := "monthly"
  requestCount := 3
  promptTokens := 40
  completionTokens := 2
  createdAt := ⟨.ofExists newYear_tomorrow_exists, 0⟩
  updatedAt := ⟨.ofExists newYear_tomorrow_exists, 1⟩

theorem januaryUsage_fits : ExportName.usage.Fits [januaryUsage] := by
  intro item hitem
  obtain rfl := List.mem_singleton.mp hitem
  have h : exportUsage.all (fun column => (cell (column.2 januaryUsage)).length ≤ excel.limit) = true := by decide
  intro column hcolumn
  simpa using List.all_eq_true.mp h column hcolumn

/-- A name with a delimiter, quotes and a line break. -/
theorem export_csv_read_back_january : ∃ content,
    renderExportResponse januaryUsage.createdAt "usage" (exportUsage.rows [januaryUsage]) "csv" =
        .ok (.csv content (disposition "usage" "csv")) ∧
      readExport content = .ok [exportUsage.map fun column => (column.1, cell (column.2 januaryUsage))] :=
  export_csv_read_back januaryUsage.createdAt .usage januaryUsage_fits

/-! ## Lists and objects -/

/-- A `list` or a `dict`. -/
def IsContainer : Json → Prop
  | .arr _ | .obj _ => True
  | _ => False

theorem loads_cell {v : Json} (hv : IsContainer v) (hproper : Proper v) : loads (cell v) = .ok v := by
  have hcell : cell v = dumps .default v := by
    cases v with
    | arr items => rfl
    | obj fields => rfl
    | _ => cases hv
  rw [hcell]
  exact loads_dumps readable_default rfl hproper

/-- What is shown of a stored text that is JSON. -/
theorem shown_of_loads {shown : Option String → Json} (hshown : shown = jsonList ∨ shown = eventDetails) {raw : String}
    {v : Json} (h : loads raw.toList = .ok v) : shown (some raw) = v := by
  have hne : raw.toList ≠ [] := by
    intro he
    rw [he] at h
    cases h
  rcases hshown with rfl | rfl
  · simp only [jsonList, if_neg hne, h]
  · simp only [eventDetails, if_neg hne, h]

theorem proper_jsonList (raw : Option String) : Proper (jsonList raw) := by
  cases raw with
  | none => exact .null
  | some raw =>
    simp only [jsonList]
    split_ifs
    · exact .null
    · cases h : loads raw.toList with
      | ok v => exact proper_of_loads h
      | error e => exact .str _

theorem proper_eventDetails (raw : Option String) : Proper (eventDetails raw) := by
  have hempty : Proper (.obj []) := .obj List.nodup_nil (by simp)
  cases raw with
  | none => exact hempty
  | some raw =>
    simp only [eventDetails]
    split_ifs
    · exact hempty
    · cases h : loads raw.toList with
      | ok v => exact proper_of_loads h
      | error e =>
        refine .obj (List.nodup_singleton _) fun field hfield => ?_
        obtain rfl := List.mem_singleton.mp hfield
        exact .str _

/-- The lists and objects that the exports show are JSON for the same values in the file in CSV: the allow and block lists
of the clients and their models, the details of the security events and the backend errors of the request logs. Where the
stored text is JSON, the value is what it says. -/
theorem json_columns_read_back (now : Datetime) (x : ExportName) {items : List x.Row} (hfits : x.Fits items)
    {key : String} {raw : x.Row → Option String} (hcolumn : (key, raw) ∈ x.jsonColumns) :
    ∃ content records, renderExportResponse now x.name (x.columns.rows items) "csv" =
        .ok (.csv content (disposition x.name "csv")) ∧
      readExport content = .ok records ∧
      List.Forall₂ (fun item record => ∃ v, (x.columns.row item).lookup key = some v ∧
        (∀ stored w, raw item = some stored → loads stored.toList = .ok w → v = w) ∧
          (IsContainer v → ∃ shown, record.lookup key = some shown ∧ loads shown = .ok v)) items records := by
  obtain ⟨content, hcontent, hread⟩ := readExport_renderCsv x.keys_nodup x.columns_ne_nil x.header_fits hfits
  obtain ⟨shown, hmem, hshown⟩ := ExportName.mem_columns_of_jsonColumns hcolumn
  refine ⟨content, _, ?_, hread, ?_⟩
  · rw [renderExportResponse, if_neg (by decide), hcontent]
    rfl
  rw [List.forall₂_map_right_iff, List.forall₂_same]
  intro item hitem
  have hproper : Proper (shown (raw item)) := by
    rcases hshown with rfl | rfl
    · exact proper_jsonList _
    · exact proper_eventDetails _
  -- the value of a column, in the row and, as a text, in the record
  have hlookup : ∀ {α : Type} (f : Json → α),
      (x.columns.map fun column => (column.1, f (column.2 item))).lookup key = some (f (shown (raw item))) := by
    intro α f
    have hkeys : ((x.columns.map fun column => (column.1, f (column.2 item))).map Prod.fst).Nodup := by
      rw [List.map_map]
      exact x.keys_nodup
    exact (lookup_eq_some_iff hkeys key _).mpr (List.mem_map.mpr ⟨_, hmem, rfl⟩)
  refine ⟨shown (raw item), hlookup id, fun stored w hstored hloads => ?_, fun hv => ?_⟩
  · rw [hstored, shown_of_loads hshown hloads]
  · exact ⟨cell (shown (raw item)), hlookup cell, loads_cell hv hproper⟩

def newYear : Datetime := ⟨.ofExists newYear_exists, 0⟩

/-- An event with some text as its details. -/
def scan (detailJson : Option String) : SecurityEventRow where
  id := 1
  clientId := none
  requestLogId := none
  eventType := "invalid_api_key_burst"
  severity := "high"
  correlationId := none
  sourceIp := some "203.0.113.9"
  apiKeyPrefix := some "sk-abc"
  title := "Invalid API key attempts"
  detailJson
  createdAt := newYear

/-- Details that are an object, none, and a text that is no JSON. -/
def scans : List SecurityEventRow := [scan (some "\x7b\"paths\": [\"/v1, /v2\"]\x7d"), scan none, scan (some "many, \"quick\"")]

def scanPaths : Json := .obj [("paths", .arr [.str "/v1, /v2".toList])]

theorem loads_scanPaths : loads "\x7b\"paths\": [\"/v1, /v2\"]\x7d".toList = .ok scanPaths := by
  have htext : "\x7b\"paths\": [\"/v1, /v2\"]\x7d".toList = dumps .default scanPaths := by decide
  have hproper : Proper scanPaths := by
    refine .obj (List.nodup_singleton _) fun field hfield => ?_
    obtain rfl := List.mem_singleton.mp hfield
    refine .arr fun item hitem => ?_
    obtain rfl := List.mem_singleton.mp hitem
    exact .str _
  rw [htext]
  exact loads_dumps readable_default rfl hproper

theorem scans_fit : ExportName.securityEvents.Fits scans := by
  have hpaths : eventDetails (some "\x7b\"paths\": [\"/v1, /v2\"]\x7d") = scanPaths :=
    shown_of_loads (.inr rfl) loads_scanPaths
  have hquick : eventDetails (some "many, \"quick\"") = .obj [("raw", .str "many, \"quick\"".toList)] := rfl
  have h : scans.all (fun item => exportSecurityEvents.all fun column =>
      (cell (column.2 item)).length ≤ excel.limit) = true := by
    simp only [scans, scan, exportSecurityEvents, List.all_cons, hpaths, hquick]
    decide
  intro item hitem column hcolumn
  simpa using List.all_eq_true.mp (List.all_eq_true.mp h item hitem) column hcolumn

theorem json_columns_read_back_scans : ∃ content records,
    renderExportResponse newYear "security-events" (exportSecurityEvents.rows scans) "csv" =
        .ok (.csv content (disposition "security-events" "csv")) ∧
      readExport content = .ok records ∧
      List.Forall₂ (fun item record => ∃ v, (exportSecurityEvents.row item).lookup "details" = some v ∧
        (∀ stored w, item.detailJson = some stored → loads stored.toList = .ok w → v = w) ∧
          (IsContainer v → ∃ shown, record.lookup "details" = some shown ∧ loads shown = .ok v)) scans records :=
  json_columns_read_back newYear .securityEvents scans_fit (List.mem_cons_self)

end LlmStore.Reporting
