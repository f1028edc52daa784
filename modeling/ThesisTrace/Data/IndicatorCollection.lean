import ThesisTrace.Library.CalendarDate
import ThesisTrace.Library.PythonDecimal
import ThesisTrace.Library.Tiling
import ThesisTrace.Library.Transaction

/-!
# Collection of financial indicators

A report range is halved until every response stays below the cap of the supplier. The responses
are kept as receipts of a collection key, so that an interrupted attempt resumes from them, and
the complete leaves are the evidence of the collection.
-/

namespace ThesisTrace.IndicatorCollection
open Transaction

def financialIndicatorSourceFields : List String :=
  ["ts_code", "ann_date", "end_date", "eps", "dt_eps", "total_revenue_ps", "revenue_ps",
    "capital_rese_ps", "surplus_rese_ps", "undist_profit_ps", "extra_item", "profit_dedt",
    "gross_margin", "current_ratio", "quick_ratio", "cash_ratio", "invturn_days", "arturn_days",
    "inv_turn", "ar_turn", "ca_turn", "fa_turn", "assets_turn", "op_income", "valuechange_income",
    "interst_income", "daa", "ebit", "ebitda", "fcff", "fcfe", "current_exint",
    "noncurrent_exint", "interestdebt", "netdebt", "tangible_asset", "working_capital",
    "networking_capital", "invest_capital", "retained_earnings", "diluted2_eps", "bps", "ocfps",
    "retainedps", "cfps", "ebit_ps", "fcff_ps", "fcfe_ps", "netprofit_margin",
    "grossprofit_margin", "cogs_of_sales", "expense_of_sales", "profit_to_gr", "saleexp_to_gr",
    "adminexp_of_gr", "finaexp_of_gr", "impai_ttm", "gc_of_gr", "op_of_gr", "ebit_of_gr", "roe",
    "roe_waa", "roe_dt", "roa", "npta", "roic", "roe_yearly", "roa2_yearly", "roe_avg",
    "opincome_of_ebt", "investincome_of_ebt", "n_op_profit_of_ebt", "tax_to_ebt",
    "dtprofit_to_profit", "salescash_to_or", "ocf_to_or", "ocf_to_opincome", "capitalized_to_da",
    "debt_to_assets", "assets_to_eqt", "dp_assets_to_eqt", "ca_to_assets", "nca_to_assets",
    "tbassets_to_totalassets", "int_to_talcap", "eqt_to_talcapital", "currentdebt_to_debt",
    "longdeb_to_debt", "ocf_to_shortdebt", "debt_to_eqt", "eqt_to_debt", "eqt_to_interestdebt",
    "tangibleasset_to_debt", "tangasset_to_intdebt", "tangibleasset_to_netdebt", "ocf_to_debt",
    "ocf_to_interestdebt", "ocf_to_netdebt", "ebit_to_interest", "longdebt_to_workingcapital",
    "ebitda_to_debt", "turn_days", "roa_yearly", "roa_dp", "fixed_assets", "profit_prefin_exp",
    "non_op_profit", "op_to_ebt", "nop_to_ebt", "ocf_to_profit", "cash_to_liqdebt",
    "cash_to_liqdebt_withinterest", "op_to_liqdebt", "op_to_debt", "roic_yearly", "total_fa_trun",
    "profit_to_op", "q_opincome", "q_investincome", "q_dtprofit", "q_eps", "q_netprofit_margin",
    "q_gsprofit_margin", "q_exp_to_sales", "q_profit_to_gr", "q_saleexp_to_gr",
    "q_adminexp_to_gr", "q_finaexp_to_gr", "q_impair_to_gr_ttm", "q_gc_to_gr", "q_op_to_gr",
    "q_roe", "q_dt_roe", "q_npta", "q_opincome_to_ebt", "q_investincome_to_ebt",
    "q_dtprofit_to_profit", "q_salescash_to_or", "q_ocf_to_sales", "q_ocf_to_or", "basic_eps_yoy",
    "dt_eps_yoy", "cfps_yoy", "op_yoy", "ebt_yoy", "netprofit_yoy", "dt_netprofit_yoy", "ocf_yoy",
    "roe_yoy", "bps_yoy", "assets_yoy", "eqt_yoy", "tr_yoy", "or_yoy", "q_gr_yoy", "q_gr_qoq",
    "q_sales_yoy", "q_sales_qoq", "q_op_yoy", "q_op_qoq", "q_profit_yoy", "q_profit_qoq",
    "q_netprofit_yoy", "q_netprofit_qoq", "equity_yoy", "rd_exp", "update_flag"]

/-! ### Responses -/

/-- A cell of a source row. -/
inductive Cell
  | null
  | text (value : String)
  | number (value : ℤ)
  | other (repr : String)
  deriving DecidableEq, Repr

/-- `str(cell)` -/
def Cell.str : Cell → String
  | .null => "None"
  | .text value => value
  | .number value => toString value
  | .other repr => repr

structure RawSourceResponse where
  fields : List String
  items : List (List Cell)
  deriving DecidableEq

/-- `dict(zip(fields, item))[name]` for fields without repetitions -/
def cellOf (fields : List String) (item : List Cell) (name : String) : Option Cell :=
  (fields.zip item).lookup name

/-- The parameters and the columns of a request for `fina_indicator` -/
structure Request where
  tsCode : String
  startDate : String
  endDate : String
  fields : List String
  deriving DecidableEq

def requestOf (tsCode : String) (lower upper : CalendarDate) : Request :=
  ⟨tsCode, lower.compactText, upper.compactText, financialIndicatorSourceFields⟩

def rowLimit : ℕ := 100

inductive CollectionError
  /-- "Invalid indicator report range or identity" -/
  | range
  /-- An error of the supplier -/
  | upstream (code : String)
  /-- `MALFORMED_FINANCIAL_INDICATOR_PAYLOAD` -/
  | malformed
  /-- `FINANCIAL_INDICATOR_TRUNCATED` -/
  | truncated
  /-- `OverflowError` of a date -/
  | overflow
  /-- "Indicator checkpoint requires a collection key" -/
  | collectionKey
  /-- An observation that `_validate_observation` rejects -/
  | observation
  /-- "Conflicting indicator request receipts" -/
  | conflictingReceipts
  /-- "Indicator receipt scope differs" -/
  | receiptScope
  /-- `RAW_BATCH_READ_FAILED` -/
  | rawRead
  /-- "Indicator receipt lacks requested columns" -/
  | receiptColumns
  /-- "Indicator receipt contains unrelated source rows" -/
  | unrelatedRows
  /-- "Invalid indicator collection range" -/
  | collectionRange
  deriving DecidableEq, Repr

/-! ### The source -/

structure FinancialIndicatorSourceShard where
  lower : CalendarDate
  upper : CalendarDate
  response : RawSourceResponse
  complete : Bool
  deriving DecidableEq

/-- A row of a response to a request of a range -/
def checkRow (tsCode : String) (lower upper : CalendarDate) (fields : List String)
    (item : List Cell) : Except CollectionError Unit := do
  require (item.length = fields.length) .malformed
  let period ← found (cellOf fields item "end_date") .malformed
  require ((CalendarDate.strptime period.str).isSome) .malformed
  require (cellOf fields item "ts_code" = some (.text tsCode) ∧
    lower.compactText ≤ period.str ∧ period.str ≤ upper.compactText) .malformed

def checkResponse (tsCode : String) (lower upper : CalendarDate) (raw : RawSourceResponse) :
    Except CollectionError Unit := do
  require (raw.fields.Nodup ∧ financialIndicatorSourceFields ⊆ raw.fields) .malformed
  let _ ← raw.items.mapM (checkRow tsCode lower upper raw.fields)

abbrev Range := CalendarDate × CalendarDate

/-- Whom the source queries: it answers or fails, and may change. -/
abbrev Query (S : Type) := S → Request → S × Except CollectionError RawSourceResponse

section Source

variable {S : Type} (query : Query S) (tsCode : String)

/-- The middle of a range and the day after it -/
def midpoint (lower upper : CalendarDate) : Except CollectionError (CalendarDate × CalendarDate) := do
  let middle ← found (CalendarDate.addDays ((upper.ordinal - lower.ordinal) / 2) lower) .overflow
  let next ← found (CalendarDate.addDays 1 middle) .overflow
  return (middle, next)

/-- A turn of the loop: the shard it yields and the ranges it leaves on the stack -/
def visit (state : S) (lower upper : CalendarDate) (pending : List Range) :
    S × Except CollectionError (FinancialIndicatorSourceShard × List Range) :=
  match query state (requestOf tsCode lower upper) with
  | (state, .error error) => (state, .error error)
  | (state, .ok raw) => (state, do
    checkResponse tsCode lower upper raw
    let complete := decide (raw.items.length < rowLimit)
    let shard : FinancialIndicatorSourceShard := ⟨lower, upper, raw, complete⟩
    if complete then return (shard, pending)
    else do
      require (lower ≠ upper) .truncated
      let (middle, next) ← midpoint lower upper
      return (shard, (lower, middle) :: (next, upper) :: pending))

/-- The loop of `collect_report_range`, with its stack and the shards that it has yielded. It has no
result yet where the fuel ends first. -/
def collectLoop : ℕ → S → List Range → List FinancialIndicatorSourceShard →
    S × Option (Except CollectionError (List FinancialIndicatorSourceShard))
  | _, state, [], shards => (state, some (.ok shards))
  | 0, state, _ :: _, _ => (state, none)
  | fuel + 1, state, (lower, upper) :: pending, shards =>
    match visit query tsCode state lower upper pending with
    | (state, .error error) => (state, some (.error error))
    | (state, .ok (shard, pending)) => collectLoop fuel state pending (shards ++ [shard])

/-- `not ts_code or ts_code != ts_code.strip()` fails. -/
def IsIdentity (tsCode : String) : Prop :=
  tsCode ≠ "" ∧ PythonDecimal.trim tsCode.toList = tsCode.toList

instance : Decidable (IsIdentity tsCode) := inferInstanceAs (Decidable (_ ∧ _))

/-- `collect_report_range`, with fuel for its loop -/
def collectReportRange (fuel : ℕ) (state : S) (start stop : CalendarDate) :
    S × Option (Except CollectionError (List FinancialIndicatorSourceShard)) :=
  if start ≤ stop ∧ IsIdentity tsCode then collectLoop query tsCode fuel state [(start, stop)] []
  else (state, some (.error .range))

end Source

/-! ### The checkpoint -/

structure Observation (T : Type) where
  observedAt : T
  fields : List String
  items : List (List Cell)
  deriving DecidableEq

def Observation.response {T : Type} (observation : Observation T) : RawSourceResponse :=
  ⟨observation.fields, observation.items⟩

/-- `_validate_observation` -/
def validateObservation {T : Type} (observation : Observation T) : Except CollectionError Unit :=
  require (observation.fields.Nodup ∧ ["ts_code", "end_date", "ann_date"] ⊆ observation.fields ∧
    ∀ item ∈ observation.items, item.length = observation.fields.length) .observation

structure Receipt (D : Type) where
  collectionKey : String
  request : Request
  observationSha256 : D
  deriving DecidableEq

/-- The digest of an observation's bytes, without collisions -/
structure ObservationDigest (T D : Type) where
  sha256 : Observation T → D
  injective : Function.Injective sha256

/-- What outlives an attempt: the receipts of the collection key and the raw store. -/
structure CheckpointFiles (T D : Type) where
  receipts : Request → List (Receipt D)
  raw : List (Observation T)

structure Used (T : Type) where
  request : Request
  observation : Observation T
  deriving DecidableEq

/-- A checkpoint object; the supplier and the clock are asked by the number of the call. -/
structure FinancialIndicatorCheckpoint (T D : Type) where
  files : CheckpointFiles T D
  used : List (Used T)
  calls : ℕ

structure Environment (T : Type) where
  provider : ℕ → Request → Except CollectionError RawSourceResponse
  clock : ℕ → T

section Checkpoint

variable {T D : Type} [DecidableEq T] [DecidableEq D] (digest : ObservationDigest T D)
  (collectionKey : String)

/-- `FinancialIndicatorObservationStore.read`; a file is read with its digest. -/
def readObservation (raw : List (Observation T)) (sha256 : D) :
    Except CollectionError (Observation T) := do
  let observation ← found (raw.find? fun observation => digest.sha256 observation = sha256) .rawRead
  validateObservation observation
  return observation

/-- `self._used[request_id] = value` -/
def setUsed (used : List (Used T)) (entry : Used T) : List (Used T) :=
  if used.any (·.request = entry.request) then
    used.map fun old => if old.request = entry.request then entry else old
  else used ++ [entry]

/-- The observation of a stored receipt -/
def readReceipt (files : CheckpointFiles T D) (request : Request) (receipt : Receipt D) :
    Except CollectionError (Observation T) := do
  require (receipt.collectionKey = collectionKey ∧ receipt.request = request) .receiptScope
  readObservation digest files.raw receipt.observationSha256

/-- `FinancialIndicatorCheckpoint.query_raw` -/
def queryRaw (environment : Environment T) (state : FinancialIndicatorCheckpoint T D)
    (request : Request) :
    FinancialIndicatorCheckpoint T D × Except CollectionError RawSourceResponse :=
  match state.files.receipts request with
  | [receipt] =>
    match readReceipt digest collectionKey state.files request receipt with
    | .error error => (state, .error error)
    | .ok observation =>
      ({ state with used := setUsed state.used ⟨request, observation⟩ }, .ok observation.response)
  | [] =>
    match environment.provider state.calls request with
    | .error error => ({ state with calls := state.calls + 1 }, .error error)
    | .ok response =>
      let observation : Observation T :=
        ⟨environment.clock state.calls, response.fields, response.items⟩
      match validateObservation observation with
      | .error error => ({ state with calls := state.calls + 1 }, .error error)
      | .ok () =>
        ({ files :=
            { receipts := Function.update state.files.receipts request
                [⟨collectionKey, request, digest.sha256 observation⟩]
              raw := state.files.raw ++ [observation] }
           used := setUsed state.used ⟨request, observation⟩
           calls := state.calls + 1 }, .ok response)
  | _ => (state, .error .conflictingReceipts)

/-- A row that `observations` accepts for a request -/
def relatedRow (request : Request) (fields : List String) (item : List Cell) : Bool :=
  cellOf fields item "ts_code" = some (.text request.tsCode) &&
    (cellOf fields item "end_date").any fun period => CalendarDate.isCompact period.str &&
      request.startDate ≤ period.str && period.str ≤ request.endDate

def checkUsed (entry : Used T) : Except CollectionError Unit := do
  require (entry.request.fields ⊆ entry.observation.fields) .receiptColumns
  require (∀ item ∈ entry.observation.items,
    item.length = entry.observation.fields.length ∧
      relatedRow entry.request entry.observation.fields item) .unrelatedRows

/-- A response below the cap -/
def Used.isLeaf (entry : Used T) : Bool := entry.observation.items.length < rowLimit

def observations (state : FinancialIndicatorCheckpoint T D) :
    Except CollectionError (List (Observation T)) := do
  let _ ← state.used.mapM checkUsed
  return (state.used.filter Used.isLeaf).map Used.observation

structure CompletedRequest (D : Type) where
  request : Request
  observationSha256 : D
  deriving DecidableEq

def completedRequests (state : FinancialIndicatorCheckpoint T D) :
    Except CollectionError (List (CompletedRequest D)) := do
  let _ ← observations state
  return (state.used.filter Used.isLeaf).map fun entry =>
    ⟨entry.request, digest.sha256 entry.observation⟩

end Checkpoint

/-! ### Evidence of a collection -/

structure CollectionEvidence (D : Type) where
  collectionKey : String
  instrumentId : String
  tsCode : String
  startDate : CalendarDate
  endDate : CalendarDate
  checkedThrough : CalendarDate
  completedRequests : List (CompletedRequest D)

structure HistoricalInstrumentIdentity where
  instrumentId : String
  tsCode : String

inductive EvidenceError
  /-- "Invalid indicator collection evidence" -/
  | evidence
  /-- "Invalid indicator collection dates" -/
  | dates
  /-- "Indicator collection has no completed requests" -/
  | noRequests
  /-- "Invalid indicator request source contract" -/
  | sourceContract
  /-- "Invalid indicator request identity" -/
  | identity
  /-- A date that is not read -/
  | notDate
  /-- "Indicator leaf lies outside collection interval" -/
  | outsideInterval
  /-- An error of the raw store -/
  | raw (error : CollectionError)
  /-- "Indicator leaf lacks columns or may be truncated" -/
  | columnsOrTruncated
  /-- "Indicator source row lies outside its request" -/
  | rowOutside
  /-- "Indicator collection intervals overlap or have gaps" -/
  | overlapOrGap
  /-- "Indicator collection interval is incomplete" -/
  | incomplete
  /-- `OverflowError` of a date -/
  | overflow
  deriving DecidableEq, Repr

section Evidence

variable {T D : Type} [DecidableEq T] [DecidableEq D] (digest : ObservationDigest T D)

/-- The evidence that `FinancialIndicatorCollector.collect` stores -/
def evidenceOf (collectionKey : String) (identity : HistoricalInstrumentIdentity)
    (start stop checkedThrough : CalendarDate) (state : FinancialIndicatorCheckpoint T D) :
    Except CollectionError (CollectionEvidence D) := do
  let completed ← completedRequests digest state
  return ⟨collectionKey, identity.instrumentId, identity.tsCode, start, stop, checkedThrough,
    completed⟩

/-- `FinancialIndicatorCollector.collect` as far as its evidence, with fuel for the loop over the
ranges -/
def collect (collectionKey : String) (environment : Environment T)
    (identity : HistoricalInstrumentIdentity) (start stop checkedThrough : CalendarDate)
    (fuel : ℕ) (files : CheckpointFiles T D) :
    FinancialIndicatorCheckpoint T D × Option (Except CollectionError
      (List FinancialIndicatorSourceShard × CollectionEvidence D)) :=
  let opened : FinancialIndicatorCheckpoint T D := ⟨files, [], 0⟩
  if ¬ (start ≤ stop ∧ stop ≤ checkedThrough) then (opened, some (.error .collectionRange))
  else if collectionKey = "" then (opened, some (.error .collectionKey))
  else
    match collectReportRange (queryRaw digest collectionKey environment) identity.tsCode fuel opened
      start stop with
    | (state, none) => (state, none)
    | (state, some (.error error)) => (state, some (.error error))
    | (state, some (.ok shards)) =>
      (state, some ((evidenceOf digest collectionKey identity start stop checkedThrough state).map
        (shards, ·)))

/-- The columns of a row within its request -/
def checkLeafRow (evidence : CollectionEvidence D) (lower upper : CalendarDate)
    (fields : List String) (item : List Cell) : Except EvidenceError Unit := do
  require (item.length = fields.length) .rowOutside
  let period ← found (cellOf fields item "end_date") .rowOutside
  let date ← found (CalendarDate.strptime period.str) .notDate
  require (cellOf fields item "ts_code" = some (.text evidence.tsCode) ∧ lower ≤ date ∧
    date ≤ upper) .rowOutside

/-- The interval of a completed request -/
def checkLeaf (raw : List (Observation T)) (evidence : CollectionEvidence D)
    (completed : CompletedRequest D) : Except EvidenceError Range := do
  require (completed.request.fields = financialIndicatorSourceFields) .sourceContract
  require (completed.request.tsCode = evidence.tsCode) .identity
  let lower ← found (CalendarDate.strptime completed.request.startDate) .notDate
  let upper ← found (CalendarDate.strptime completed.request.endDate) .notDate
  require (evidence.startDate ≤ lower ∧ lower ≤ upper ∧ upper ≤ evidence.endDate) .outsideInterval
  let observation ← (readObservation digest raw completed.observationSha256).mapError .raw
  require ((observation.fields ⊆ financialIndicatorSourceFields ∧
    financialIndicatorSourceFields ⊆ observation.fields) ∧
      observation.items.length < rowLimit) .columnsOrTruncated
  let _ ← observation.items.mapM (checkLeafRow evidence lower upper observation.fields)
  return (lower, upper)

/-- The loop over the sorted intervals, with the day that the next one starts on -/
def checkTiling : CalendarDate → List Range → Except EvidenceError CalendarDate
  | nextDay, [] => .ok nextDay
  | nextDay, (lower, upper) :: intervals => do
    require (lower = nextDay) .overlapOrGap
    let nextDay ← found upper.tomorrow .overflow
    checkTiling nextDay intervals

/-- `sorted(intervals)` -/
def sortIntervals (intervals : List Range) : List Range :=
  intervals.insertionSort fun a b => toLex a ≤ toLex b

/-- `validate_indicator_collection_evidence` -/
def validateIndicatorCollectionEvidence (raw : List (Observation T))
    (evidence : CollectionEvidence D) : Except EvidenceError Unit := do
  require (evidence.collectionKey ≠ "" ∧ evidence.instrumentId ≠ "" ∧ evidence.tsCode ≠ "") .evidence
  require (evidence.startDate ≤ evidence.endDate ∧ evidence.endDate ≤ evidence.checkedThrough) .dates
  require (evidence.completedRequests ≠ []) .noRequests
  let intervals ← evidence.completedRequests.mapM (checkLeaf digest raw evidence)
  let nextDay ← checkTiling evidence.startDate (sortIntervals intervals)
  let afterEnd ← found evidence.endDate.tomorrow .overflow
  require (nextDay = afterEnd) .incomplete

end Evidence

/-! ### Interrupted attempts -/

/-- An attempt that ends after some queries, perhaps with a last observation that is stored and has
no receipt -/
structure Interruption (T : Type) where
  environment : Environment T
  queries : ℕ
  unreceipted : Option (Observation T)

section Interruptions

variable {T D : Type} [DecidableEq T] [DecidableEq D] (digest : ObservationDigest T D)

/-- The files that an interrupted attempt leaves -/
def interrupted (collectionKey : String) (identity : HistoricalInstrumentIdentity)
    (start stop checkedThrough : CalendarDate) (files : CheckpointFiles T D)
    (interruption : Interruption T) : CheckpointFiles T D :=
  let left := (collect digest collectionKey interruption.environment identity start stop
    checkedThrough interruption.queries files).1.files
  { left with raw := left.raw ++ interruption.unreceipted.toList }

end Interruptions

end ThesisTrace.IndicatorCollection
