import Mathlib.Data.Sum.Order
import ThesisTrace.Evidence.EventPages
import ThesisTrace.Library.JsonText
import ThesisTrace.Library.Transaction

/-!
# Owned collections of Runs

The predicates, the order and the cursors of a Run list, and one page of it. Times `T`, finite
numbers `V` and ids come with the orders that the database gives them.
-/

namespace ThesisTrace.ResearchRun.Queries
open Transaction JsonText Pagination

/-- `id`, in the collation of its column; ids are generated with a prefix. -/
structure RunKey where
  text : String
  nonempty : text ≠ ""
  deriving DecidableEq

inductive Metric
  | annualizedExcessReturn
  | sharpe
  | maximumDrawdown
  | oneSessionRankIc
  | fiveSessionRankIc
  | twentySessionRankIc
  deriving DecidableEq, Repr

inductive MetricOperator
  | gt
  | gte
  | lt
  | lte
  deriving DecidableEq, Repr

structure MetricFilter (V : Type) where
  metric : Metric
  operator : MetricOperator
  value : V
  deriving DecidableEq, Repr

inductive SortKey
  | createdAt
  | metric (metric : Metric)
  deriving DecidableEq, Repr

inductive SortDirection
  | ascending
  | descending
  deriving DecidableEq, Repr

/-- A query; `search` is stripped and not empty. Dates are in their order. -/
structure RunQuery (V : Type) where
  folderId : Option String
  researchKind : Option String
  status : Option String
  search : Option String
  researchPeriod : Option (Nat × Nat)
  universeName : Option String
  metricFilters : List (MetricFilter V)
  sortBy : SortKey
  sortDirection : SortDirection
  deriving DecidableEq, Repr

/-- The columns of a Run that a list reads. -/
structure RunRecord (T V : Type) where
  researcherId : Nat
  id : RunKey
  folderId : String
  researchKind : String
  status : String
  universeName : String
  requestedStartDate : Nat
  requestedEndDate : Nat
  name : String
  searchNotes : Option String
  searchFormula : Option String
  createdAt : T
  keyMetrics : Metric → Option V

/-! ### Predicates -/

/-- `text LIKE pattern ESCAPE escape` -/
def like (escape : Char) : List Char → List Char → Bool
  | [], text => text.isEmpty
  | '%' :: pattern, [] => like escape pattern []
  | '%' :: pattern, c :: text => like escape pattern (c :: text) || like escape ('%' :: pattern) text
  | p :: pattern, text =>
    match text with
    | [] => false
    | c :: rest =>
      if p = escape then
        match pattern with
        | [] => false
        | literal :: pattern => literal = c && like escape pattern rest
      else (p = '_' || p = c) && like escape pattern rest
termination_by pattern text => pattern.length + text.length

def escapeSearch (search : List Char) : List Char :=
  search.flatMap fun c => if c = '!' ∨ c = '%' ∨ c = '_' then ['!', c] else [c]

section Predicates

variable {T V : Type} [LinearOrder V] (lower : String → String)

def RunRecord.matchesSearch (run : RunRecord T V) (search : String) : Bool :=
  let pattern := (lower (String.ofList ('%' :: escapeSearch search.toList ++ ['%']))).toList
  like '!' pattern (lower run.name).toList ||
    run.searchNotes.any (fun notes => like '!' pattern notes.toList) ||
    run.searchFormula.any fun formula => like '!' pattern formula.toList

/-- A missing metric never matches. -/
def MetricFilter.matches (filter : MetricFilter V) (run : RunRecord T V) : Bool :=
  (run.keyMetrics filter.metric).any fun value =>
    match filter.operator with
    | .gt => filter.value < value
    | .gte => filter.value ≤ value
    | .lt => value < filter.value
    | .lte => value ≤ filter.value

/-- `query_predicates` -/
def RunQuery.matches (query : RunQuery V) (researcherId : Nat) (run : RunRecord T V) : Bool :=
  run.researcherId = researcherId &&
    query.folderId.all (fun folderId => run.folderId = folderId) &&
    query.researchKind.all (fun kind => run.researchKind = kind) &&
    query.status.all (fun status => run.status = status) &&
    query.universeName.all (fun name => run.universeName = name) &&
    query.researchPeriod.all (fun period =>
      run.requestedStartDate = period.1 && run.requestedEndDate = period.2) &&
    query.search.all (fun search => run.matchesSearch lower search) &&
    query.metricFilters.all fun filter => filter.matches run

end Predicates

/-! ### Order -/

section Order

variable {T V : Type}

/-- A time or a number, whichever the query sorts by. -/
abbrev SortValue (T V : Type) := T ⊕ₗ V

/-- `sort_expression` -/
def sortValue (query : RunQuery V) (run : RunRecord T V) : Option (SortValue T V) :=
  match query.sortBy with
  | .createdAt => some (Sum.inlₗ run.createdAt)
  | .metric metric => (run.keyMetrics metric).map Sum.inrₗ

variable [LinearOrder T] [LinearOrder V] [LinearOrder RunKey]

/-- `<` or `>`, as the direction has it -/
def SortDirection.before (direction : SortDirection) (a b : SortValue T V) : Prop :=
  match direction with
  | .ascending => a < b
  | .descending => b < a

/-- `sort_value direction NULLS LAST` -/
def SortDirection.nullsLast (direction : SortDirection) :
    Option (SortValue T V) → Option (SortValue T V) → Prop
  | some a, some b => direction.before a b
  | some _, none => True
  | none, _ => False

/-- The keys after the sort value: `created_at DESC` unless that is the sort value, and `id ASC`. -/
def RunQuery.tieBefore (query : RunQuery V) (createdAt : T) (id : RunKey) (run : RunRecord T V) :
    Prop :=
  match query.sortBy with
  | .createdAt => id < run.id
  | .metric _ => run.createdAt < createdAt ∨ run.createdAt = createdAt ∧ id < run.id

/-- `query_order` -/
def RunQuery.precedes (query : RunQuery V) (a b : RunRecord T V) : Prop :=
  query.sortDirection.nullsLast (sortValue query a) (sortValue query b) ∨
    sortValue query a = sortValue query b ∧ query.tieBefore a.createdAt a.id b

instance (direction : SortDirection) (a b : SortValue T V) : Decidable (direction.before a b) := by
  unfold SortDirection.before
  cases direction <;> infer_instance

instance (direction : SortDirection) (a b : Option (SortValue T V)) :
    Decidable (direction.nullsLast a b) := by
  unfold SortDirection.nullsLast
  cases a <;> cases b <;> infer_instance

instance (query : RunQuery V) (createdAt : T) (id : RunKey) (run : RunRecord T V) :
    Decidable (query.tieBefore createdAt id run) := by
  unfold RunQuery.tieBefore
  cases query.sortBy <;> infer_instance

instance (query : RunQuery V) (a b : RunRecord T V) : Decidable (query.precedes a b) := by
  unfold RunQuery.precedes
  infer_instance

end Order

/-! ### Cursors -/

/-- The texts and the cipher of cursors. Times are aware ones, numbers are finite, and the cipher
draws a fresh nonce for every token. -/
structure CursorCodec (T V : Type) where
  format : FloatFormat V
  ofInt : ℤ → V
  isoformat : T → String
  fromisoformat : String → Option T
  researcherText : Nat → String
  queryFingerprint : RunQuery V → String
  encrypt : Nat → List UInt8 → String
  decrypt : String → Option (List UInt8)
  fromisoformat_isoformat : ∀ time, fromisoformat (isoformat time) = some time
  decrypt_encrypt : ∀ nonce bytes, decrypt (encrypt nonce bytes) = some bytes

/-- What a cursor holds of the last row of its page. -/
inductive Position (T V : Type)
  | createdAt (createdAt : T) (id : RunKey)
  | metric (value : Option V) (createdAt : T) (id : RunKey)
  deriving DecidableEq

inductive ListError
  | limitInvalid
  | cursorInvalid
  | pageCapacity
  deriving DecidableEq, Repr

section Cursors

variable {T V : Type} (codec : CursorCodec T V)

def cursorValue (query : RunQuery V) (run : RunRecord T V) : Json V :=
  match query.sortBy with
  | .createdAt => .str (codec.isoformat run.createdAt)
  | .metric metric =>
    match run.keyMetrics metric with
    | some value => .float value
    | none => .null

def cursorPayload (researcherId : Nat) (query : RunQuery V) (run : RunRecord T V) : Json V :=
  .obj [("version", .int 1), ("researcher", .str (codec.researcherText researcherId)),
    ("query", .str (codec.queryFingerprint query)), ("id", .str run.id.text),
    ("created_at", .str (codec.isoformat run.createdAt)), ("value", cursorValue codec query run)]

def encodeCursor (nonce researcherId : Nat) (query : RunQuery V) (run : RunRecord T V) : String :=
  codec.encrypt nonce (dumpBytes codec.format true (cursorPayload codec researcherId query run))

variable [DecidableEq V]

/-- `value == 1` -/
def equalsOne : Json V → Bool
  | .int value => value = 1
  | .bool value => value
  | .float value => value = codec.ofInt 1
  | _ => false

def equalsText (text : String) : Option (Json V) → Bool
  | some (.str value) => value = text
  | _ => false

def idOf : Option (Json V) → Option RunKey
  | some (.str text) => if h : text ≠ "" then some ⟨text, h⟩ else none
  | _ => none

def timeOf : Option (Json V) → Option T
  | some (.str text) => codec.fromisoformat text
  | _ => none

def numberOf : Option (Json V) → Option (Option V)
  | some .null => some none
  | some (.float value) => some (some value)
  | some (.int value) => some (some (codec.ofInt value))
  | _ => none

variable [DecidableEq T]

/-- The checks of `cursor_predicate` on a decrypted payload. -/
def checkPayload (researcherId : Nat) (query : RunQuery V) (fields : List (String × Json V)) :
    Except ListError (Position T V) := do
  require ((fields.map Prod.fst).toFinset =
    {"version", "researcher", "query", "id", "created_at", "value"}) .cursorInvalid
  require ((lookup fields "version").any (equalsOne codec)) .cursorInvalid
  require (equalsText (codec.researcherText researcherId) (lookup fields "researcher"))
    .cursorInvalid
  require (equalsText (codec.queryFingerprint query) (lookup fields "query")) .cursorInvalid
  let id ← found (idOf (lookup fields "id")) .cursorInvalid
  let createdAt ← found (timeOf codec (lookup fields "created_at")) .cursorInvalid
  match query.sortBy with
  | .createdAt =>
    let value ← found (timeOf codec (lookup fields "value")) .cursorInvalid
    require (value = createdAt) .cursorInvalid
    return .createdAt value id
  | .metric _ =>
    let value ← found (numberOf codec (lookup fields "value")) .cursorInvalid
    return .metric value createdAt id

def cursorPosition (researcherId : Nat) (query : RunQuery V) (cursor : String) :
    Except ListError (Position T V) := do
  let bytes ← found (codec.decrypt cursor) .cursorInvalid
  match loadBytes codec.format bytes with
  | some (.obj fields) => checkPayload codec researcherId query fields
  | _ => .error .cursorInvalid

end Cursors

/-! ### Pages -/

section Pages

variable {T V : Type} [LinearOrder T] [LinearOrder V] [LinearOrder RunKey]

/-- `sort_value comparison %s`, which is unknown for a missing value -/
def RunQuery.compares (query : RunQuery V) (value : SortValue T V) (run : RunRecord T V) : Bool :=
  (sortValue query run).any fun sort => query.sortDirection.before value sort

/-- The predicate that `cursor_predicate` writes. -/
def RunQuery.continues (query : RunQuery V) (run : RunRecord T V) : Position T V → Bool
  | .createdAt createdAt id =>
    let value : SortValue T V := Sum.inlₗ createdAt
    query.compares value run || sortValue query run = some value && id < run.id
  | .metric value createdAt id =>
    let tie := run.createdAt < createdAt || run.createdAt = createdAt && id < run.id
    match value with
    | none => (sortValue query run).isNone && tie
    | some number =>
      let value : SortValue T V := Sum.inrₗ number
      (sortValue query run).isNone || query.compares value run ||
        sortValue query run = some value && tie

/-- `ORDER BY` on the rows that match and continue -/
def RunQuery.ordered (query : RunQuery V) (runs : List (RunRecord T V)) : List (RunRecord T V) :=
  runs.mergeSort fun a b => ¬query.precedes b a

variable (lower : String → String) (codec : CursorCodec T V)

def queryRows (runs : List (RunRecord T V)) (researcherId : Nat) (query : RunQuery V) (limit : Nat)
    (position : Option (Position T V)) : List (RunRecord T V) :=
  let filtered := runs.filter fun run => query.matches lower researcherId run
  (query.ordered (filtered.filter fun run => position.all (query.continues run))).take limit

/-- No cursor stands before the whole list. -/
def requestedPosition (researcherId : Nat) (query : RunQuery V) :
    Option String → Except ListError (Option (Position T V))
  | none => .ok none
  | some cursor => (cursorPosition codec researcherId query cursor).map some

/-- The page of the Runs that are kept of the records read, whose cursor is the last one kept. -/
def keptPage (records : List (RunRecord T V)) (nonce researcherId : Nat) (query : RunQuery V)
    (kept : List (RunRecord T V)) : Page String (RunRecord T V) where
  rows := kept
  next :=
    if kept ≠ [] ∧ kept.length < records.length then
      records[kept.length - 1]?.map (encodeCursor codec nonce researcherId query)
    else none

/-- One request for a page, which is cut back to the Runs that fit. -/
def listRuns (runs : List (RunRecord T V)) (researcherId : Nat) (query : RunQuery V)
    (nonce limit : Nat) (fits : Page String (RunRecord T V) → Bool) (cursor : Option String) :
    Except ListError (Page String (RunRecord T V)) := do
  require (1 ≤ limit ∧ limit ≤ 50) .limitInvalid
  let position ← requestedPosition codec researcherId query cursor
  let records := queryRows lower runs researcherId query (limit + 1) position
  let kept ← found (Evidence.fitPage
    (fun kept => fits (keptPage codec records nonce researcherId query kept))
    (records.take limit)) .pageCapacity
  return keptPage codec records nonce researcherId query kept

end Pages

end ThesisTrace.ResearchRun.Queries
