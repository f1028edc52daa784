import ThesisTrace.Library.CanonicalJson
import ThesisTrace.Library.JsonDepth

/-!
# The working cache of continuations

One file for every Track, which attempts store, load, replace and remove, and which anything else
may damage at any time.
-/

namespace ThesisTrace.DailyTrack.WorkingCache
open JsonText

/-- What `decompress` gives of a stream, up to a length. -/
structure Inflated where
  payload : List UInt8
  eof : Bool
  unconsumedTail : List UInt8
  unusedData : List UInt8

/-- The digest, the encodings and the JSON reader, which stops at the limit of the recursion. -/
structure CacheCodec (F : Type) where
  format : FloatFormat F
  /-- The integer that a float equals, if any. -/
  integral : F → Option ℤ
  loads : List UInt8 → Except ReadError (Json F)
  sha256 : List UInt8 → String
  b64encode : List UInt8 → String
  b64decode : String → Option (List UInt8)
  compress : List UInt8 → List UInt8
  decompress : List UInt8 → ℕ → Option Inflated
  loads_canonicalBytes : ∀ v : Json F, v.WellFormed →
    ReadsSame v.sorted (loads (canonicalBytes format v))
  sha256_injective : Function.Injective sha256
  b64decode_b64encode : ∀ bytes, b64decode (b64encode bytes) = some bytes
  decompress_compress : ∀ bytes n, bytes.length < n →
    decompress (compress bytes) n = some ⟨bytes, true, [], []⟩

def maxWorkingCacheBytes : ℕ := 2097152

def maxPendingAlphaSessions : ℕ := 21

def cacheSchemaVersion : ℤ := 1

def cacheKeys : Finset String :=
  {"continuation_bytes", "continuation_sha256", "continuation_zlib_base64", "fence",
    "head_manifest_sha256", "pending_alpha_sessions", "schema_version", "track_id"}

/-- A mapping, whose keys are distinct. -/
structure Continuation (F : Type) where
  value : Json F
  wellFormed : value.WellFormed

/-- What an entry is stored for. -/
structure Basis where
  trackId : String
  headManifestSha256 : String
  fence : ℤ
  deriving DecidableEq

structure Request extends Basis where
  continuationSha256 : String
  pendingAlphaSessions : ℤ

/-! ### Entries -/

section Entries

variable {F : Type}

def isMapping : Json F → Bool
  | .obj _ => true
  | _ => false

/-- `_pending_alpha_count`, unless it raises -/
def pendingAlphaCount : Json F → Option ℕ
  | .obj fields => do
    guard ((fields.map Prod.fst).toFinset = {"schema_version", "pending_alpha"})
    match lookup fields "schema_version", lookup fields "pending_alpha" with
    | some (.str version), some (.arr pending) =>
      guard (version = "daily-track-working-state-v1")
      guard (pending.length ≤ maxPendingAlphaSessions)
      guard (pending.all isMapping)
      return pending.length
    | _, _ => none
  | _ => none

variable (codec : CacheCodec F) (maxBytes : ℕ)

def equalsInt (expected : ℤ) : Option (Json F) → Bool
  | some (.int value) => value = expected
  | some (.bool value) => value.toInt = expected
  | some (.float value) => codec.integral value = some expected
  | _ => false

def equalsText (expected : String) : Option (Json F) → Bool
  | some (.str value) => value = expected
  | _ => false

/-- An `int`, which `True` and `False` are as well -/
def intOf : Option (Json F) → Option ℤ
  | some (.int value) => some value
  | some (.bool value) => some value.toInt
  | _ => none

def textOf : Option (Json F) → Option String
  | some (.str text) => some text
  | _ => none

/-- The entry is for what the request asks for. -/
def basisMatches (request : Request) (fields : List (String × Json F)) : Bool :=
  equalsInt codec cacheSchemaVersion (lookup fields "schema_version") &&
    equalsText request.trackId (lookup fields "track_id") &&
    equalsText request.headManifestSha256 (lookup fields "head_manifest_sha256") &&
    equalsInt codec request.fence (lookup fields "fence") &&
    equalsText request.continuationSha256 (lookup fields "continuation_sha256") &&
    equalsInt codec request.pendingAlphaSessions (lookup fields "pending_alpha_sessions")

def boundedDecompress (compressed : List UInt8) (expectedBytes : ℕ) : Option (List UInt8) := do
  let inflated ← codec.decompress compressed (expectedBytes + 1)
  guard (inflated.payload.length = expectedBytes ∧ inflated.eof = true ∧
    inflated.unconsumedTail = [] ∧ inflated.unusedData = [])
  return inflated.payload

/-- The payload of an entry, after every check up to its digest -/
def payloadOf (request : Request) : Json F → Option (List UInt8)
  | .obj fields => do
    guard ((fields.map Prod.fst).toFinset = cacheKeys)
    guard (basisMatches codec request fields)
    let continuationBytes ← intOf (lookup fields "continuation_bytes")
    guard (0 < continuationBytes ∧ continuationBytes ≤ maxBytes)
    let encoded ← textOf (lookup fields "continuation_zlib_base64")
    let compressed ← codec.b64decode encoded
    let payload ← boundedDecompress codec compressed continuationBytes.toNat
    guard (codec.sha256 payload = request.continuationSha256)
    return payload
  | _ => none

/-- The state that a payload holds; only mappings have a count. -/
def continuationOf (request : Request) (value : Json F) : Option (Json F) := do
  let pending ← pendingAlphaCount value
  guard ((pending : ℤ) = request.pendingAlphaSessions)
  return value

/-- The continuation of an entry that is read for a request. -/
def readEntry (request : Request) (raw : List UInt8) : Except ReadError (Json F) :=
  if maxBytes < raw.length then .error .invalid
  else
    match codec.loads raw with
    | .error e => .error e
    | .ok entry =>
      match payloadOf codec maxBytes request entry with
      | none => .error .invalid
      | some payload =>
        match codec.loads payload with
        | .error e => .error e
        | .ok value => orInvalid (continuationOf request value)

def entryOf (basis : Basis) (continuation : List UInt8) (pendingCount : ℕ) : Json F :=
  .obj [("schema_version", .int cacheSchemaVersion), ("track_id", .str basis.trackId),
    ("head_manifest_sha256", .str basis.headManifestSha256), ("fence", .int basis.fence),
    ("continuation_bytes", .int continuation.length),
    ("continuation_sha256", .str (codec.sha256 continuation)),
    ("pending_alpha_sessions", .int pendingCount),
    ("continuation_zlib_base64", .str (codec.b64encode (codec.compress continuation)))]

end Entries

/-! ### Files -/

/-- The files of the directory, by name without suffix; temporary files have names of their own. -/
abbrev Files := List (String × List UInt8)

def Files.content (files : Files) (name : String) : Option (List UInt8) :=
  (files.find? fun file => file.1 = name).map Prod.snd

def Files.remove (files : Files) (name : String) : Files := files.filter fun file => file.1 ≠ name

/-- `os.replace` -/
def Files.replace (files : Files) (name : String) (content : List UInt8) : Files :=
  (name, content) :: files.remove name

/-- `_discard`, which may fail -/
def discard (unlinks : Bool) (name : String) (files : Files) : Files :=
  if unlinks then files.remove name else files

section Operations

variable {F : Type}

inductive Loaded (F : Type)
  | hit (continuation : Json F)
  | miss
  | raised

/-- The operations of attempts, with the failures of the file system, and damage. -/
inductive Action (F : Type)
  | store (basis : Basis) (continuation : Continuation F) (writes unlinks : Bool)
  | load (request : Request) (readable unlinks : Bool)
  | delete (trackId : String) (unlinks : Bool)
  | reconcile (retainedTrackIds : List String) (unlinks : String → Bool)
  | damage (name : String) (content : Option (List UInt8))

variable (codec : CacheCodec F) (maxBytes : ℕ)

def path (trackId : String) : String := codec.sha256 (encodeText trackId.toList)

/-- The outcome of a load and the files after it; a recursion error is not caught. -/
def load (request : Request) (readable unlinks : Bool) (files : Files) : Loaded F × Files :=
  match files.content (path codec request.trackId) with
  | none => (.miss, files)
  | some content =>
    if readable then
      match readEntry codec maxBytes request (content.take (maxBytes + 1)) with
      | .ok value => (.hit value, files)
      | .error .recursion => (.raised, files)
      | .error .invalid => (.miss, discard unlinks (path codec request.trackId) files)
    else (.miss, discard unlinks (path codec request.trackId) files)

/-- Whether the entry is stored and the files after it; a state without a count raises. -/
def store (basis : Basis) (continuation : Continuation F) (writes unlinks : Bool) (files : Files) :
    Option Bool × Files :=
  match pendingAlphaCount continuation.value with
  | none => (none, files)
  | some pendingCount =>
    let serialized := canonicalBytes codec.format
      (entryOf codec basis (canonicalBytes codec.format continuation.value) pendingCount)
    if maxBytes < serialized.length then
      (some false, discard unlinks (path codec basis.trackId) files)
    else if writes then (some true, files.replace (path codec basis.trackId) serialized)
    else (some false, files)

/-- How many files are removed and how many are left to remove, and the files after it. -/
def reconcile (retainedTrackIds : List String) (unlinks : String → Bool) (files : Files) :
    (ℕ × ℕ) × Files :=
  let stale := files.filter fun file => file.1 ∉ retainedTrackIds.map (path codec)
  ((stale.countP fun file => unlinks file.1, stale.countP fun file => !unlinks file.1),
    files.filter fun file => file.1 ∈ retainedTrackIds.map (path codec) || !unlinks file.1)

def Action.apply (files : Files) : Action F → Files
  | .store basis continuation writes unlinks =>
    (WorkingCache.store codec maxBytes basis continuation writes unlinks files).2
  | .load request readable unlinks =>
    (WorkingCache.load codec maxBytes request readable unlinks files).2
  | .delete trackId unlinks => discard unlinks (path codec trackId) files
  | .reconcile retainedTrackIds unlinks =>
    (WorkingCache.reconcile codec retainedTrackIds unlinks files).2
  | .damage name none => files.remove name
  | .damage name (some content) => files.replace name content

/-- The files after some actions on an empty directory. -/
def run (actions : List (Action F)) : Files :=
  actions.foldl (Action.apply codec maxBytes) []

end Operations

end ThesisTrace.DailyTrack.WorkingCache
