import ThesisTrace.DailyTrack.WorkingCache

/-!
# The working cache is exact or misses

Whatever happened to its files, a load for the digest of a continuation gives that continuation or
nothing, unless the JSON reader meets the limit of the recursion: the error that it raises then is
not one of those that a load takes for a miss.
-/

namespace ThesisTrace.DailyTrack.WorkingCache
open JsonText

section Exactness

variable {F : Type} {codec : CacheCodec F} {maxBytes : ℕ} {request : Request}
  {raw content payload : List UInt8} {value : Json F} {files : Files}

/-! ### Reading an entry -/

/-- A payload comes from an entry for the request and has the digest of the request. -/
lemma payloadOf_eq_some (h : payloadOf codec maxBytes request value = some payload) :
    ∃ fields, value = .obj fields ∧ basisMatches codec request fields = true ∧
      codec.sha256 payload = request.continuationSha256 := by
  cases value with
  | obj fields =>
    simp only [payloadOf, Option.bind_eq_bind, Option.bind_eq_some_iff, Option.pure_def,
      Option.some.injEq, Option.guard_eq_some'] at h
    obtain ⟨_, -, _, hbasis, _, -, _, -, _, -, _, -, _, -, _, hdigest, rfl⟩ := h
    exact ⟨fields, rfl, hbasis, hdigest⟩
  | _ => cases h

lemma continuationOf_eq_some {state : Json F} (h : continuationOf request state = some value) :
    value = state := by
  simp only [continuationOf, Option.bind_eq_bind, Option.bind_eq_some_iff, Option.pure_def,
    Option.some.injEq] at h
  obtain ⟨_, -, _, -, hstate⟩ := h
  exact hstate.symm

lemma orInvalid_eq_ok {α : Type} {option : Option α} {result : α}
    (h : orInvalid option = .ok result) : option = some result := by
  cases option with
  | none => cases h
  | some result' => exact congrArg some (Except.ok.inj h)

/-- The entry or its payload nests beyond the limit of the recursion. -/
def NestsTooDeep (codec : CacheCodec F) (maxBytes : ℕ) (request : Request)
    (content : List UInt8) : Prop :=
  content.length ≤ maxBytes ∧ (codec.loads content = .error .recursion ∨
    ∃ entry payload, codec.loads content = .ok entry ∧
      payloadOf codec maxBytes request entry = some payload ∧
      codec.loads payload = .error .recursion)

lemma orInvalid_ne_recursion {α : Type} (value : Option α) :
    orInvalid value ≠ .error .recursion := by
  cases value <;> simp [orInvalid]

lemma readEntry_eq_recursion_iff :
    readEntry codec maxBytes request (content.take (maxBytes + 1)) = .error .recursion ↔
      NestsTooDeep codec maxBytes request content := by
  unfold readEntry NestsTooDeep
  by_cases hlong : maxBytes < content.length
  · have htake : maxBytes < (content.take (maxBytes + 1)).length := by
      rw [List.length_take]
      omega
    rw [if_pos htake]
    constructor
    · nofun
    · rintro ⟨hle, -⟩
      omega
  · have htake : content.take (maxBytes + 1) = content := List.take_of_length_le (by omega)
    rw [htake, if_neg hlong]
    cases hentry : codec.loads content with
    | error e => simp [Nat.le_of_not_lt hlong]
    | ok entry =>
      cases hpayload : payloadOf codec maxBytes request entry with
      | none => simp [hpayload]
      | some payload =>
        cases hvalue : codec.loads payload with
        | error e => simp [hpayload, hvalue, Nat.le_of_not_lt hlong]
        | ok value => simp [hpayload, hvalue, orInvalid_ne_recursion]

/-- What is read of an entry is read of a payload with the digest of the request. -/
lemma readEntry_ok (h : readEntry codec maxBytes request raw = .ok value) :
    raw.length ≤ maxBytes ∧ ∃ entry payload, codec.loads raw = .ok entry ∧
      payloadOf codec maxBytes request entry = some payload ∧ codec.loads payload = .ok value := by
  unfold readEntry at h
  split at h
  · cases h
  next hlength =>
  split at h
  · cases h
  next entry hentry =>
  split at h
  · cases h
  next payload hpayload =>
  split at h
  · cases h
  next state hstate =>
  have hsame : value = state := continuationOf_eq_some (orInvalid_eq_ok h)
  exact ⟨Nat.le_of_not_lt hlength, entry, payload, hentry, hpayload, hsame ▸ hstate⟩

/-- A payload with the digest of a continuation is read as that continuation. -/
lemma loads_of_digest {continuation : Continuation F}
    (hdigest : codec.sha256 payload =
      codec.sha256 (canonicalBytes codec.format continuation.value))
    (h : codec.loads payload = .ok value) : value = continuation.value.sorted := by
  rw [codec.sha256_injective hdigest] at h
  rcases codec.loads_canonicalBytes continuation.value continuation.wellFormed with hok | hdeep
  · rw [hok] at h
    exact (Except.ok.inj h).symm
  · rw [hdeep] at h
    cases h

/-! ### Loads -/

/-- The load reads a file that nests too deep. -/
def MeetsRecursionLimit (codec : CacheCodec F) (maxBytes : ℕ) (request : Request)
    (readable : Bool) (files : Files) : Prop :=
  readable = true ∧ ∃ content, files.content (path codec request.trackId) = some content ∧
    NestsTooDeep codec maxBytes request content

/-- The continuation, as it is read, or nothing. -/
def Loaded.ExactOrMiss (continuation : Continuation F) : Loaded F → Prop
  | .hit value => value = continuation.value.sorted
  | .miss => True
  | .raised => False

lemma load_exact_iff {continuation : Continuation F} (readable unlinks : Bool)
    (hdigest : request.continuationSha256 =
      codec.sha256 (canonicalBytes codec.format continuation.value)) :
    (load codec maxBytes request readable unlinks files).1.ExactOrMiss continuation ↔
      ¬MeetsRecursionLimit codec maxBytes request readable files := by
  unfold load MeetsRecursionLimit
  cases hcontent : files.content (path codec request.trackId) with
  | none => simp [Loaded.ExactOrMiss]
  | some content =>
    cases readable with
    | false => simp [Loaded.ExactOrMiss]
    | true =>
      have hlimit := @readEntry_eq_recursion_iff F codec maxBytes request content
      cases hread : readEntry codec maxBytes request (content.take (maxBytes + 1)) with
      | ok value =>
        obtain ⟨-, entry, payload, -, hpayload, hvalue⟩ := readEntry_ok hread
        obtain ⟨-, -, -, hpayloadDigest⟩ := payloadOf_eq_some hpayload
        have hexact := loads_of_digest (hpayloadDigest.trans hdigest) hvalue
        simpa [Loaded.ExactOrMiss, hread, ← hlimit] using hexact
      | error e =>
        cases e with
        | recursion => simp [Loaded.ExactOrMiss, hread, ← hlimit]
        | invalid => simp [Loaded.ExactOrMiss, hread, ← hlimit]

end Exactness

/-! ### Where files come from -/

section Provenance

variable {F : Type} {codec : CacheCodec F} {maxBytes : ℕ}

/-- The action writes the file. -/
def Action.Writes (codec : CacheCodec F) (file : String × List UInt8) : Action F → Prop
  | .store basis continuation _ _ =>
    ∃ pendingCount, file = (path codec basis.trackId, canonicalBytes codec.format
      (entryOf codec basis (canonicalBytes codec.format continuation.value) pendingCount))
  | .damage name (some content) => file = (name, content)
  | _ => False

/-- The action is no damage. -/
def Action.Undamaging : Action F → Prop
  | .damage _ _ => False
  | _ => True

lemma mem_of_mem_remove {files : Files} {name : String} {file : String × List UInt8}
    (h : file ∈ files.remove name) : file ∈ files :=
  List.mem_of_mem_filter h

lemma mem_of_mem_discard {files : Files} {unlinks : Bool} {name : String}
    {file : String × List UInt8} (h : file ∈ discard unlinks name files) : file ∈ files := by
  unfold discard at h
  split at h
  · exact mem_of_mem_remove h
  · exact h

/-- A file after an action was there before or is written by it. -/
lemma mem_apply {files : Files} {action : Action F} {file : String × List UInt8}
    (h : file ∈ action.apply codec maxBytes files) : file ∈ files ∨ action.Writes codec file := by
  cases action with
  | store basis continuation writes unlinks =>
    simp only [Action.apply, store] at h
    split at h
    · exact .inl h
    next pendingCount hpending =>
    split at h
    · exact .inl (mem_of_mem_discard h)
    split at h
    · rcases List.mem_cons.mp h with rfl | hold
      · exact .inr ⟨pendingCount, rfl⟩
      · exact .inl (mem_of_mem_remove hold)
    · exact .inl h
  | load request readable unlinks =>
    simp only [Action.apply, load] at h
    split at h
    · exact .inl h
    split at h
    · split at h
      · exact .inl h
      · exact .inl h
      · exact .inl (mem_of_mem_discard h)
    · exact .inl (mem_of_mem_discard h)
  | delete trackId unlinks => exact .inl (mem_of_mem_discard h)
  | reconcile retainedTrackIds unlinks => exact .inl (List.mem_of_mem_filter h)
  | damage name content =>
    cases content with
    | none => exact .inl (mem_of_mem_remove h)
    | some content =>
      rcases List.mem_cons.mp h with rfl | hold
      · exact .inr rfl
      · exact .inl (mem_of_mem_remove hold)

/-- Every file of a run is written by one of its actions. -/
lemma exists_writes_of_mem_run {actions : List (Action F)} {file : String × List UInt8}
    (h : file ∈ run codec maxBytes actions) : ∃ action ∈ actions, action.Writes codec file := by
  induction actions using List.reverseRecOn with
  | nil => cases h
  | append_singleton actions action ih =>
    rw [run, List.foldl_append] at h
    rcases mem_apply h with hold | hnew
    · obtain ⟨writer, hwriter, hwrites⟩ := ih hold
      exact ⟨writer, List.mem_append_left _ hwriter, hwrites⟩
    · exact ⟨action, List.mem_append_right _ (List.mem_singleton.mpr rfl), hnew⟩

lemma mem_of_content {files : Files} {name : String} {content : List UInt8}
    (h : files.content name = some content) : (name, content) ∈ files := by
  obtain ⟨⟨name', content'⟩, hfind, rfl⟩ := Option.map_eq_some_iff.mp h
  have hname : name' = name := by simpa using List.find?_some hfind
  exact hname ▸ List.mem_of_find?_eq_some hfind

lemma entryOf_wellFormed (codec : CacheCodec F) (basis : Basis) (bytes : List UInt8)
    (pendingCount : ℕ) : (entryOf codec basis bytes pendingCount).WellFormed :=
  ⟨by simp, trivial, trivial, trivial, trivial, trivial, trivial, trivial, trivial, trivial⟩

/-- An entry in the order in which it is written. -/
lemma entryOf_sorted (basis : Basis) (bytes : List UInt8) (pendingCount : ℕ) :
    (entryOf codec basis bytes pendingCount).sorted =
      .obj [("continuation_bytes", .int bytes.length),
        ("continuation_sha256", .str (codec.sha256 bytes)),
        ("continuation_zlib_base64", .str (codec.b64encode (codec.compress bytes))),
        ("fence", .int basis.fence), ("head_manifest_sha256", .str basis.headManifestSha256),
        ("pending_alpha_sessions", .int pendingCount), ("schema_version", .int cacheSchemaVersion),
        ("track_id", .str basis.trackId)] := by
  rw [entryOf, Json.sorted]
  simp [sortedFields, Json.sorted]

/-- A stored entry that matches a request was stored for it. -/
lemma basis_eq_of_matches {request : Request} {basis : Basis} {bytes : List UInt8}
    {pendingCount : ℕ} {fields : List (String × Json F)}
    (hfields : (entryOf codec basis bytes pendingCount).sorted = .obj fields)
    (h : basisMatches codec request fields = true) :
    basis = request.toBasis ∧ codec.sha256 bytes = request.continuationSha256 := by
  rw [entryOf_sorted] at hfields
  cases hfields
  simp only [basisMatches, Bool.and_eq_true] at h
  obtain ⟨⟨⟨⟨⟨-, htrack⟩, hhead⟩, hfence⟩, hdigest⟩, -⟩ := h
  have htrack : basis.trackId = request.trackId := by simpa [lookup, equalsText] using htrack
  have hhead : basis.headManifestSha256 = request.headManifestSha256 := by
    simpa [lookup, equalsText] using hhead
  have hfence : basis.fence = request.fence := by simpa [lookup, equalsInt] using hfence
  have hdigest : codec.sha256 bytes = request.continuationSha256 := by
    simpa [lookup, equalsText] using hdigest
  refine ⟨?_, hdigest⟩
  have hrequest : request.toBasis =
      ⟨request.trackId, request.headManifestSha256, request.fence⟩ := rfl
  rw [hrequest, ← htrack, ← hhead, ← hfence]

/-- Without damage, a load gives only what was stored for its Track, head, fence and digest. -/
lemma load_stored {actions : List (Action F)} (hactions : ∀ action ∈ actions, action.Undamaging)
    {request : Request} {readable unlinks : Bool} {value : Json F}
    (h : (load codec maxBytes request readable unlinks (run codec maxBytes actions)).1 =
      .hit value) :
    ∃ continuation writes unlinks, .store request.toBasis continuation writes unlinks ∈ actions ∧
      codec.sha256 (canonicalBytes codec.format continuation.value) =
        request.continuationSha256 ∧ value = continuation.value.sorted := by
  unfold load at h
  split at h
  · cases h
  next content hcontent =>
  split at h
  · split at h
    · next value' hread =>
      cases h
      obtain ⟨hlength, entry, payload, hentry, hpayload, hvalue⟩ := readEntry_ok hread
      have hwhole : content.take (maxBytes + 1) = content := by
        rw [List.length_take] at hlength
        exact List.take_of_length_le (by omega)
      rw [hwhole] at hentry
      obtain ⟨fields, rfl, hmatches, hdigest⟩ := payloadOf_eq_some hpayload
      obtain ⟨action, haction, hwrites⟩ := exists_writes_of_mem_run (mem_of_content hcontent)
      cases action with
      | store basis continuation writes unlinks =>
        obtain ⟨pendingCount, hfile⟩ := hwrites
        rw [(Prod.mk.inj hfile).2] at hentry
        have hsorted : (entryOf codec basis (canonicalBytes codec.format continuation.value)
            pendingCount).sorted = .obj fields := by
          rcases codec.loads_canonicalBytes _ (entryOf_wellFormed codec basis
            (canonicalBytes codec.format continuation.value) pendingCount) with hok | hdeep
          · rw [hok] at hentry
            exact Except.ok.inj hentry
          · rw [hdeep] at hentry
            cases hentry
        obtain ⟨hbasis, hstored⟩ := basis_eq_of_matches hsorted hmatches
        exact ⟨continuation, writes, unlinks, hbasis ▸ haction, hstored,
          loads_of_digest (hdigest.trans hstored.symm) hvalue⟩
      | damage name content => exact (hactions _ haction).elim
      | load => exact hwrites.elim
      | delete => exact hwrites.elim
      | reconcile => exact hwrites.elim
    · cases h
    · cases h
  · cases h

/-- After every run of stores, loads, cleanups and damage, a load for the digest of a continuation
gives exactly that continuation or nothing, if and only if it does not read a file that nests
beyond the limit of the recursion. Without damage, what it gives was stored for its Track, head and
fence. -/
theorem cache_exact_iff (codec : CacheCodec F) (maxBytes : ℕ) (actions : List (Action F))
    (request : Request) (readable unlinks : Bool) (continuation : Continuation F)
    (hdigest : request.continuationSha256 =
      codec.sha256 (canonicalBytes codec.format continuation.value)) :
    ((load codec maxBytes request readable unlinks
        (run codec maxBytes actions)).1.ExactOrMiss continuation ↔
      ¬MeetsRecursionLimit codec maxBytes request readable (run codec maxBytes actions)) ∧
    ((∀ action ∈ actions, action.Undamaging) → ∀ value,
      (load codec maxBytes request readable unlinks (run codec maxBytes actions)).1 = .hit value →
      ∃ stored writes unlinks, .store request.toBasis stored writes unlinks ∈ actions ∧
        value = stored.value.sorted) := by
  refine ⟨load_exact_iff readable unlinks hdigest, fun hactions value h => ?_⟩
  obtain ⟨stored, writes, unlinks, hmem, -, hvalue⟩ := load_stored hactions h
  exact ⟨stored, writes, unlinks, hmem, hvalue⟩

end Provenance

/-! ### What is stored is found -/

section Hits

variable {F : Type} {codec : CacheCodec F} {maxBytes : ℕ} {files : Files} {unlinks : Bool}

/-- Counts do not depend on the order of keys. -/
lemma pendingAlphaCount_sorted {v : Json F} (hv : v.WellFormed) :
    pendingAlphaCount v.sorted = pendingAlphaCount v := by
  cases v with
  | obj fields =>
    have hkeys : (fields.map Prod.fst).Nodup := hv.1
    have hnames : ((((sortedFields fields).insertionSort fun a b => a.1 ≤ b.1).map
        Prod.fst).toFinset) = (fields.map Prod.fst).toFinset := by
      rw [List.toFinset_eq_of_perm _ _ ((sorted_fields_perm fields).map Prod.fst), List.map_map]
      rfl
    have hmapping : ∀ item : Json F, isMapping item.sorted = isMapping item := by
      intro item
      cases item <;> rfl
    rw [Json.sorted]
    simp only [pendingAlphaCount, hnames, lookup_sorted hkeys]
    congr 1
    funext _
    cases lookup fields "schema_version" with
    | none => rfl
    | some version =>
      cases lookup fields "pending_alpha" with
      | none => cases version <;> rfl
      | some pending =>
        cases version with
        | str text =>
          cases pending with
          | arr items =>
            simp only [Option.map_some, Json.sorted, sortedItems_eq, List.length_map, List.all_map,
              Function.comp_def, hmapping]
          | _ => rfl
        | _ => cases pending <;> rfl
  | _ => rfl

lemma boundedDecompress_compress (payload : List UInt8) :
    boundedDecompress codec (codec.compress payload) payload.length = some payload := by
  simp [boundedDecompress, codec.decompress_compress payload _ (Nat.lt_succ_self _)]

/-- The payload of a stored entry. -/
lemma payloadOf_entryOf {request : Request} {payload : List UInt8} {pendingCount : ℕ}
    (hdigest : request.continuationSha256 = codec.sha256 payload)
    (hcount : request.pendingAlphaSessions = pendingCount) (hpos : 0 < payload.length)
    (hle : payload.length ≤ maxBytes) :
    payloadOf codec maxBytes request (entryOf codec request.toBasis payload pendingCount).sorted =
      some payload := by
  have hkeys : ({"continuation_bytes", "continuation_sha256", "continuation_zlib_base64", "fence",
      "head_manifest_sha256", "pending_alpha_sessions", "schema_version", "track_id"} :
      Finset String) = cacheKeys := rfl
  rw [entryOf_sorted]
  simp [payloadOf, basisMatches, lookup, equalsInt, equalsText, intOf, textOf, hdigest, hcount,
    codec.b64decode_b64encode, boundedDecompress_compress, hle, hkeys, hpos, guard]

lemma canonicalBytes_ne_nil {format : FloatFormat F} (v : Json F) :
    canonicalBytes format v ≠ [] := by
  obtain ⟨c, tail, htext, -⟩ := @dumps_head _ format false v.sorted
  intro h
  have hread := decodeText_encodeText (dumps format false v.sorted)
  have hnil : encodeText (dumps format false v.sorted) = encodeText [] := h
  rw [hnil, decodeText_encodeText, htext] at hread
  cases hread

/-- A load for what has just been stored gives it, within the byte limit and that of the
recursion. -/
theorem load_store {request : Request} {continuation : Continuation F} {pendingCount : ℕ}
    (hdigest : request.continuationSha256 =
      codec.sha256 (canonicalBytes codec.format continuation.value))
    (hcount : pendingAlphaCount continuation.value = some pendingCount)
    (hpending : request.pendingAlphaSessions = pendingCount)
    (hpayload : (canonicalBytes codec.format continuation.value).length ≤ maxBytes)
    (hstored : (store codec maxBytes request.toBasis continuation true unlinks files).1 = some true)
    (hlimit : ¬MeetsRecursionLimit codec maxBytes request true
      (store codec maxBytes request.toBasis continuation true unlinks files).2) :
    (load codec maxBytes request true unlinks
      (store codec maxBytes request.toBasis continuation true unlinks files).2).1 =
        .hit continuation.value.sorted := by
  have hpos : 0 < (canonicalBytes codec.format continuation.value).length :=
    List.length_pos_iff.mpr (canonicalBytes_ne_nil _)
  generalize hserialized : canonicalBytes codec.format (entryOf codec request.toBasis
    (canonicalBytes codec.format continuation.value) pendingCount) = serialized
  have hstore : serialized.length ≤ maxBytes ∧
      (store codec maxBytes request.toBasis continuation true unlinks files).2 =
        files.replace (path codec request.trackId) serialized := by
    unfold store at hstored ⊢
    simp only [hcount, hserialized] at hstored ⊢
    split at hstored
    · cases hstored
    next hlong =>
    rw [if_neg hlong, if_pos trivial]
    exact ⟨Nat.le_of_not_lt hlong, rfl⟩
  obtain ⟨hlength, hfiles⟩ := hstore
  have hcontent : (files.replace (path codec request.trackId) serialized).content
      (path codec request.trackId) = some serialized := by
    simp [Files.replace, Files.content]
  rw [hfiles] at hlimit ⊢
  have htake : serialized.take (maxBytes + 1) = serialized := List.take_of_length_le (by omega)
  have hnested : ¬NestsTooDeep codec maxBytes request serialized :=
    fun h => hlimit ⟨rfl, serialized, hcontent, h⟩
  have hread : readEntry codec maxBytes request serialized = .ok continuation.value.sorted := by
    have hpayloadOf := payloadOf_entryOf hdigest hpending hpos hpayload
    have hentry : codec.loads serialized = .ok (entryOf codec request.toBasis
        (canonicalBytes codec.format continuation.value) pendingCount).sorted := by
      rcases codec.loads_canonicalBytes _ (entryOf_wellFormed codec request.toBasis
        (canonicalBytes codec.format continuation.value) pendingCount) with hok | hdeep
      · rw [← hserialized, hok]
      · rw [hserialized] at hdeep
        exact absurd ⟨hlength, .inl hdeep⟩ hnested
    have hvalue : codec.loads (canonicalBytes codec.format continuation.value) =
        .ok continuation.value.sorted := by
      rcases codec.loads_canonicalBytes _ continuation.wellFormed with hok | hdeep
      · exact hok
      · exact absurd ⟨hlength, .inr ⟨_, _, hentry, hpayloadOf, hdeep⟩⟩ hnested
    have hstate : continuationOf request continuation.value.sorted =
        some continuation.value.sorted := by
      simp [continuationOf, pendingAlphaCount_sorted continuation.wellFormed, hcount, hpending]
    unfold readEntry
    rw [if_neg (Nat.not_lt.mpr hlength), hentry]
    simp only [hpayloadOf, hvalue, hstate]
    rfl
  unfold load
  simp only [hcontent, htake, hread, if_true]

end Hits

/-! ### An entry of brackets -/

/-- No floats, and encodings that show their bytes. -/
def plainCodec (limit : ℕ) : CacheCodec Empty where
  format := ⟨Empty.elim, fun _ => none, match_elim, read_elim⟩
  integral := Empty.elim
  loads := loadBytesWithin ⟨Empty.elim, fun _ => none, match_elim, read_elim⟩ limit
  sha256 := latinText
  b64encode := latinText
  b64decode text := some (latinBytes text)
  compress bytes := bytes
  decompress bytes n := some ⟨bytes.take n, bytes.length < n, bytes.drop n, []⟩
  loads_canonicalBytes _ hv := loadBytesWithin_same limit (loadBytes_canonicalBytes hv)
  sha256_injective := Function.LeftInverse.injective latinBytes_latinText
  b64decode_b64encode bytes := by rw [latinBytes_latinText]
  decompress_compress bytes n h := by
    simp [List.take_of_length_le h.le, List.drop_eq_nil_of_le h.le, h]

/-- The limit of the C recursion, which bounds the JSON scanner of CPython 3.12. -/
def scannerLimit : ℕ := 10000

/-- A state with one pending session. -/
def sampleContinuation : Continuation Empty where
  value := .obj [("schema_version", .str "daily-track-working-state-v1"),
    ("pending_alpha", .arr [.obj [("session", .str "2026-08-03")]])]
  wellFormed := by simp [Json.WellFormed, WellFormedFields, WellFormedItems]

def sampleRequest : Request where
  trackId := "track"
  headManifestSha256 := "checkpoint-a"
  fence := 7
  continuationSha256 :=
    latinText (canonicalBytes (plainCodec scannerLimit).format sampleContinuation.value)
  pendingAlphaSessions := 1

theorem cache_exact_iff_sample :
    (load (plainCodec scannerLimit) maxWorkingCacheBytes sampleRequest true true
        (run (plainCodec scannerLimit) maxWorkingCacheBytes
          [.store sampleRequest.toBasis sampleContinuation true true])).1.ExactOrMiss
            sampleContinuation ↔
      ¬MeetsRecursionLimit (plainCodec scannerLimit) maxWorkingCacheBytes sampleRequest true
        (run (plainCodec scannerLimit) maxWorkingCacheBytes
          [.store sampleRequest.toBasis sampleContinuation true true]) :=
  (cache_exact_iff (plainCodec scannerLimit) maxWorkingCacheBytes
    [.store sampleRequest.toBasis sampleContinuation true true] sampleRequest true true
    sampleContinuation rfl).1

/-- An entry of opening brackets. -/
def brackets (n : ℕ) : List UInt8 := encodeText (List.replicate n '[')

lemma length_brackets (n : ℕ) : (brackets n).length = n := by
  simp [brackets, encodeText, String.utf8EncodeChar]

lemma nestsTooDeep_brackets {limit n maxBytes : ℕ} (hlimit : limit < n) (hbytes : n ≤ maxBytes)
    (request : Request) :
    NestsTooDeep (plainCodec limit) maxBytes request (brackets n) :=
  ⟨(length_brackets n).trans_le hbytes, .inl (loadBytesWithin_brackets _ hlimit)⟩

/-- Damage is found as it was done. -/
lemma content_damage {F : Type} (codec : CacheCodec F) (maxBytes : ℕ) (actions : List (Action F))
    (name : String) (content : List UInt8) :
    (run codec maxBytes (actions ++ [.damage name (some content)])).content name =
      some content := by
  rw [run, List.foldl_append]
  simp [Action.apply, Files.replace, Files.content]

/-- A damaged entry of twice as many brackets as the scanner nests raises. -/
theorem nested_entry_raises :
    ¬(load (plainCodec scannerLimit) maxWorkingCacheBytes sampleRequest true true
      (run (plainCodec scannerLimit) maxWorkingCacheBytes
        ([.store sampleRequest.toBasis sampleContinuation true true] ++
          [.damage (path (plainCodec scannerLimit) sampleRequest.trackId)
            (some (brackets 20000))]))).1.ExactOrMiss sampleContinuation := by
  have hdigest : sampleRequest.continuationSha256 = (plainCodec scannerLimit).sha256
      (canonicalBytes (plainCodec scannerLimit).format sampleContinuation.value) := rfl
  have hnested : NestsTooDeep (plainCodec scannerLimit) maxWorkingCacheBytes sampleRequest
      (brackets 20000) :=
    nestsTooDeep_brackets (by norm_num [scannerLimit]) (by norm_num [maxWorkingCacheBytes])
      sampleRequest
  rw [load_exact_iff true true hdigest, not_not]
  exact ⟨rfl, brackets 20000, content_damage _ _ _ _ _, hnested⟩

end ThesisTrace.DailyTrack.WorkingCache
