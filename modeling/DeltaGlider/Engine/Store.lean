import DeltaGlider.Engine.Calls

/-!
# The store paths

`src/deltaglider/engine/store.rs`: every way an object gets into the bucket.

* `storeInner` (buffered `store` / `store_with_multipart_etag`): a file that
  is not delta-eligible, or a bucket without compression, is stored as
  passthrough; otherwise, under the prefix lock and the cross-instance
  reference lock, the deltaspace gets a reference baseline if it has none
  (`setReferenceBaseline`; an existing one is healed in place if its metadata
  was stripped), the object is encoded against the reference, and
  `commitDeltaOrPassthrough` keeps the delta unless the ratio loses.  A
  failure of the encode path rolls a freshly created reference back.
* `storeSpooledDelta` (streaming PUT): the same decisions with a capped
  encoder; a lost ratio stores passthrough and leaves a fresh reference in
  place.
* the passthrough sinks (`storePassthroughChunkedInner`,
  `storePassthroughRelayedPartsWithMultipartEtag`,
  `storePassthroughFileWithMultipartEtag`, `finishPassthroughMultipart`):
  write the object and clean up a delta variant of the same key.

Every write of a new variant is followed by a best-effort delete of the
other variant; it may fail and leave both (`resolve_object_metadata` then
picks the newer one by `created_at`).

Left out: the metadata cache (`metadata_cache`, keyed by the raw key string),
the usage counters (`prior_for_counter`, `record_store`), metrics and logs.
-/

namespace DeltaGlider.Engine

/-- `DeltaGliderEngine::INTERNAL_REFERENCE_NAME`. -/
def internalReferenceName : String := "__reference__"

/-- `DeltaCodec::compression_ratio` (an `f32` in the source). -/
def compressionRatio (originalSize deltaSize : Nat) : ℚ :=
  if originalSize = 0 then 1 else (deltaSize : ℚ) / originalSize

/-- The suffixes `FileRouter::new` sends to the delta path. -/
def FileRouter.deltaSuffixes : List String :=
  [".zip", ".tar", ".jar", ".war", ".ear", ".dmg", ".iso", ".sql", ".dump", ".bak", ".backup"]

/-- `char::to_lowercase` as far as a test for an ASCII suffix can tell: the
ASCII capitals, U+0130 (to `i` and U+0307) and U+212A KELVIN SIGN (to `k`)
are the characters whose lowercase holds an ASCII letter; every other one is
kept, its lowercase holding no ASCII character either. -/
def FileRouter.lowercaseChar (c : Char) : List Char :=
  if c.val = 0x130 then ['i', '\u0307'] else if c.val = 0x212A then ['k'] else [c.toLower]

/-- `FileRouter::is_delta_eligible`: the lowercased name ends with a delta
suffix. -/
def FileRouter.isDeltaEligible (filename : String) : Bool :=
  FileRouter.deltaSuffixes.any fun suffix =>
    suffix.toList.isSuffixOf (filename.toList.flatMap FileRouter.lowercaseChar)

example : FileRouter.isDeltaEligible "app.ZIP" ∧ FileRouter.isDeltaEligible "db.BA\u212A" ∧
    FileRouter.isDeltaEligible "app.exe" = false := by decide

/-- `StoreResult` (its usage-accounting fields left out). -/
structure StoreResult where
  metadata : FileMetadata
  storedSize : Nat

/-- `StoreContext`: what the buffered store path carries along. -/
structure StoreContext where
  objKey : ObjectKey
  deltaspaceId : String
  data : List UInt8
  sha256 : String
  md5 : String
  contentType : Option String
  userMetadata : UserMeta
  multipartEtag : Option String

/-- The metadata of a delta commit, in `commit_delta_or_passthrough` and
`commit_streamed_delta` alike. -/
def deltaMetadata (filename sha256 md5 : String) (size : Nat) (refSha256 : String)
    (deltaSize : Nat) (contentType : Option String) (userMetadata : UserMeta)
    (multipartEtag : Option String) (now : Int) : FileMetadata :=
  (FileMetadata.newDelta filename sha256 md5 size "reference.bin" refSha256 deltaSize contentType
    now).stamp userMetadata multipartEtag

@[simp] theorem deltaMetadata_isReference (filename sha256 md5 : String) (size : Nat)
    (refSha256 : String) (deltaSize : Nat) (contentType : Option String) (userMetadata : UserMeta)
    (multipartEtag : Option String) (now : Int) :
    (deltaMetadata filename sha256 md5 size refSha256 deltaSize contentType userMetadata multipartEtag
      now).isReference = false := rfl

/-! ## Shared steps -/

/-- `delete_ignoring_not_found`. -/
def deleteIgnoringNotFound (r : Except StorageError Unit) : Except EngineError Unit :=
  match r with
  | .ok () => .ok ()
  | .error (.notFound _) => .ok ()
  | .error e => .error (.storage e)

/-- `delete_delta_idempotent`. -/
def deleteDeltaIdempotent (ds filename : String) : EngineM Unit := do
  let r ← storageTry (.deleteDelta ds filename)
  liftExcept (deleteIgnoringNotFound r)

/-- `delete_passthrough_idempotent`. -/
def deletePassthroughIdempotent (ds filename : String) : EngineM Unit := do
  let r ← storageTry (.deletePassthrough ds filename)
  liftExcept (deleteIgnoringNotFound r)

/-- `store_passthrough`. -/
def storePassthrough (ctx : StoreContext) : EngineM StoreResult := do
  let now ← localCall .now
  let metadata := (FileMetadata.newPassthrough ctx.objKey.filename ctx.sha256 ctx.md5
    ctx.data.length ctx.contentType now).stamp ctx.userMetadata ctx.multipartEtag
  storageCall (.putPassthrough ctx.deltaspaceId ctx.objKey.filename ctx.data metadata)
  pure ⟨metadata, ctx.data.length⟩

/-- `set_reference_baseline`: the object's own bytes become `reference.bin`,
and the reference cache holds them. -/
def setReferenceBaseline (ctx : StoreContext) : EngineM FileMetadata := do
  let now ← localCall .now
  let metadata := FileMetadata.newReference internalReferenceName ctx.objKey.fullKey ctx.sha256
    ctx.md5 ctx.data.length ctx.contentType now
  storageCall (.putReference ctx.deltaspaceId ctx.data metadata)
  localCall (.cachePut ctx.deltaspaceId ctx.data)
  pure metadata

/-- `reference_metadata_is_corrupt`. -/
def referenceMetadataIsCorrupt (m : FileMetadata) : Bool :=
  !m.isReference || m.fileSha256.isEmpty

/-- `heal_reference_if_corrupt`: re-stamp a reference whose metadata was
stripped, with its own bytes read back. -/
def healReferenceIfCorrupt (cfg : EngineConfig) (ds : String) (refMeta : FileMetadata) :
    EngineM FileMetadata :=
  if !referenceMetadataIsCorrupt refMeta then pure refMeta
  else do
    codecCall .spool
    let data ← storageCall (.getReference ds)
    codecCall .spool
    let now ← localCall .now
    let healed := FileMetadata.newReference internalReferenceName internalReferenceName
      (cfg.sha256 data) (cfg.md5 data) data.length refMeta.contentType now
    storageCall (.putReference ds data healed)
    localCall (.cacheInvalidate ds)
    pure healed

/-- `reference_integrity_ok`: the expected digest when it is recorded and
differs from the actual one. -/
def referenceIntegrityOk (actual expected : String) : Except String Unit :=
  if expected.isEmpty || actual == expected then .ok () else .error expected

/-- The integrity check of `get_reference_cached`: only a metadata read that
succeeded, with a recorded SHA-256, can fail it. -/
def checkReferenceIntegrity (cfg : EngineConfig) (ds : String) (data : List UInt8)
    (metaResult : Except StorageError FileMetadata) : Except EngineError Unit :=
  match metaResult with
  | .ok expected =>
    if !expected.fileSha256.isEmpty then
      match referenceIntegrityOk (cfg.sha256 data) expected.fileSha256 with
      | .ok () => .ok ()
      | .error expectedSha256 =>
        .error (.checksumMismatch (ds ++ "/.dg/reference.bin") expectedSha256 (cfg.sha256 data))
    else .ok ()
  | .error _ => .ok ()

/-- How `get_reference_cached` maps the reference read's error. -/
def referenceReadResult (ds : String) (r : Except StorageError (List UInt8)) :
    Except EngineError (List UInt8) :=
  match r with
  | .ok data => .ok data
  | .error (.notFound _) => .error (.missingReference ds)
  | .error e => .error (.storage e)

/-- `get_reference_cached`: the cached bytes, or the stored reference checked
against its recorded SHA-256 and then cached. -/
def getReferenceCached (cfg : EngineConfig) (ds : String) : EngineM (List UInt8 × Bool) := do
  match ← localCall (.cacheGet ds) with
  | some data => pure (data, true)
  | none =>
    let dataResult ← storageTry (.getReference ds)
    let metaResult ← storageTry (.getReferenceMetadata ds)
    let data ← liftExcept (referenceReadResult ds dataResult)
    liftExcept (checkReferenceIntegrity cfg ds data metaResult)
    localCall (.cachePut ds data)
    pure (data, false)

/-! ## The buffered path -/

/-- Undo a reference this request created: drop it from the cache, delete
it best-effort.  The encode-failure rollback of `store_inner` and the
ratio-loss teardown of `commit_delta_or_passthrough` both do this, and only
when the reference did not exist before. -/
def discardFreshReference (hasExistingReference : Bool) (ds : String) : EngineM Unit :=
  if !hasExistingReference then do
    localCall (.cacheInvalidate ds)
    bestEffort (storageCall (.deleteReference ds))
  else pure ()

/-- `commit_delta_or_passthrough`.  `reference` is the bytes the delta was
encoded against, passed on as the delta's ghost base. -/
def commitDeltaOrPassthrough (cfg : EngineConfig) (ctx : StoreContext) (refMeta : FileMetadata)
    (hasExistingReference : Bool) (reference delta : List UInt8) (ratio : ℚ) :
    EngineM StoreResult :=
  if cfg.maxDeltaRatio ≤ ratio then do
    let result ← storePassthrough ctx
    bestEffort (deleteDeltaIdempotent ctx.deltaspaceId ctx.objKey.filename)
    discardFreshReference hasExistingReference ctx.deltaspaceId
    pure result
  else do
    let now ← localCall .now
    let metadata := deltaMetadata ctx.objKey.filename ctx.sha256 ctx.md5 ctx.data.length
      refMeta.fileSha256 delta.length ctx.contentType ctx.userMetadata ctx.multipartEtag now
    storageCall (.putDelta ctx.deltaspaceId ctx.objKey.filename delta metadata reference)
    bestEffort (deletePassthroughIdempotent ctx.deltaspaceId ctx.objKey.filename)
    pure ⟨metadata, delta.length⟩

/-- `encode_and_store`: the codec call stands for the codec permit
(`try_acquire_codec`), the blocking task and `codec.encode`. -/
def encodeAndStore (cfg : EngineConfig) (ctx : StoreContext) (refMeta : FileMetadata)
    (hasExistingReference : Bool) : EngineM StoreResult := do
  let (reference, _) ← getReferenceCached cfg ctx.deltaspaceId
  let delta ← codecCall (.encode reference ctx.data)
  let ratio := compressionRatio ctx.data.length delta.length
  commitDeltaOrPassthrough cfg ctx refMeta hasExistingReference reference delta ratio

/-- The reference step of `store_inner`: an existing reference is healed in
place, a missing one is created from the object's bytes. -/
def prepareReference (cfg : EngineConfig) (ctx : StoreContext) (hasExistingReference : Bool) :
    EngineM FileMetadata :=
  if hasExistingReference then do
    let read ← storageCall (.getReferenceMetadata ctx.deltaspaceId)
    healReferenceIfCorrupt cfg ctx.deltaspaceId read
  else setReferenceBaseline ctx

/-- The delta path of `store_inner`, under both locks: find or create the
reference, encode, and roll a fresh reference back if that fails. -/
def storeDeltaLocked (cfg : EngineConfig) (ctx : StoreContext) : EngineM StoreResult := do
  let hasExistingReference ← storageCall (.hasReference ctx.deltaspaceId)
  let refMeta ← prepareReference cfg ctx hasExistingReference
  tryCatch (encodeAndStore cfg ctx refMeta hasExistingReference) fun e => do
    discardFreshReference hasExistingReference ctx.deltaspaceId
    throw e

/-- `store_inner`. -/
def storeInner (cfg : EngineConfig) (key : String) (data : List UInt8)
    (contentType : Option String) (userMetadata : UserMeta) (multipartEtag : Option String) :
    EngineM StoreResult :=
  if cfg.maxObjectSize < data.length then throw (.tooLarge data.length cfg.maxObjectSize)
  else do
    let (objKey, ds) ← liftExcept (validatedKeyIngest key)
    let ctx : StoreContext := ⟨objKey, ds, data, cfg.sha256 data, cfg.md5 data, contentType,
      userMetadata, multipartEtag⟩
    if !cfg.compressionEnabled || !cfg.isDeltaEligible objKey.filename then
      withPrefixLock ds do
        let result ← storePassthrough ctx
        bestEffort (deleteDeltaIdempotent ds objKey.filename)
        pure result
    else
      withPrefixLock ds (withReferenceLock cfg ds (storeDeltaLocked cfg ctx))

/-- `store`. -/
def store (cfg : EngineConfig) (key : String) (data : List UInt8) (contentType : Option String)
    (userMetadata : UserMeta) : EngineM StoreResult :=
  storeInner cfg key data contentType userMetadata none

/-- `store_with_multipart_etag`. -/
def storeWithMultipartEtag (cfg : EngineConfig) (key : String) (data : List UInt8)
    (contentType : Option String) (userMetadata : UserMeta) (multipartEtag : String) :
    EngineM StoreResult :=
  storeInner cfg key data contentType userMetadata (some multipartEtag)

/-! ## Passthrough sinks -/

/-- `ensure_within_passthrough_ceiling`. -/
def ensureWithinPassthroughCeiling (cfg : EngineConfig) (totalSize : Nat) : EngineM Unit :=
  if cfg.maxPassthroughObjectSize < totalSize then
    throw (.tooLarge totalSize cfg.maxPassthroughObjectSize)
  else pure ()

/-- The relayed size check of the part and file sinks: the spool is read
back (which may fail) and its length compared with the declared size. -/
def checkRelayedSize (checkObserved : Bool) (observed totalSize : Nat) : EngineM Unit :=
  if checkObserved then do
    codecCall .spool
    if observed ≠ totalSize then
      throw (.storage (.other ("Multipart relay size mismatch: expected " ++ toString totalSize ++
        ", observed " ++ toString observed)))
    else pure ()
  else pure ()

/-- The shape the passthrough sinks share: the ceiling, the key, the relayed
size check when the sink has one (`checkObserved`), then under the prefix
lock the write with the hashes of the bytes and the declared size, and a
best-effort delete of the delta variant. -/
def storePassthroughSink (cfg : EngineConfig) (key : String) (data : List UInt8)
    (totalSize : Nat) (contentType : Option String) (userMetadata : UserMeta)
    (multipartEtag : Option String) (checkObserved : Bool) : EngineM StoreResult := do
  ensureWithinPassthroughCeiling cfg totalSize
  let (objKey, ds) ← liftExcept (validatedKeyIngest key)
  checkRelayedSize checkObserved data.length totalSize
  withPrefixLock ds do
    let now ← localCall .now
    let metadata := (FileMetadata.newPassthrough objKey.filename (cfg.sha256 data) (cfg.md5 data)
      totalSize contentType now).stamp userMetadata multipartEtag
    storageCall (.putPassthrough ds objKey.filename data metadata)
    bestEffort (deleteDeltaIdempotent ds objKey.filename)
    pure ⟨metadata, totalSize⟩

/-- `store_passthrough_chunked_inner`: hashes the chunks, and stamps the
declared `total_size` without comparing it to them. -/
def storePassthroughChunkedInner (cfg : EngineConfig) (key : String) (chunks : List (List UInt8))
    (totalSize : Nat) (contentType : Option String) (userMetadata : UserMeta)
    (multipartEtag : Option String) : EngineM StoreResult :=
  storePassthroughSink cfg key chunks.flatten totalSize contentType userMetadata multipartEtag false

/-- `store_passthrough_chunked`. -/
def storePassthroughChunked (cfg : EngineConfig) (key : String) (chunks : List (List UInt8))
    (totalSize : Nat) (contentType : Option String) (userMetadata : UserMeta) :
    EngineM StoreResult :=
  storePassthroughChunkedInner cfg key chunks totalSize contentType userMetadata none

/-- `store_passthrough_chunked_with_multipart_etag`. -/
def storePassthroughChunkedWithMultipartEtag (cfg : EngineConfig) (key : String)
    (chunks : List (List UInt8)) (totalSize : Nat) (contentType : Option String)
    (userMetadata : UserMeta) (multipartEtag : String) : EngineM StoreResult :=
  storePassthroughChunkedInner cfg key chunks totalSize contentType userMetadata (some multipartEtag)

/-- `store_passthrough_relayed_parts_with_multipart_etag`. -/
def storePassthroughRelayedPartsWithMultipartEtag (cfg : EngineConfig) (key : String)
    (parts : List (List UInt8)) (totalSize : Nat) (contentType : Option String)
    (userMetadata : UserMeta) (multipartEtag : String) : EngineM StoreResult :=
  storePassthroughSink cfg key parts.flatten totalSize contentType userMetadata (some multipartEtag)
    true

/-- `store_passthrough_file_with_multipart_etag`. -/
def storePassthroughFileWithMultipartEtag (cfg : EngineConfig) (key : String)
    (body : List UInt8) (totalSize : Nat) (contentType : Option String) (userMetadata : UserMeta)
    (multipartEtag : String) : EngineM StoreResult :=
  storePassthroughSink cfg key body totalSize contentType userMetadata (some multipartEtag) true

/-- `begin_passthrough_multipart` with `finish_passthrough_multipart`: the
prefix lock is held from the begin to the finish; the object is written by
the completion, stamped with the hashes the caller supplies, and a failed
completion is aborted (best-effort, nothing stored). -/
def finishPassthroughMultipart (cfg : EngineConfig) (key : String) (parts : List (List UInt8))
    (totalSize : Nat) (contentType : Option String) (userMetadata : UserMeta)
    (sha256 md5 : String) (multipartEtag : Option String) : EngineM StoreResult := do
  ensureWithinPassthroughCeiling cfg totalSize
  let (objKey, ds) ← liftExcept (validatedKeyIngest key)
  withPrefixLock ds do
    let now ← localCall .now
    let metadata := (FileMetadata.newPassthrough objKey.filename sha256 md5 totalSize contentType
      now).stamp userMetadata multipartEtag
    storageCall (.putPassthrough ds objKey.filename parts.flatten metadata)
    bestEffort (deleteDeltaIdempotent ds objKey.filename)
    pure ⟨metadata, totalSize⟩

/-! ## The streaming path -/

/-- `commit_streamed_delta`. -/
def commitStreamedDelta (ds : String) (objKey : ObjectKey) (reference delta : List UInt8)
    (size : Nat) (sha256 md5 : String) (contentType : Option String) (userMetadata : UserMeta)
    (multipartEtag : Option String) : EngineM StoreResult := do
  let refMeta ← storageCall (.getReferenceMetadata ds)
  let now ← localCall .now
  let metadata := deltaMetadata objKey.filename sha256 md5 size refMeta.fileSha256 delta.length
    contentType userMetadata multipartEtag now
  storageCall (.putDelta ds objKey.filename delta metadata reference)
  bestEffort (deletePassthroughIdempotent ds objKey.filename)
  pure ⟨metadata, delta.length⟩

/-- The reference step of `store_spooled_delta`: an existing reference is
healed in place; otherwise the spooled body becomes the baseline (streamed
into place, so the cache entry is dropped rather than filled). -/
def spooledReference (cfg : EngineConfig) (ds : String) (objKey : ObjectKey) (body : List UInt8)
    (size : Nat) (sha256 md5 : String) (contentType : Option String) (hasExistingReference : Bool) :
    EngineM Unit :=
  if hasExistingReference then do
    let read ← storageCall (.getReferenceMetadata ds)
    discardE (healReferenceIfCorrupt cfg ds read)
  else do
    let now ← localCall .now
    let refMeta := FileMetadata.newReference internalReferenceName objKey.fullKey sha256 md5 size
      contentType now
    storageCall (.putReferenceFromFile ds body refMeta)
    localCall (.cacheInvalidate ds)

/-- The locked part of `store_spooled_delta`: `none` when the capped encode
says the ratio loses, after which the locks are dropped. -/
def spooledDeltaLocked (cfg : EngineConfig) (ds : String) (objKey : ObjectKey) (body : List UInt8)
    (size : Nat) (sha256 md5 : String) (contentType : Option String) (userMetadata : UserMeta)
    (multipartEtag : Option String) : EngineM (Option StoreResult) := do
  let hasExistingReference ← storageCall (.hasReference ds)
  spooledReference cfg ds objKey body size sha256 md5 contentType hasExistingReference
  codecCall .spool
  let reference ← storageCall (.getReference ds)
  let cap := ⌈(size : ℚ) * cfg.maxDeltaRatio⌉₊
  match ← codecCall (.encodeCapped reference body cap) with
  | none => pure none
  | some delta => do
    codecCall .spool
    let result ← commitStreamedDelta ds objKey reference delta size sha256 md5 contentType
      userMetadata multipartEtag
    pure (some result)

/-- The streaming path once the body is hashed and checked. -/
def spooledStore (cfg : EngineConfig) (key : String) (ds : String) (objKey : ObjectKey)
    (body : List UInt8) (size : Nat) (contentType : Option String) (userMetadata : UserMeta)
    (multipartEtag : Option String) (isPassthrough : Bool) : EngineM StoreResult :=
  let sha256 := cfg.sha256 body
  let md5 := cfg.md5 body
  let mpe := multipartEtag.getD ""
  let etag := if mpe.isEmpty then "\"" ++ md5 ++ "\"" else mpe
  if isPassthrough then
    storePassthroughFileWithMultipartEtag cfg key body size contentType userMetadata etag
  else do
    let outcome ← withPrefixLock ds (withReferenceLock cfg ds
      (spooledDeltaLocked cfg ds objKey body size sha256 md5 contentType userMetadata multipartEtag))
    match outcome with
    | some result => pure result
    | none => storePassthroughFileWithMultipartEtag cfg key body size contentType userMetadata etag

/-- `store_spooled_delta`: `body` is the spool's content, `size` the declared
size. -/
def storeSpooledDelta (cfg : EngineConfig) (key : String) (body : List UInt8) (size : Nat)
    (contentType : Option String) (userMetadata : UserMeta) (multipartEtag : Option String) :
    EngineM StoreResult := do
  let (objKey, ds) ← liftExcept (validatedKeyIngest key)
  let isPassthrough := !cfg.compressionEnabled || !cfg.isDeltaEligible objKey.filename
  let ceiling := if isPassthrough then cfg.maxPassthroughObjectSize else cfg.maxObjectSize
  if ceiling < size then throw (.tooLarge size ceiling)
  else do
    codecCall .spool
    if body.length ≠ size then
      throw (.storage (.other ("Spooled object size mismatch: declared " ++ toString size ++
        ", observed " ++ toString body.length)))
    else spooledStore cfg key ds objKey body size contentType userMetadata multipartEtag isPassthrough

end DeltaGlider.Engine
