import DeltaGlider.Engine.Delete

/-!
# Reading objects back

`retrieve` of `src/deltaglider/engine/retrieve.rs` and `head` of
`src/deltaglider/engine/mod.rs`.  A key resolves to its newer variant: a
passthrough object is streamed from its stored name; a delta is decoded
against the deltaspace's reference (cached, or read and checked) and the
result is checked against the object's recorded SHA-256.  A key without
managed metadata is tried as an unmanaged passthrough file, which is where
`NotFound` comes from.

Left out here: the metadata cache in front of the resolve (with its retry on
a stale entry), the spooled reconstruction of large deltas and ranges, which
`Engine/RetrieveStream.lean` models over the definitions of this file; metrics
and logs.
-/

namespace DeltaGlider.Engine

/-- The reference of `retrieve_buffered`: the cached or checked one, or,
when the deltaspace has none, a passthrough object named `reference.bin`
(cached on the way). -/
def referenceOrFallback (ds : String) : Except EngineError (List UInt8 × Bool) → EngineM (List UInt8)
  | .ok (r, _) => pure r
  | .error (.missingReference _) => do
    match ← storageTry (.getPassthrough ds "reference.bin") with
    | .ok data => do
      localCall (.cachePut ds data)
      pure data
    | .error _ => throw (.missingReference (ds ++ " (reference.bin not found via any method)"))
  | .error e => throw e

/-- `retrieve_buffered` for a delta: the reference, the delta, the
decompression-bomb guard and the decode. -/
def reconstructDelta (cfg : EngineConfig) (ds : String) (objKey : ObjectKey) (m : FileMetadata) :
    EngineM (List UInt8) := do
  let refResult ← ExceptT.lift (getReferenceCached cfg ds).run
  let deltaResult ← storageTry (.getDelta ds objKey.filename)
  let reference ← referenceOrFallback ds refResult
  let delta ← liftExcept (Except.mapError .storage deltaResult)
  if cfg.maxObjectSize < m.fileSize then throw (.tooLarge m.fileSize cfg.maxObjectSize)
  else codecCall (.decode reference delta)

/-- The bytes `retrieve_buffered` reads for each kind of object. -/
def readStored (cfg : EngineConfig) (ds : String) (objKey : ObjectKey) (m : FileMetadata) :
    EngineM (List UInt8) :=
  match m.storageInfo with
  | .reference _ => storageCall (.getReference ds)
  | .delta .. => reconstructDelta cfg ds objKey m
  | .passthrough => storageCall (.getPassthrough ds objKey.filename)

/-- `retrieve_buffered`: the bytes, checked against the recorded SHA-256. -/
def retrieveBuffered (cfg : EngineConfig) (ds : String) (objKey : ObjectKey) (m : FileMetadata) :
    EngineM (List UInt8) := do
  let data ← readStored cfg ds objKey m
  let actual := cfg.sha256 data
  if actual != m.fileSha256 then do
    localCall (.cacheInvalidate ds)
    throw (.checksumMismatch objKey.fullKey m.fileSha256 actual)
  else pure data

/-- `retrieve_with_metadata`, with the stream collected as `retrieve` does. -/
def retrieveWithMetadata (cfg : EngineConfig) (ds : String) (objKey : ObjectKey) (m : FileMetadata) :
    EngineM (List UInt8 × FileMetadata) :=
  match m.storageInfo with
  | .passthrough => do
    let data ← storageCall (.getPassthrough ds m.originalName)
    pure (data, m)
  | _ => do
    let data ← retrieveBuffered cfg ds objKey m
    pure (data, m)

/-- The metadata `try_unmanaged_passthrough` starts from: the stored one,
or a fresh passthrough record when there is none. -/
def unmanagedMetadata (ds : String) (objKey : ObjectKey) : EngineM FileMetadata := do
  match ← storageTry (.getPassthroughMetadata ds objKey.filename) with
  | .ok m => pure m
  | .error (.notFound _) => do
    let now ← localCall .now
    pure (FileMetadata.newPassthrough objKey.filename "" "" 0 none now)
  | .error e => throw (.storage e)

/-- The warning `try_unmanaged_passthrough` adds for a name that looks
managed. -/
def warnIfManagedName (objKey : ObjectKey) (meta0 : FileMetadata) : FileMetadata :=
  let warned := meta0.userMetadata.insert "dg-warning"
    "Missing DG metadata — delta features disabled. Re-copy with --metadata flag."
  if ".delta".toList <:+ objKey.filename.toList ∨ objKey.filename = "reference.bin" then
    { meta0 with userMetadata := warned }
  else meta0

/-- `try_unmanaged_passthrough`, collected. -/
def tryUnmanagedPassthrough (ds : String) (objKey : ObjectKey) :
    EngineM (List UInt8 × FileMetadata) := do
  let meta0 ← unmanagedMetadata ds objKey
  match ← storageTry (.getPassthrough ds objKey.filename) with
  | .ok data => pure (data, warnIfManagedName objKey meta0)
  | .error (.notFound _) => throw (.notFound objKey.fullKey)
  | .error e => throw (.storage e)

/-- `retrieve`. -/
def retrieve (cfg : EngineConfig) (key : String) : EngineM (List UInt8 × FileMetadata) := do
  let (objKey, ds) ← liftExcept (validatedKey key)
  match ← resolveObjectMetadata ds objKey.fullKey with
  | some m => retrieveWithMetadata cfg ds objKey m
  | none => tryUnmanagedPassthrough ds objKey

/-- `head`. -/
def head (key : String) : EngineM FileMetadata := do
  let (objKey, ds) ← liftExcept (validatedKey key)
  match ← resolveObjectMetadata ds objKey.fullKey with
  | some m => pure m
  | none =>
    match ← storageTry (.getPassthroughMetadata ds objKey.filename) with
    | .ok m => pure m
    | .error (.notFound _) => throw (.notFound objKey.fullKey)
    | .error e => throw (.storage e)

end DeltaGlider.Engine
