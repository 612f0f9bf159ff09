import DeltaGlider.Engine.Store

/-!
# Resolving and deleting objects

From `src/deltaglider/engine/mod.rs`:

* `resolveObjectMetadata`: the metadata of the delta and of the passthrough
  variant of a filename; when both exist, the one with the later
  `created_at` (the delta on a tie).  `NotFound` and I/O errors read as "no
  such variant".
* `deleteInner`: under the prefix lock only (not the cross-instance lock),
  delete the resolved variant, then the other one best-effort, and, unless in
  a prefix sweep, reclaim `reference.bin` when no object is left.
* `reclaimEmptyDeltaspace`: that reclaim on its own, after a sweep.
-/

namespace DeltaGlider.Engine

/-- `original_name.rsplit('/').next()`. -/
def lastSegment (name : String) : String :=
  match splitAtLast '/' name.toList with
  | some (_, after) => String.ofList after
  | none => name

/-- How `resolve_object_metadata` reads one variant's metadata. -/
def variantOrNone (r : Except StorageError FileMetadata) : Except EngineError (Option FileMetadata) :=
  match r with
  | .ok m => .ok (some m)
  | .error (.notFound _) => .ok none
  | .error (.io _) => .ok none
  | .error e => .error (.storage e)

/-- The newer of the two variants (`d.created_at >= p.created_at`: the
delta on a tie). -/
def newerVariant : Option FileMetadata → Option FileMetadata → Option FileMetadata
  | some d, some p => some (if p.createdAt ≤ d.createdAt then d else p)
  | some m, none => some m
  | none, some m => some m
  | none, none => none

/-- `resolve_object_metadata`. -/
def resolveObjectMetadata (ds originalName : String) : EngineM (Option FileMetadata) := do
  let filename := lastSegment originalName
  let deltaResult ← storageTry (.getDeltaMetadata ds filename)
  let passthroughResult ← storageTry (.getPassthroughMetadata ds filename)
  let delta ← liftExcept (variantOrNone deltaResult)
  let passthrough ← liftExcept (variantOrNone passthroughResult)
  pure (newerVariant delta passthrough)

/-- `delete_sibling_variant_best_effort`: every error is dropped. -/
def deleteSiblingVariantBestEffort (ds filename : String) (deleteDelta : Bool) : EngineM Unit :=
  bestEffort (if deleteDelta then storageCall (.deleteDelta ds filename)
    else storageCall (.deletePassthrough ds filename))

/-- Whether a scan lists an object that is not a reference. -/
def hasObjects (remaining : List FileMetadata) : Bool := remaining.any fun m => !m.isReference

/-- The tail of `delete_inner` (and the body of `reclaim_empty_deltaspace`):
scan the deltaspace and reclaim `reference.bin` when no other object is left. -/
def reclaimIfEmpty (ds : String) : EngineM Unit := do
  let remaining ← storageCall (.scanDeltaspace ds)
  if hasObjects remaining then pure ()
  else do
    let hasReference ← storageCall (.hasReference ds)
    if hasReference then do
      storageCall (.deleteReference ds)
      localCall (.cacheInvalidate ds)
    else pure ()

/-- The resolved metadata, or `NotFound`. -/
def resolvedOrNotFound (objKey : ObjectKey) : Option FileMetadata → Except EngineError FileMetadata
  | some m => .ok m
  | none => .error (.notFound objKey.fullKey)

/-- The deletes of `delete_inner`: the resolved variant, then the other one
best-effort.  A reference is refused. -/
def deleteResolvedVariant (ds filename : String) (m : FileMetadata) : EngineM Unit :=
  match m.storageInfo with
  | .passthrough => do
    storageCall (.deletePassthrough ds filename)
    deleteSiblingVariantBestEffort ds filename true
  | .delta .. => do
    storageCall (.deleteDelta ds filename)
    deleteSiblingVariantBestEffort ds filename false
  | .reference _ =>
    throw (.invalidArgument "Reference objects are internal and cannot be deleted directly")

/-- `delete_inner`. -/
def deleteInner (key : String) (reclaimReference : Bool) : EngineM FileMetadata := do
  let (objKey, ds) ← liftExcept (validatedKey key)
  withPrefixLock ds do
    let resolved ← resolveObjectMetadata ds objKey.fullKey
    let metadata ← liftExcept (resolvedOrNotFound objKey resolved)
    deleteResolvedVariant ds objKey.filename metadata
    (if reclaimReference then reclaimIfEmpty ds else pure () : EngineM Unit)
    pure metadata

/-- `delete`. -/
def delete (key : String) : EngineM FileMetadata := deleteInner key true

/-- `delete_in_sweep`. -/
def deleteInSweep (key : String) : EngineM FileMetadata := deleteInner key false

/-- `reclaim_empty_deltaspace`. -/
def reclaimEmptyDeltaspace (ds : String) : EngineM Unit :=
  withPrefixLock ds (reclaimIfEmpty ds)

end DeltaGlider.Engine
