import DeltaGlider.Types
import DeltaGlider.Lib.RustStd
import DeltaGlider.Lib.KeyMap

/-!
# The multipart upload store

`MultipartStore` of `src/multipart.rs`: the uploads in flight, each with its
parts, and the global counter `in_flight_bytes` of the bytes they hold.  A
call is a function from the store to its answer and the store it leaves.
Every call takes the write lock for its whole body, so calls are atomic and a
run of the store is a sequence of them (`Reachable`, `Run`).

* Maps.  A `HashMap` is an `AList` (`KeyMap`); changing an upload through
  `get_mut` is `insert` at its key (`modifyUpload`), `retain` is
  `KeyMap.retain`, and the loop of `promote_upload_to_relay` over the parts
  is `KeyMap.updateEach`, which keeps the rewrites made before a failure, as
  the borrowed upload does when `upload_part` returns early.
* Bytes.  Sizes and caps are natural numbers and the counter an integer: the
  bytes held never come near `2^64`, so `saturating_add` and the atomic's
  wrap do not fire, and an underflow of the counter would show as a negative
  value.  `saturating_sub` is natural subtraction.
* Surroundings.  `MultipartEnv` is what a call sees besides the store: the
  clock, the relay root of this process, `Md5::digest`, and the file system
  (`RelayFs`), whose every call may fail and whose reads answer whatever the
  file holds by then.  `create` is given the 16 bytes it draws from `OsRng`;
  a run draws ids that no tracked upload has (`MultipartOp.Fresh`).

The lifecycle of an upload (`MultipartState`): `Open` accepts parts and
aborts; `complete` and `complete_passthrough` validate the requested parts and
flip it to `Completing`, after which parts, aborts and further completes are
refused until `rollback_upload` returns it to `Open` or `finish_upload` or
`cleanup_expired` removes it.
-/

namespace DeltaGlider.Multipart

open RustStd KeyMap

/-! ## Data -/

/-- The `S3Error`s the multipart store answers with. -/
inductive S3Error where
  | invalidArgument (msg : String)
  | noSuchUpload (uploadId : String)
  | invalidRequest (msg : String)
  | entityTooLarge (size max : Nat)
  | slowDown (msg : String)
  | internalError (msg : String)
  | invalidPart (msg : String)
  | invalidPartOrder
  deriving DecidableEq, Repr

/-- `MultipartState`. -/
inductive MultipartState where
  /-- Accepting `UploadPart` calls; abort is allowed. -/
  | «open»
  /-- The parts are validated and handed to the engine's store. -/
  | completing
  deriving DecidableEq, Repr

/-- `PartPayload`: the part's bytes, or the relay file that holds them. -/
inductive PartPayload where
  | inMemory (bytes : List UInt8)
  | relayedFile (path : String)
  deriving DecidableEq, Repr

/-- `PartData`. -/
structure PartData where
  payload : PartPayload
  md5Hex : String
  md5Raw : List UInt8
  size : Nat
  uploadedAt : Int
  deriving DecidableEq, Repr

/-- What a part is apart from where its bytes are kept: what ListParts shows
and Complete checks. -/
structure PartView where
  md5Hex : String
  md5Raw : List UInt8
  size : Nat
  uploadedAt : Int
  deriving DecidableEq, Repr

def PartData.view (p : PartData) : PartView := ⟨p.md5Hex, p.md5Raw, p.size, p.uploadedAt⟩

/-- `RelayStrategy`. -/
inductive RelayStrategy where
  | inMemory (relayThresholdBytes : Option Nat)
  | relayed (relayDir : String)
  deriving DecidableEq, Repr

def RelayStrategy.isInMemory : RelayStrategy → Bool
  | .inMemory _ => true
  | .relayed _ => false

/-- An upload's parts by part number. -/
abbrev Parts := AList (fun _ : Nat => PartData)

/-- `MultipartUpload`. -/
structure MultipartUpload where
  uploadId : String
  bucket : String
  key : String
  createdAt : Int
  /-- The latest create, `UploadPart` or complete: what the idle sweeper measures. -/
  lastActivity : Int
  contentType : Option String
  userMetadata : UserMeta
  parts : Parts
  state : MultipartState
  relayStrategy : RelayStrategy
  /-- Set while the engine store for this upload runs; the sweeper spares it. -/
  storeInProgress : Bool

/-- The bytes an upload's parts hold, `parts.values().map(|p| p.size).sum()`. -/
def partsBytes (u : MultipartUpload) : Nat := total (fun _ p => p.size) u.parts

/-- Part `n` of the upload, apart from where its bytes are kept. -/
def MultipartUpload.partView (u : MultipartUpload) (n : Nat) : Option PartView :=
  (u.parts.lookup n).map PartData.view

/-- The store's fixed limits: `max_object_size`, `max_uploads`,
`max_total_multipart_bytes` and `idle_ttl`. -/
structure MultipartLimits where
  maxObjectSize : Nat
  maxUploads : Nat
  maxTotalMultipartBytes : Nat
  idleTtl : Int

/-- `default_max_total_multipart_bytes`: the operator's value, else
`max_object_size * (max(max_uploads, 4) / 4)`, saturating. -/
def defaultMaxTotalMultipartBytes (operatorValue : Option Nat) (maxObjectSize maxUploads : Nat) :
    Nat :=
  operatorValue.getD (min (maxObjectSize * (max maxUploads 4 / 4)) u64Max)

/-- `MultipartStore`: the uploads by id and `in_flight_bytes`. -/
structure MultipartStore where
  uploads : AList (fun _ : String => MultipartUpload)
  inFlightBytes : Int

/-- A new store: no uploads, no bytes. -/
def MultipartStore.new : MultipartStore := ⟨∅, 0⟩

/-- The file system as the relay paths see it: each call answers success or
its `io::Error`'s text; `read` answers the bytes the file holds when read. -/
structure RelayFs where
  createDirAll : String → Except String Unit
  createTempIn : String → Except String Unit
  writeAll : String → List UInt8 → Except String Unit
  syncAll : String → Except String Unit
  persist : String → Except String Unit
  read : String → Except String (List UInt8)

/-- A file system on which every call succeeds and every read answers no
bytes. -/
def RelayFs.healthy : RelayFs := ⟨fun _ => .ok (), fun _ => .ok (), fun _ _ => .ok (), fun _ => .ok (),
  fun _ => .ok (), fun _ => .ok []⟩

/-- What one call sees besides the store. -/
structure MultipartEnv where
  /-- `Utc::now()` -/
  now : Int
  /-- `relay_root_dir()`, this process's relay root -/
  relayRoot : String
  /-- `Md5::digest` -/
  md5 : List UInt8 → List UInt8
  fs : RelayFs

/-! ## Relay files -/

/-- `relay_dir_for_upload`. -/
def relayDirForUpload (relayRoot uploadId : String) : String := relayRoot ++ "/" ++ uploadId

/-- `part_path`: `part-{:05}.bin` in the relay directory. -/
def partPath (relayDir : String) (partNumber : Nat) : String :=
  let digits := Nat.toDigits 10 partNumber
  relayDir ++ "/part-" ++ String.ofList (List.replicate (5 - digits.length) '0' ++ digits) ++ ".bin"

/-- `write_part_file(&part_path(relay_dir, n), data)`: a temp file in the
part's directory, written, synced and persisted to the part's path.  The
parent of a part path is its relay directory, so the no-parent error cannot
occur. -/
def writePartFile (fs : RelayFs) (relayDir : String) (partNumber : Nat) (data : List UInt8) :
    Except S3Error Unit := do
  let path := partPath relayDir partNumber
  (fs.createDirAll relayDir).mapError fun e =>
    .internalError ("Failed to create relay directory: " ++ e)
  (fs.createTempIn relayDir).mapError fun e =>
    .internalError ("Failed to create relay tmp file: " ++ e)
  (fs.writeAll path data).mapError fun e => .internalError ("Failed to write relay part: " ++ e)
  (fs.syncAll path).mapError fun e => .internalError ("Failed to sync relay part: " ++ e)
  (fs.persist path).mapError fun e => .internalError ("Failed to persist relay part: " ++ e)

/-- The re-read of a relayed part in `load_bytes` and in
`ordered_relay_part_paths`: the file's bytes, refused unless their MD5 is the
one recorded at `UploadPart`. -/
def readRelayedPart (env : MultipartEnv) (path : String) (expectedMd5 : List UInt8) :
    Except S3Error (List UInt8) :=
  match env.fs.read path with
  | .error e => .error (.internalError ("Failed to read relayed part: " ++ e))
  | .ok bytes =>
    if env.md5 bytes = expectedMd5 then .ok bytes
    else .error (.internalError
      "relayed multipart part failed integrity check (content changed on disk since upload)")

/-- `PartPayload::load_bytes`. -/
def PartPayload.loadBytes (env : MultipartEnv) (expectedMd5 : List UInt8) :
    PartPayload → Except S3Error (List UInt8)
  | .inMemory bytes => .ok bytes
  | .relayedFile path => readRelayedPart env path expectedMd5

/-! ## Create and UploadPart -/

/-- `create_with_relay_policy`; `randomBytes` are the 16 bytes drawn from
`OsRng`, hex-encoded into the upload id. -/
def createWithRelayPolicy (lim : MultipartLimits) (env : MultipartEnv) (randomBytes : List UInt8)
    (bucket key : String) (contentType : Option String) (userMetadata : UserMeta)
    (relayThresholdBytes : Option Nat) (alwaysRelayPassthrough : Bool) (st : MultipartStore) :
    Except S3Error String × MultipartStore :=
  let uploadId := hexEncode randomBytes
  if lim.maxUploads ≤ st.uploads.entries.length then
    (.error (.slowDown ("Too many concurrent multipart uploads (max " ++ toString lim.maxUploads ++
      ")")), st)
  else
    let relayStrategy :=
      if alwaysRelayPassthrough then .relayed (relayDirForUpload env.relayRoot uploadId)
      else .inMemory relayThresholdBytes
    let upload : MultipartUpload :=
      ⟨uploadId, bucket, key, env.now, env.now, contentType, userMetadata, ∅, .open, relayStrategy,
        false⟩
    (.ok uploadId, { st with uploads := st.uploads.insert uploadId upload })

/-- `create`: no relay threshold, not relayed from the start. -/
def create (lim : MultipartLimits) (env : MultipartEnv) (randomBytes : List UInt8)
    (bucket key : String) (contentType : Option String) (userMetadata : UserMeta)
    (st : MultipartStore) : Except S3Error String × MultipartStore :=
  createWithRelayPolicy lim env randomBytes bucket key contentType userMetadata none false st

/-- Whether `upload_part` promotes the upload to relay files: the cumulative
size crosses the threshold of an in-memory upload. -/
def shouldPromoteToRelay (strategy : RelayStrategy) (cumulativeAfter : Nat) : Bool :=
  match strategy with
  | .inMemory (some threshold) => decide (threshold < cumulativeAfter)
  | .inMemory none => false
  | .relayed _ => false

/-- One turn of the loop of `promote_upload_to_relay`: an in-memory part is
written to its file and becomes a relayed one. -/
def relayPart (fs : RelayFs) (relayDir : String) (partNumber : Nat) (part : PartData) :
    Except S3Error PartData :=
  match part.payload with
  | .inMemory bytes =>
    (writePartFile fs relayDir partNumber bytes).map fun _ =>
      { part with payload := .relayedFile (partPath relayDir partNumber) }
  | .relayedFile _ => .ok part

/-- `promote_upload_to_relay`: the upload as the call leaves it, and the
call's result.  A failed write stops the loop; the parts rewritten before it
stay rewritten, and the strategy stays in memory. -/
def promoteUploadToRelay (env : MultipartEnv) (upload : MultipartUpload) :
    MultipartUpload × Except S3Error Unit :=
  let relayDir := relayDirForUpload env.relayRoot upload.uploadId
  match env.fs.createDirAll relayDir with
  | .error e =>
    (upload, .error (.internalError ("Failed to create multipart relay directory: " ++ e)))
  | .ok () =>
    match updateEach (relayPart env.fs relayDir) upload.parts with
    | (parts, .error e) => ({ upload with parts := parts }, .error e)
    | (parts, .ok ()) => ({ upload with parts := parts, relayStrategy := .relayed relayDir }, .ok ())

/-- The new part's payload: its bytes, or its relay file once written. -/
def partPayload (fs : RelayFs) (strategy : RelayStrategy) (partNumber : Nat) (data : List UInt8) :
    Except S3Error PartPayload :=
  match strategy with
  | .inMemory _ => .ok (.inMemory data)
  | .relayed relayDir =>
    (writePartFile fs relayDir partNumber data).map fun _ => .relayedFile (partPath relayDir partNumber)

/-- The end of `upload_part` once both caps passed and any promotion
succeeded: write the payload, insert the part over any old one, touch the
upload, move the counter by `delta` and answer the quoted part MD5.  A failed
write answers the store `onError`, as the promotion left it. -/
def insertPart (env : MultipartEnv) (st onError : MultipartStore) (uploadId : String)
    (upload : MultipartUpload) (partNumber : Nat) (data : List UInt8) (delta : Int) :
    Except S3Error String × MultipartStore :=
  match partPayload env.fs upload.relayStrategy partNumber data with
  | .error e => (.error e, onError)
  | .ok payload =>
    let md5Raw := env.md5 data
    let part : PartData := ⟨payload, hexEncode md5Raw, md5Raw, data.length, env.now⟩
    let upload := { upload with parts := upload.parts.insert partNumber part, lastActivity := env.now }
    (.ok ("\"" ++ hexEncode md5Raw ++ "\""),
      ⟨st.uploads.insert uploadId upload, st.inFlightBytes + delta⟩)

/-- `upload_part`.  The per-upload cap counts the upload's parts without the
one being replaced; the global cap is checked only when the part grows the
counter. -/
def uploadPart (lim : MultipartLimits) (env : MultipartEnv) (uploadId bucket key : String)
    (partNumber : Nat) (data : List UInt8) (st : MultipartStore) :
    Except S3Error String × MultipartStore :=
  if ¬(1 ≤ partNumber ∧ partNumber ≤ 10000) then
    (.error (.invalidArgument "Part number must be between 1 and 10000"), st)
  else match st.uploads.lookup uploadId with
  | none => (.error (.noSuchUpload uploadId), st)
  | some upload =>
    if upload.bucket ≠ bucket ∨ upload.key ≠ key then (.error (.noSuchUpload uploadId), st)
    else if upload.state ≠ .open then
      (.error (.invalidRequest
        "Upload is in the process of being completed; no more parts can be added"), st)
    else
      let oldPartSize := ((upload.parts.lookup partNumber).map (·.size)).getD 0
      let cumulativeAfter := partsBytes upload - oldPartSize + data.length
      if lim.maxObjectSize < cumulativeAfter then
        (.error (.entityTooLarge cumulativeAfter lim.maxObjectSize), st)
      else
        let delta : Int := data.length - oldPartSize
        if 0 < delta ∧ (lim.maxTotalMultipartBytes : Int) < st.inFlightBytes + delta then
          (.error (.slowDown ("Multipart in-flight bytes cap reached (" ++
            toString (st.inFlightBytes + delta) ++ " / " ++ toString lim.maxTotalMultipartBytes ++
            " bytes)")), st)
        else if shouldPromoteToRelay upload.relayStrategy cumulativeAfter then
          match promoteUploadToRelay env upload with
          | (promoted, .error e) => (.error e, { st with uploads := st.uploads.insert uploadId promoted })
          | (promoted, .ok ()) =>
            insertPart env st { st with uploads := st.uploads.insert uploadId promoted } uploadId
              promoted partNumber data delta
        else insertPart env st st uploadId upload partNumber data delta

/-! ## Complete -/

/-- `requested_parts.windows(2)`: every part number below the next. -/
def partsAscending : List (Nat × String) → Bool
  | a :: b :: rest => decide (a.1 < b.1) && partsAscending (b :: rest)
  | _ => true

/-- The part loop of `validate_parts`: the running total size, the
concatenated part MD5s and (when hydrating) the parts' bytes, or the first
failing part's error. -/
def validateLoop (lim : MultipartLimits) (env : MultipartEnv) (parts : Parts) (hydrate : Bool) :
    Nat → List UInt8 → List (List UInt8) → List (Nat × String) →
      Except S3Error (Nat × List UInt8 × List (List UInt8))
  | totalSize, md5Concat, partData, [] => .ok (totalSize, md5Concat, partData)
  | totalSize, md5Concat, partData, (partNumber, requestedEtag) :: rest =>
    match parts.lookup partNumber with
    | none => .error (.invalidPart ("Part " ++ toString partNumber ++ " has not been uploaded"))
    | some part =>
      let requestedClean := String.ofList (trimMatches '"' requestedEtag.toList)
      if requestedClean ≠ part.md5Hex then
        .error (.invalidPart ("ETag mismatch for part " ++ toString partNumber ++ ": expected \"" ++
          part.md5Hex ++ "\", got \"" ++ requestedClean ++ "\""))
      else if lim.maxObjectSize < totalSize + part.size then
        .error (.invalidArgument ("Assembled object size " ++ toString (totalSize + part.size) ++
          " exceeds maximum " ++ toString lim.maxObjectSize))
      else if hydrate then
        match part.payload.loadBytes env part.md5Raw with
        | .error e => .error e
        | .ok bytes =>
          validateLoop lim env parts hydrate (totalSize + part.size) (md5Concat ++ part.md5Raw)
            (partData ++ [bytes]) rest
      else
        validateLoop lim env parts hydrate (totalSize + part.size) (md5Concat ++ part.md5Raw)
          partData rest

/-- `ValidatedParts`. -/
structure ValidatedParts where
  partData : List (List UInt8)
  etag : String
  totalSize : Nat

/-- The S3 multipart ETag: the MD5 of the concatenated part MD5s, a dash and
the part count, quoted. -/
def multipartEtag (md5 : List UInt8 → List UInt8) (md5Concat : List UInt8) (count : Nat) : String :=
  "\"" ++ hexEncode (md5 md5Concat) ++ "-" ++ toString count ++ "\""

/-- `validate_parts`. -/
def validateParts (lim : MultipartLimits) (env : MultipartEnv)
    (uploads : AList (fun _ : String => MultipartUpload)) (uploadId bucket key : String)
    (requestedParts : List (Nat × String)) (hydratePartData : Bool) :
    Except S3Error (ValidatedParts × MultipartUpload) :=
  match uploads.lookup uploadId with
  | none => .error (.noSuchUpload uploadId)
  | some upload =>
    if upload.bucket ≠ bucket ∨ upload.key ≠ key then .error (.noSuchUpload uploadId)
    else if requestedParts.isEmpty then .error (.invalidPart "You must specify at least one part")
    else if !partsAscending requestedParts then .error .invalidPartOrder
    else (validateLoop lim env upload.parts hydratePartData 0 [] [] requestedParts).map
      fun (totalSize, md5Concat, partData) =>
        (⟨partData, multipartEtag env.md5 md5Concat requestedParts.length, totalSize⟩, upload)

/-- Whether the upload is `Completing`. -/
def isCompleting (st : MultipartStore) (uploadId : String) : Bool :=
  match st.uploads.lookup uploadId with
  | some u => u.state == .completing
  | none => false

/-- `uploads.get_mut(upload_id)`, then `f` on the upload if it is there. -/
def MultipartStore.modifyUpload (st : MultipartStore) (uploadId : String)
    (f : MultipartUpload → MultipartUpload) : MultipartStore :=
  match st.uploads.lookup uploadId with
  | some u => { st with uploads := st.uploads.insert uploadId (f u) }
  | none => st

/-- The flip at the end of both completes. -/
def beginCompleting (now : Int) (u : MultipartUpload) : MultipartUpload :=
  { u with state := .completing, lastActivity := now }

/-- `CompletedUpload`. -/
structure CompletedUpload where
  data : List UInt8
  etag : String
  contentType : Option String
  userMetadata : UserMeta

/-- `complete`: refuse a second complete, validate and load every requested
part, then flip to `Completing`. -/
def complete (lim : MultipartLimits) (env : MultipartEnv) (uploadId bucket key : String)
    (requestedParts : List (Nat × String)) (st : MultipartStore) :
    Except S3Error CompletedUpload × MultipartStore :=
  if isCompleting st uploadId then (.error (.invalidRequest "Upload is already being completed"), st)
  else match validateParts lim env st.uploads uploadId bucket key requestedParts true with
  | .error e => (.error e, st)
  | .ok (validated, upload) =>
    (.ok ⟨validated.partData.flatten, validated.etag, upload.contentType, upload.userMetadata⟩,
      st.modifyUpload uploadId (beginCompleting env.now))

/-- `PassthroughPayload`. -/
inductive PassthroughPayload where
  | chunks (parts : List (List UInt8))
  | relayedParts (paths : List String)

/-- `CompletedPassthrough`. -/
structure CompletedPassthrough where
  payload : PassthroughPayload
  etag : String
  totalSize : Nat
  contentType : Option String
  userMetadata : UserMeta

/-- `ordered_relay_part_paths`: each requested part's relay file, re-read and
checked against its MD5. -/
def orderedRelayPartPaths (env : MultipartEnv) (parts : Parts) :
    List (Nat × String) → Except S3Error (List String)
  | [] => .ok []
  | (partNumber, _) :: rest =>
    match parts.lookup partNumber with
    | none => .error (.invalidPart ("Part " ++ toString partNumber ++ " has not been uploaded"))
    | some part =>
      match part.payload with
      | .relayedFile path =>
        match readRelayedPart env path part.md5Raw with
        | .error e => .error e
        | .ok _ => (path :: ·) <$> orderedRelayPartPaths env parts rest
      | .inMemory _ => .error (.internalError "Relay upload contains in-memory part unexpectedly")

/-- The payload `complete_passthrough` hands on: the loaded parts of an
in-memory upload, the relay files of a relayed one. -/
def passthroughPayload (env : MultipartEnv) (requestedParts : List (Nat × String))
    (upload : MultipartUpload) (partData : List (List UInt8)) : Except S3Error PassthroughPayload :=
  match upload.relayStrategy with
  | .inMemory _ => .ok (.chunks partData)
  | .relayed _ => PassthroughPayload.relayedParts <$> orderedRelayPartPaths env upload.parts requestedParts

/-- `complete_passthrough`: as `complete`, but a relayed upload's parts are
handed on as their files instead of being loaded. -/
def completePassthrough (lim : MultipartLimits) (env : MultipartEnv) (uploadId bucket key : String)
    (requestedParts : List (Nat × String)) (st : MultipartStore) :
    Except S3Error CompletedPassthrough × MultipartStore :=
  if isCompleting st uploadId then (.error (.invalidRequest "Upload is already being completed"), st)
  else match st.uploads.lookup uploadId with
  | none => (.error (.noSuchUpload uploadId), st)
  | some current =>
    match validateParts lim env st.uploads uploadId bucket key requestedParts
        current.relayStrategy.isInMemory with
    | .error e => (.error e, st)
    | .ok (validated, upload) =>
      match passthroughPayload env requestedParts upload validated.partData with
      | .error e => (.error e, st)
      | .ok payload =>
        (.ok ⟨payload, validated.etag, validated.totalSize, upload.contentType, upload.userMetadata⟩,
          st.modifyUpload uploadId (beginCompleting env.now))

/-! ## After the engine's store -/

/-- `rollback_upload`: back to `Open` after a failed store. -/
def rollbackUpload (uploadId : String) (st : MultipartStore) : MultipartStore :=
  st.modifyUpload uploadId fun u => { u with state := .open }

/-- `store_guard`: the store of this upload is in flight. -/
def storeGuard (uploadId : String) (st : MultipartStore) : MultipartStore :=
  st.modifyUpload uploadId fun u => { u with storeInProgress := true }

/-- `clear_store_in_progress`, when the guard is dropped. -/
def clearStoreInProgress (uploadId : String) (st : MultipartStore) : MultipartStore :=
  st.modifyUpload uploadId fun u => { u with storeInProgress := false }

/-- `release_bytes`: the counter less the removed upload's bytes. -/
def releaseBytes (inFlightBytes : Int) (u : MultipartUpload) : Int :=
  if 0 < partsBytes u then inFlightBytes - partsBytes u else inFlightBytes

/-- `release_bytes` for each removed upload in turn. -/
def releaseAll (inFlightBytes : Int) (removed : List MultipartUpload) : Int :=
  removed.foldl releaseBytes inFlightBytes

/-- Remove an upload and release its bytes. -/
def MultipartStore.removeUpload (st : MultipartStore) (uploadId : String) (u : MultipartUpload) :
    MultipartStore :=
  ⟨st.uploads.erase uploadId, releaseBytes st.inFlightBytes u⟩

/-- `finish_upload`: remove the upload after a successful store. -/
def finishUpload (uploadId : String) (st : MultipartStore) : MultipartStore :=
  match st.uploads.lookup uploadId with
  | none => st
  | some u => st.removeUpload uploadId u

/-- `abort`: refused while `Completing`. -/
def abort (uploadId bucket key : String) (st : MultipartStore) : Except S3Error Unit × MultipartStore :=
  match st.uploads.lookup uploadId with
  | none => (.error (.noSuchUpload uploadId), st)
  | some u =>
    if u.bucket ≠ bucket ∨ u.key ≠ key then (.error (.noSuchUpload uploadId), st)
    else if u.state = .completing then
      (.error (.invalidRequest "Cannot abort: upload is currently being completed"), st)
    else (.ok (), st.removeUpload uploadId u)

/-! ## Bulk removal -/

/-- The uploads of the map that satisfy `p`. -/
def selectUploads (p : MultipartUpload → Bool) (st : MultipartStore) : List MultipartUpload :=
  (retain (fun _ u => p u) st.uploads).entries.map (·.2)

/-- Remove every upload that satisfies `p` and release their bytes. -/
def MultipartStore.removeWhere (st : MultipartStore) (p : MultipartUpload → Bool) : MultipartStore :=
  ⟨retain (fun _ u => !p u) st.uploads, releaseAll st.inFlightBytes (selectUploads p st)⟩

/-- `purge_uploads_for_bucket`: refused, with the count, while an upload of
the bucket is `Completing`; otherwise every upload of the bucket goes. -/
def purgeUploadsForBucket (bucket : String) (st : MultipartStore) : Except Nat Nat × MultipartStore :=
  let completingCount :=
    (st.uploads.entries.filter fun e => e.2.bucket == bucket && e.2.state == .completing).length
  if 0 < completingCount then (.error completingCount, st)
  else
    ((.ok (selectUploads (fun u => u.bucket == bucket) st).length),
      st.removeWhere fun u => u.bucket == bucket)

/-- `MultipartSweepReport`'s upload counts. -/
structure MultipartSweepReport where
  sweptOpenUploads : Nat
  sweptCompletingUploads : Nat
  reclaimedBytes : Nat
  deriving DecidableEq, Repr

/-- The sweeper's test: an `Open` upload idle past the cutoff, or a
`Completing` one past the completing cutoff whose store is not running. -/
def expiredUpload (cutoff completingCutoff : Int) (u : MultipartUpload) : Bool :=
  match u.state with
  | .completing => decide (u.lastActivity ≤ completingCutoff) && !u.storeInProgress
  | .open => decide (u.lastActivity ≤ cutoff)

/-- The report of a sweep over the removed uploads. -/
def sweepReport (expired : List MultipartUpload) : MultipartSweepReport :=
  expired.foldl (fun r u =>
    if u.state = .completing then
      { r with sweptCompletingUploads := r.sweptCompletingUploads + 1,
               reclaimedBytes := r.reclaimedBytes + partsBytes u }
    else
      { r with sweptOpenUploads := r.sweptOpenUploads + 1,
               reclaimedBytes := r.reclaimedBytes + partsBytes u }) ⟨0, 0, 0⟩

/-- `cleanup_expired`; `maxAge` and `completingTimeout` are the
`TimeDelta`s it converts its arguments to (an hour when out of range).  The
cutoff is the later of the idle and the age cutoffs. -/
def cleanupExpired (lim : MultipartLimits) (now maxAge completingTimeout : Int)
    (st : MultipartStore) : MultipartSweepReport × MultipartStore :=
  let idleCutoff := now - lim.idleTtl
  let maxAgeCutoff := now - maxAge
  let cutoff := if idleCutoff > maxAgeCutoff then idleCutoff else maxAgeCutoff
  let completingCutoff := now - completingTimeout
  (sweepReport (selectUploads (expiredUpload cutoff completingCutoff) st),
    st.removeWhere (expiredUpload cutoff completingCutoff))

/-! ## Runs -/

/-- The store's calls, with their arguments. -/
inductive MultipartOp where
  | create (randomBytes : List UInt8) (bucket key : String) (contentType : Option String)
      (userMetadata : UserMeta) (relayThresholdBytes : Option Nat) (alwaysRelayPassthrough : Bool)
  | uploadPart (uploadId bucket key : String) (partNumber : Nat) (data : List UInt8)
  | complete (uploadId bucket key : String) (requestedParts : List (Nat × String))
  | completePassthrough (uploadId bucket key : String) (requestedParts : List (Nat × String))
  | rollbackUpload (uploadId : String)
  | storeGuard (uploadId : String)
  | clearStoreInProgress (uploadId : String)
  | finishUpload (uploadId : String)
  | abort (uploadId bucket key : String)
  | purgeUploadsForBucket (bucket : String)
  | cleanupExpired (maxAge completingTimeout : Int)

/-- The store a call leaves, whatever it answers. -/
def MultipartOp.apply (lim : MultipartLimits) (env : MultipartEnv) :
    MultipartOp → MultipartStore → MultipartStore
  | .create randomBytes bucket key contentType userMetadata threshold alwaysRelay, st =>
    (Multipart.createWithRelayPolicy lim env randomBytes bucket key contentType userMetadata threshold
      alwaysRelay st).2
  | .uploadPart uploadId bucket key partNumber data, st =>
    (Multipart.uploadPart lim env uploadId bucket key partNumber data st).2
  | .complete uploadId bucket key requestedParts, st =>
    (Multipart.complete lim env uploadId bucket key requestedParts st).2
  | .completePassthrough uploadId bucket key requestedParts, st =>
    (Multipart.completePassthrough lim env uploadId bucket key requestedParts st).2
  | .rollbackUpload uploadId, st => Multipart.rollbackUpload uploadId st
  | .storeGuard uploadId, st => Multipart.storeGuard uploadId st
  | .clearStoreInProgress uploadId, st => Multipart.clearStoreInProgress uploadId st
  | .finishUpload uploadId, st => Multipart.finishUpload uploadId st
  | .abort uploadId bucket key, st => (Multipart.abort uploadId bucket key st).2
  | .purgeUploadsForBucket bucket, st => (Multipart.purgeUploadsForBucket bucket st).2
  | .cleanupExpired maxAge completingTimeout, st =>
    (Multipart.cleanupExpired lim env.now maxAge completingTimeout st).2

/-- Whether a call answered `Ok`; the calls that answer nothing count as
done. -/
def MultipartOp.succeeded (lim : MultipartLimits) (env : MultipartEnv) :
    MultipartOp → MultipartStore → Bool
  | .create randomBytes bucket key contentType userMetadata threshold alwaysRelay, st =>
    (Multipart.createWithRelayPolicy lim env randomBytes bucket key contentType userMetadata threshold
      alwaysRelay st).1.isOk
  | .uploadPart uploadId bucket key partNumber data, st =>
    (Multipart.uploadPart lim env uploadId bucket key partNumber data st).1.isOk
  | .complete uploadId bucket key requestedParts, st =>
    (Multipart.complete lim env uploadId bucket key requestedParts st).1.isOk
  | .completePassthrough uploadId bucket key requestedParts, st =>
    (Multipart.completePassthrough lim env uploadId bucket key requestedParts st).1.isOk
  | .abort uploadId bucket key, st => (Multipart.abort uploadId bucket key st).1.isOk
  | .purgeUploadsForBucket bucket, st => (Multipart.purgeUploadsForBucket bucket st).1.isOk
  | _, _ => true

/-- `OsRng`'s 128-bit id is none the store tracks. -/
def MultipartOp.Fresh (st : MultipartStore) : MultipartOp → Prop
  | .create randomBytes .. => hexEncode randomBytes ∉ st.uploads
  | _ => True

/-- One call of the store, labelled with the call and whether it succeeded. -/
inductive Step (lim : MultipartLimits) : MultipartStore → MultipartOp × Bool → MultipartStore → Prop
  | call {st : MultipartStore} (env : MultipartEnv) (op : MultipartOp) (fresh : op.Fresh st) :
      Step lim st (op, op.succeeded lim env st) (op.apply lim env st)

/-- A run: the calls in order with their outcomes, each from the store the
previous one left. -/
inductive Run (lim : MultipartLimits) :
    MultipartStore → List (MultipartOp × Bool) → MultipartStore → Prop
  | nil (st : MultipartStore) : Run lim st [] st
  | cons {st st₁ st' : MultipartStore} {ev : MultipartOp × Bool} {evs : List (MultipartOp × Bool)} :
      Step lim st ev st₁ → Run lim st₁ evs st' → Run lim st (ev :: evs) st'

/-- The stores some run from a new store reaches. -/
def Reachable (lim : MultipartLimits) (st : MultipartStore) : Prop :=
  ∃ evs, Run lim MultipartStore.new evs st

end DeltaGlider.Multipart
