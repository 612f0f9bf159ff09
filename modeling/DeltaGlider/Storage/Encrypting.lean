import Mathlib
import DeltaGlider.Storage.ChunkDecoder

/-!
# `EncryptingBackend`

Model of the encryption wrapper of `src/storage/encrypting.rs`: its
hot-reloadable configuration, the write paths with their mode and key
gates, the windowing loops of the two chunked writers, and the read paths.

A write returns the call the wrapper makes on its inner backend
(`InnerPut`): the body bytes and metadata it hands over, or the error that
stops it first.  Bucket, prefix and file name pass through unchanged and
are left out.  Random IVs (`OsRng`) are arguments.  The source file of
`put_passthrough_file` is its bytes, read through a `ReadPlan` that decides
how short each `read` is and whether it fails.  A read is made against one
stored object (`InnerObject`), whose ranged streams arrive cut into
deliveries by an arbitrary `cut`.

Both chunked writers feed `ChunkFramer` with the same windows; that they
produce `encodeChunked` is proved in `ChunkedWriters`.
-/

namespace DeltaGlider.Encrypting

open RustStd

/-! ## Configuration -/

/-- `WriteMode`. -/
inductive WriteMode where
  /-- Encrypt writes when a key is configured. -/
  | encrypt
  /-- Writes skip encryption even when a key is present (decrypt-only shim). -/
  | passThrough
  deriving DecidableEq, Repr

/-- `EncryptionConfig`. -/
structure EncryptionConfig where
  key : Option EncryptionKey
  keyId : Option String
  writeMode : WriteMode
  legacyKey : Option EncryptionKey
  legacyKeyId : Option String

/-- `actively_encrypts`. -/
def EncryptionConfig.activelyEncrypts (cfg : EncryptionConfig) : Bool :=
  cfg.writeMode == .encrypt && cfg.key.isSome

/-! ## Writes -/

/-- The call the wrapper makes on its inner backend. -/
inductive InnerPut where
  | reference (data : List UInt8) (metadata : FileMetadata)
  | delta (data : List UInt8) (metadata : FileMetadata)
  | passthrough (data : List UInt8) (metadata : FileMetadata)
  | passthroughFile (contents : List UInt8) (metadata : FileMetadata)
  | passthroughParts (parts : List (List UInt8)) (metadata : FileMetadata)
  | passthroughChunked (chunks : List (List UInt8)) (metadata : FileMetadata)

/-- `encrypt_if_enabled`: single-shot encryption under the current key,
unless the write mode is `PassThrough`. -/
def encryptIfEnabled (E : Cipher) (cfg : EncryptionConfig) (iv data : List UInt8)
    (metadata : FileMetadata) : Except StorageError (List UInt8 × FileMetadata) :=
  if cfg.writeMode = .passThrough then .ok (data, metadata)
  else
    match cfg.key with
    | some key => .ok (encrypt E key iv data, markEncrypted metadata cfg.keyId)
    | none => .ok (data, metadata)

/-- `put_reference`. -/
def putReference (E : Cipher) (cfg : EncryptionConfig) (iv data : List UInt8)
    (metadata : FileMetadata) : Except StorageError InnerPut := do
  let (enc, meta') ← encryptIfEnabled E cfg iv data metadata
  pure (.reference enc meta')

/-- `put_delta`. -/
def putDelta (E : Cipher) (cfg : EncryptionConfig) (iv data : List UInt8)
    (metadata : FileMetadata) : Except StorageError InnerPut := do
  let (enc, meta') ← encryptIfEnabled E cfg iv data metadata
  pure (.delta enc meta')

/-- `put_passthrough`. -/
def putPassthrough (E : Cipher) (cfg : EncryptionConfig) (iv data : List UInt8)
    (metadata : FileMetadata) : Except StorageError InnerPut := do
  let (enc, meta') ← encryptIfEnabled E cfg iv data metadata
  pure (.passthrough enc meta')

/-! ### `put_passthrough_file`: windows filled from short reads -/

/-- What the `k`-th `read` call on the source file does: fail, or return
at most this many bytes.  A read returns at least one byte while the file
has any left, so it returns none only at the end of the file. -/
abbrev ReadPlan := Nat → Except StorageError Nat

/-- `input.read(&mut buf[filled..])` with `space` bytes of buffer left. -/
def readCall (plan : ReadPlan) (k : Nat) (rest : List UInt8) (space : Nat) :
    Except StorageError (List UInt8) :=
  match plan k with
  | .error e => .error e
  | .ok cap => .ok (rest.take (min (max cap 1) space))

/-- The inner `while filled < CHUNK_PLAINTEXT_SIZE` loop: fill one window,
stopping early only at the end of the file.  Returns the window, the
unread rest of the file and the number of the next read call. -/
def fillWindow (plan : ReadPlan) (k : Nat) (window rest : List UInt8) :
    Except StorageError (List UInt8 × List UInt8 × Nat) :=
  if window.length < chunkPlaintextSize then
    match readCall plan k rest (chunkPlaintextSize - window.length) with
    | .error e => .error e
    | .ok got =>
      if _hg : got.length = 0 then .ok (window, rest, k + 1)
      else fillWindow plan (k + 1) (window ++ got) (rest.drop got.length)
  else .ok (window, rest, k)
termination_by chunkPlaintextSize - window.length
decreasing_by
  simp only [List.length_append]
  omega

theorem readCall_eq_ok {plan : ReadPlan} {k space : Nat} {rest got : List UInt8}
    (h : readCall plan k rest space = .ok got) :
    ∃ cap, plan k = .ok cap ∧ got = rest.take (min (max cap 1) space) := by
  unfold readCall at h
  split at h
  · cases h
  · next cap hcap =>
    cases h
    exact ⟨cap, hcap, rfl⟩

/-- `fillWindow` fills the window from the front of the file, up to a full
window or the end of the file, however short the reads are. -/
theorem fillWindow_eq {plan : ReadPlan} {k k' : Nat} {window rest window' rest' : List UInt8} :
    fillWindow plan k window rest = .ok (window', rest', k') → window.length ≤ chunkPlaintextSize →
      window' = window ++ rest.take (chunkPlaintextSize - window.length) ∧
        rest' = rest.drop (chunkPlaintextSize - window.length) := by
  fun_induction fillWindow plan k window rest generalizing window' rest' k' with
  | case1 k window rest hlt e hread =>
    intro h
    cases h
  | case2 k window rest hlt got hread hgot =>
    intro h _
    cases h
    -- a read that returns nothing has met the end of the file
    obtain ⟨cap, -, rfl⟩ := readCall_eq_ok hread
    have hrest : rest = [] := by
      rw [List.length_eq_zero_iff, List.take_eq_nil_iff] at hgot
      rcases hgot with h0 | h0
      · omega
      · exact h0
    subst hrest
    simp
  | case3 k window rest hlt got hread hgot ih =>
    intro h _
    obtain ⟨cap, -, hgot_eq⟩ := readCall_eq_ok hread
    have hglen : got.length ≤ chunkPlaintextSize - window.length := by
      rw [hgot_eq, List.length_take]
      omega
    obtain ⟨hw, hr⟩ := ih h (by simp only [List.length_append]; omega)
    -- the read took the first `got.length` bytes of the file
    have hpre : rest.take got.length = got := by
      rw [hgot_eq, List.length_take]
      rcases le_total (min (max cap 1) (chunkPlaintextSize - window.length)) rest.length with hle | hle
      · rw [min_eq_left hle]
      · rw [min_eq_right hle, List.take_of_length_le le_rfl, List.take_of_length_le hle]
    have hsplit : chunkPlaintextSize - window.length =
        got.length + (chunkPlaintextSize - (window ++ got).length) := by
      simp only [List.length_append]
      omega
    rw [hsplit, List.take_add, hpre]
    exact ⟨by rw [hw, List.append_assoc], by rw [hr, List.drop_drop]⟩
  | case4 k window rest hge =>
    intro h hle
    cases h
    have : chunkPlaintextSize - window.length = 0 := by omega
    simp [this]

/-- The outer `loop`: a window per pass, pushed through the framer, until
a short window or the end of the file. -/
def encryptFileWindows (E : Cipher) (key : EncryptionKey) (plan : ReadPlan) (k : Nat)
    (framer : ChunkFramer) (frames : List (List UInt8)) (rest : List UInt8) :
    Except StorageError (ChunkFramer × List (List UInt8)) :=
  match _h : fillWindow plan k [] rest with
  | .error e => .error e
  | .ok (window, rest', k') =>
    if _hw : window.length = 0 then .ok (framer, frames)
    else
      match framer.pushWindow E key window with
      | .error e => .error e
      | .ok (frame, framer') =>
        let frames' := frames ++ frame.toList
        if window.length < chunkPlaintextSize then .ok (framer', frames')
        else encryptFileWindows E key plan k' framer' frames' rest'
termination_by rest.length
decreasing_by
  obtain ⟨hwin, hrest⟩ := fillWindow_eq _h (Nat.zero_le _)
  have hne : rest ≠ [] := by
    rintro rfl
    simp [hwin] at _hw
  have : rest.length ≠ 0 := by simpa using hne
  simp only [hrest, List.length_drop, List.length_nil, Nat.sub_zero]
  unfold chunkPlaintextSize
  omega

/-- The blocking task of `put_passthrough_file`: the chunked encoding of the
source file, as written to the temp file. -/
def encryptFileChunked (E : Cipher) (key : EncryptionKey) (baseIv source : List UInt8)
    (plan : ReadPlan) : Except StorageError (List UInt8) := do
  let header := chunkMagic ++ baseIv
  let (framer, frames) ← encryptFileWindows E key plan 0 (ChunkFramer.new baseIv) [] source
  let last ← framer.finish E key
  pure (header ++ frames.flatten ++ last)

/-- `put_passthrough_file`: streamed chunked encryption, unless the write mode
is `PassThrough` or there is no key. -/
def putPassthroughFile (E : Cipher) (cfg : EncryptionConfig) (baseIv source : List UInt8)
    (plan : ReadPlan) (metadata : FileMetadata) : Except StorageError InnerPut :=
  if cfg.writeMode = .passThrough then .ok (.passthroughFile source metadata)
  else
    match cfg.key with
    | none => .ok (.passthroughFile source metadata)
    | some key => do
      let tmp ← encryptFileChunked E key baseIv source plan
      pure (.passthroughFile tmp (markChunkedEncrypted metadata cfg.keyId))

/-- `put_passthrough_parts`: the parts joined into one file, then
`put_passthrough_file`; delegated whole when not encrypting. -/
def putPassthroughParts (E : Cipher) (cfg : EncryptionConfig) (baseIv : List UInt8)
    (parts : List (List UInt8)) (plan : ReadPlan) (metadata : FileMetadata) :
    Except StorageError InnerPut :=
  if cfg.writeMode = .passThrough || cfg.key.isNone then .ok (.passthroughParts parts metadata)
  else putPassthroughFile E cfg baseIv parts.flatten plan metadata

/-! ### `put_passthrough_chunked`: windows re-sliced from incoming chunks -/

/-- The window being filled.  A full window is pushed at once, so between
iterations it is never full. -/
abbrev OpenWindow := { w : List UInt8 // w.length < chunkPlaintextSize }

/-- The `while !remaining.is_empty()` loop over one incoming chunk. -/
def sliceIncoming (E : Cipher) (key : EncryptionKey) (framer : ChunkFramer)
    (ptWindow : OpenWindow) (outFrames : List (List UInt8)) (remaining : List UInt8) :
    Except StorageError (ChunkFramer × OpenWindow × List (List UInt8)) :=
  if hr : remaining = [] then .ok (framer, ptWindow, outFrames)
  else
    let space := chunkPlaintextSize - ptWindow.1.length
    let take := min space remaining.length
    let window := ptWindow.1 ++ remaining.take take
    if hfull : window.length = chunkPlaintextSize then
      match framer.pushWindow E key window with
      | .error e => .error e
      | .ok (frame, framer') =>
        sliceIncoming E key framer' ⟨[], by decide⟩ (outFrames ++ frame.toList) (remaining.drop take)
    else
      sliceIncoming E key framer ⟨window, by
          have := ptWindow.2
          simp only [window, List.length_append, List.length_take] at hfull ⊢
          omega⟩ outFrames (remaining.drop take)
termination_by remaining.length
decreasing_by
  all_goals
    have := ptWindow.2
    have : remaining.length ≠ 0 := by simpa using hr
    simp only [List.length_drop]
    omega

/-- `put_passthrough_chunked`: encrypt when a key is configured. -/
def putPassthroughChunked (E : Cipher) (cfg : EncryptionConfig) (baseIv : List UInt8)
    (chunks : List (List UInt8)) (metadata : FileMetadata) : Except StorageError InnerPut :=
  match cfg.key with
  | none => .ok (.passthroughChunked chunks metadata)
  | some key => do
    let header := chunkMagic ++ baseIv
    let (framer, ptWindow, outFrames) ← chunks.foldlM
      (fun (acc : ChunkFramer × OpenWindow × List (List UInt8)) incoming =>
        sliceIncoming E key acc.1 acc.2.1 acc.2.2 incoming)
      (ChunkFramer.new baseIv, ⟨[], by decide⟩, [header])
    -- a non-empty tail is the last window
    let (framer, outFrames) ← if ptWindow.1 ≠ [] then do
        let (frame, framer) ← framer.pushWindow E key ptWindow.1
        pure (framer, outFrames ++ frame.toList)
      else pure (framer, outFrames)
    let last ← framer.finish E key
    pure (.passthroughChunked (outFrames ++ [last]) (markChunkedEncrypted metadata cfg.keyId))

/-- With the write mode `PassThrough`, every writer but the chunked one hands
its inner backend the plaintext and the metadata unchanged, key or no key. -/
theorem passThrough_writes_plaintext (E : Cipher) {cfg : EncryptionConfig}
    (hmode : cfg.writeMode = .passThrough) (iv data : List UInt8) (parts : List (List UInt8))
    (plan : ReadPlan) (md : FileMetadata) :
    putReference E cfg iv data md = .ok (.reference data md) ∧
    putDelta E cfg iv data md = .ok (.delta data md) ∧
    putPassthrough E cfg iv data md = .ok (.passthrough data md) ∧
    putPassthroughFile E cfg iv data plan md = .ok (.passthroughFile data md) ∧
    putPassthroughParts E cfg iv parts plan md = .ok (.passthroughParts parts md) := by
  have henc : encryptIfEnabled E cfg iv data md = .ok (data, md) := by
    rw [encryptIfEnabled, if_pos hmode]
  refine ⟨?_, ?_, ?_, ?_, ?_⟩
  · rw [putReference, henc]; rfl
  · rw [putDelta, henc]; rfl
  · rw [putPassthrough, henc]; rfl
  · rw [putPassthroughFile, if_pos hmode]
  · rw [putPassthroughParts, hmode]; rfl

/-! ## Reads -/

/-- The text of `pick_decrypt_key`'s error when no key is configured at all. -/
def noKeyConfiguredMessage (objId : String) : String :=
  "object was encrypted with key id '" ++ objId ++ "', but this backend has " ++
  "NO encryption key configured. The object can't be decrypted until " ++
  "the key is restored. Set `encryption.key` in YAML or the " ++
  "DGP_*_ENCRYPTION_KEY env var on this backend. If the object shouldn't " ++
  "be here (e.g. bucket routed to the wrong backend), fix routing " ++
  "instead."

/-- The text of `pick_decrypt_key`'s error on a key-id mismatch. -/
def keyMismatchMessage (objId cfgId : String) : String :=
  "object was encrypted with key id '" ++ objId ++ "', but this backend is " ++
  "configured with key id '" ++ cfgId ++ "' (no legacy-shim match either). This " ++
  "usually means: (a) the key was rotated without `legacy_key` set — " ++
  "restore the old key alongside the new one to read historical objects; " ++
  "(b) this bucket is routed to the wrong backend; (c) two backends " ++
  "share physical storage with different keys. Refusing to run AEAD — " ++
  "the underlying auth failure would be opaque."

/-- `pick_decrypt_key`: the primary key when the object's stamped id is the
primary id or absent, the legacy key when it is the legacy id. -/
def pickDecryptKey (cfg : EncryptionConfig) (objectKid : Option String) :
    Except StorageError EncryptionKey :=
  let noKey : Except StorageError EncryptionKey :=
    match cfg.key with
    | some k => .ok k
    | none => .error (.encryption "object is encrypted but no key is configured")
  let legacy := match cfg.legacyKey, cfg.legacyKeyId with
    | some k, some kid => some (k, kid)
    | _, _ => none
  match objectKid with
  | some objId =>
    if cfg.keyId = some objId then noKey
    else
      match legacy with
      | some (lk, lid) =>
        if lid = objId then .ok lk
        else if cfg.keyId.isNone && cfg.key.isNone then .error (.encryption (noKeyConfiguredMessage objId))
        else .error (.encryption (keyMismatchMessage objId (cfg.keyId.getD "<unset>")))
      | none =>
        if cfg.keyId.isNone && cfg.key.isNone then .error (.encryption (noKeyConfiguredMessage objId))
        else .error (.encryption (keyMismatchMessage objId (cfg.keyId.getD "<unset>")))
  | none => noKey

/-- `decrypt_if_needed`: single-shot decryption of a marked object. -/
def decryptIfNeeded (E : Cipher) (cfg : EncryptionConfig) (data : List UInt8)
    (metadata : FileMetadata) : Except StorageError (List UInt8) :=
  if isEncrypted metadata then do
    let key ← pickDecryptKey cfg (stampedKeyId metadata)
    decrypt E key data
  else .ok data

/-- One object as the wrapper reads it through its inner backend: its
metadata, its stored bytes, and how the bytes of a read arrive. -/
structure InnerObject where
  metadata : FileMetadata
  body : List UInt8
  cut : List UInt8 → List (List UInt8)
  flatten_cut : ∀ b, (cut b).flatten = b

/-- The inner `get_passthrough_stream`. -/
def InnerObject.stream (o : InnerObject) : List (Except StorageError (List UInt8)) :=
  Pull.deliver (o.cut o.body)

/-- The inner `get_passthrough_stream_range(start, end)`, as the filesystem
backend answers it: the bytes `start..=end` that exist, and `end - start + 1`
as the length. -/
def InnerObject.rangeRead (o : InnerObject) (start end_ : Nat) :
    List (Except StorageError (List UInt8)) × Nat :=
  (Pull.deliver (o.cut ((o.body.drop start).take (end_ + 1 - start))), end_ - start + 1)

/-- `get_reference` (and alike `get_delta`). -/
def getReference (E : Cipher) (cfg : EncryptionConfig) (o : InnerObject) :
    Except StorageError (List UInt8) :=
  decryptIfNeeded E cfg o.body o.metadata

/-- `sniff_dge1_magic`: refuse a plaintext-marked body that begins with the
chunked magic. -/
def sniffDge1Magic : List (Except StorageError (List UInt8)) → List (Except StorageError (List UInt8))
  | .ok first :: rest =>
    if 4 ≤ first.length ∧ first.take 4 = chunkMagic then
      [.error (.encryption ("object body begins with chunked-encryption magic but " ++
        "metadata has no dg-encrypted marker — xattrs may have " ++
        "been stripped during backup/restore. Refusing to serve " ++
        "ciphertext as plaintext."))]
    else .ok first :: rest
  | .error e :: _ => [.error e]
  | [] => []

/-- `get_passthrough_stream`, as its consumer sees it. -/
def getPassthroughStream (E : Cipher) (cfg : EncryptionConfig) (o : InnerObject) :
    Except StorageError Drained :=
  if isChunkedEncrypted o.metadata then do
    let key ← pickDecryptKey cfg (stampedKeyId o.metadata)
    let finalIdx := finalChunkIndexForPlaintextSize o.metadata.fileSize
    pure (chunkedDecryptStream E o.stream key finalIdx 0 none)
  else if isEncrypted o.metadata then do
    let plain ← decryptIfNeeded E cfg o.body o.metadata
    pure (.ended plain)
  else .ok (Drained.ofItems (sniffDge1Magic o.stream))

/-- `get_passthrough`: the chunked stream collected, or single-shot
decryption. -/
def getPassthrough (E : Cipher) (cfg : EncryptionConfig) (o : InnerObject) :
    Except StorageError (List UInt8) :=
  if isChunkedEncrypted o.metadata then do
    match ← getPassthroughStream E cfg o with
    | .ended out => .ok out
    | .failed _ e => .error e
    | .outOfFuel => .ok []
  else decryptIfNeeded E cfg o.body o.metadata

/-- `fetch_chunked_header`: the base IV, from a ranged read of the header. -/
def fetchChunkedHeader (o : InnerObject) : Except StorageError (List UInt8) :=
  let (stream, contentLength) := o.rangeRead 0 (chunkHeaderLen - 1)
  if contentLength = 0 then
    .error (.other ("chunked-encrypted range reads require a backend with native range support; " ++
      "this backend falls through to the default trait impl. Implement " ++
      "`get_passthrough_stream_range` on your StorageBackend to fix."))
  else
    match Pull.fill chunkHeaderLen [] stream with
    | .failed e _ _ => .error e
    | .ended buf =>
      .error (.encryption ("stream ended before encryption header (got " ++ toString buf.length ++
        " of " ++ toString chunkHeaderLen ++ " bytes)"))
    | .filled buf _ =>
      if buf.take 4 ≠ chunkMagic then
        .error (.encryption ("bad chunked-encryption magic: " ++ hexSliceDebug (buf.take 4)))
      else .ok ((buf.take chunkHeaderLen).drop 4)

/-- `get_passthrough_stream_range(start, end)` (`end` inclusive): the stream
and its announced length. -/
def getPassthroughStreamRange (E : Cipher) (cfg : EncryptionConfig) (o : InnerObject)
    (start end_ : Nat) : Except StorageError (Drained × Nat) :=
  if isChunkedEncrypted o.metadata then do
    let key ← pickDecryptKey cfg (stampedKeyId o.metadata)
    let finalIdx := finalChunkIndexForPlaintextSize o.metadata.fileSize
    -- `end` clamped to the plaintext, with `saturating_sub`
    let effectiveEnd := min end_ (o.metadata.fileSize - 1)
    if effectiveEnd < start then
      throw (.other ("range out of bounds: start=" ++ toString start ++ " effective_end=" ++
        toString effectiveEnd ++ " file_size=" ++ toString o.metadata.fileSize))
    let firstChunk := (chunkIndexForPlaintextOffset start).1
    let lastChunk := (chunkIndexForPlaintextOffset effectiveEnd).1
    let baseIv ← fetchChunkedHeader o
    let wireStart := wireOffsetOfChunk firstChunk
    let wireEnd :=
      if lastChunk < finalIdx then wireOffsetOfChunk lastChunk + chunkFrameWireLen - 1
      else u64Max - 1
    let (ctStream, _) := o.rangeRead wireStart wireEnd
    let skipBytes := start - firstChunk * chunkPlaintextSize
    let plaintextLen := effectiveEnd - start + 1
    pure (chunkedDecryptStreamFromChunk E ctStream key baseIv firstChunk finalIdx skipBytes
      (some plaintextLen), plaintextLen)
  else if isEncrypted o.metadata then do
    let plain ← decryptIfNeeded E cfg o.body o.metadata
    -- `end as usize + 1` and `plain[s..e]` panic; a panic is reported as `Other`
    if u64Max < end_ + 1 then throw (.other "attempt to add with overflow")
    let e := min (end_ + 1) plain.length
    if e < start then
      throw (.other ("slice index starts at " ++ toString start ++ " but ends at " ++ toString e))
    let slice := (plain.take e).drop start
    pure (.ended slice, slice.length)
  else
    let (stream, len) := o.rangeRead start end_
    .ok (Drained.ofItems stream, len)

end DeltaGlider.Encrypting
