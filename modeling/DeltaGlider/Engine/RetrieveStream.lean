import DeltaGlider.Engine.Retrieve
import DeltaGlider.Lib.RustStd

/-!
# Streamed reads and the read integrity gate

`retrieve_stream`, `retrieve_stream_range` and the spooled reconstruction of
`src/deltaglider/engine/retrieve.rs`.  A key's metadata comes from the
metadata cache (any entry, stale or not: an argument here) or from a fresh
resolve.  A passthrough object is streamed from storage; a reference, or a
delta at most `spool_threshold` bytes long, is read by `retrieve_buffered`;
a larger delta is decoded into a spool file through a `HashingWriter` that
hashes every byte it passes on and refuses to pass more than the recorded
`file_size`, and the file is served only after the hash matched.  A read
from a cached entry that fails with a not-found error is retried once with
fresh metadata.

The integrity gate: whatever storage holds and whatever the codec answers,
every response that hands out reconstructed bytes was checked first.

    OkAlways codec inst faults (retrieveStream ..) (Verified cfg)
    OkAlways codec inst faults (retrieveStreamRange ..) (RangeVerified cfg)   (retrieve_integrity_gate)

The codec's output reaches the writer through the pump's pipe reads, cut in
any way (`PipeReads`).  The writer's `u64` byte count saturates only past
2^64 − 1 bytes, more than a file can hold, so it is an unbounded count here.
Left out: the metrics, the logs, the spool budget (its reservation is a call
that may fail) and the stream's own read errors after the response.
-/

namespace DeltaGlider.Engine

open RustStd

/-! ## Results that hold whatever the calls answer -/

section OkAlways

variable {codec : DeltaCodec} {inst : Nat} {faults : FaultModel} {α β : Type}

/-- Every run of `x`, from any state, that returns a value returns one with `P`. -/
def OkAlways (codec : DeltaCodec) (inst : Nat) (faults : FaultModel) (x : EngineM α) (P : α → Prop) : Prop :=
  ∀ s, wpE codec inst faults x (fun r _ => ∀ a, r = .ok a → P a) s

theorem okAlways_true (x : EngineM α) : OkAlways codec inst faults x fun _ => True := by
  intro s
  unfold wpE
  exact (Prog.wp_iff_runs _ _ _).mpr fun _ _ _ _ _ => trivial

theorem okAlways_pure {P : α → Prop} {a : α} (h : P a) : OkAlways codec inst faults (pure a) P := by
  intro s
  rw [wpE_pure]
  rintro b ⟨⟩
  exact h

theorem okAlways_throw {P : α → Prop} (e : EngineError) : OkAlways codec inst faults (throw e) P := by
  intro s
  rw [wpE_throw]
  rintro b ⟨⟩

theorem okAlways_liftExcept {P : α → Prop} {r : Except EngineError α} (h : ∀ a, r = .ok a → P a) :
    OkAlways codec inst faults (liftExcept r) P := by
  intro s
  rw [wpE_liftExcept]
  exact h

theorem OkAlways.bind {x : EngineM α} {f : α → EngineM β} {Q : α → Prop} {P : β → Prop}
    (hx : OkAlways codec inst faults x Q) (hf : ∀ a, Q a → OkAlways codec inst faults (f a) P) :
    OkAlways codec inst faults (x >>= f) P := by
  intro s
  rw [wpE_bind]
  refine wpE_mono ?_ (hx s)
  rintro (e | a) s' hr
  · rw [thenE_error]
    rintro b ⟨⟩
  · rw [thenE_ok]
    exact hf a (hr a rfl) s'

/-- A call whose answer the rest does not rely on. -/
theorem OkAlways.bind_any {x : EngineM α} {f : α → EngineM β} {P : β → Prop}
    (hf : ∀ a, OkAlways codec inst faults (f a) P) : OkAlways codec inst faults (x >>= f) P :=
  (okAlways_true x).bind fun a _ => hf a

theorem OkAlways.tryCatch {x : EngineM α} {h : EngineError → EngineM α} {P : α → Prop}
    (hx : OkAlways codec inst faults x P) (hh : ∀ e, OkAlways codec inst faults (h e) P) :
    OkAlways codec inst faults (tryCatch x h) P := by
  intro s
  rw [wpE_tryCatch]
  refine wpE_mono ?_ (hx s)
  rintro (e | a) s' hr
  · rw [catchE_error]
    exact hh e s'
  · rw [catchE_ok]
    exact hr

end OkAlways

/-! ## The hashing, size-capped sink -/

/-- How the pump's reads cut the codec's output: any pieces, in order. -/
structure PipeReads where
  split : List UInt8 → List (List UInt8)
  flatten_split : ∀ out, (split out).flatten = out

/-- The `HashingWriter` of `reconstruct_delta_to_spool`: what it passed on to
the spool file (`inner`), what it fed the hasher (`hashed`), its byte count
and its cap. -/
structure HashingWriter where
  inner : List UInt8
  hashed : List UInt8
  written : Nat
  cap : Nat
  deriving DecidableEq, Repr

namespace HashingWriter

def init (cap : Nat) : HashingWriter := ⟨[], [], 0, cap⟩

/-- `HashingWriter::write`: count first, refuse past the cap, then hash and
pass the bytes on. -/
def write (w : HashingWriter) (buf : List UInt8) : Except String HashingWriter :=
  let written := w.written + buf.length
  if written > w.cap then
    .error ("delta reconstruction exceeded expected size (" ++ toString written ++ " > " ++
      toString w.cap ++ " bytes)")
  else .ok { w with written := written, hashed := w.hashed ++ buf, inner := w.inner ++ buf }

/-- The pump's `sink(&buf[..n])?` over its reads: the first refusal ends it. -/
def writeAll (w : HashingWriter) : List (List UInt8) → Except String HashingWriter
  | [] => .ok w
  | buf :: bufs => w.write buf >>= fun w' => w'.writeAll bufs

/-- What the writer keeps: the spool file holds exactly the hashed bytes, and
their count is the byte count, within the cap. -/
structure Tees (w : HashingWriter) : Prop where
  inner_eq : w.inner = w.hashed
  written_eq : w.written = w.hashed.length
  within : w.written ≤ w.cap

theorem tees_init (cap : Nat) : (init cap).Tees := ⟨rfl, rfl, Nat.zero_le cap⟩

theorem write_ok {w w' : HashingWriter} {buf : List UInt8} (h : w.write buf = .ok w') :
    w.written + buf.length ≤ w.cap ∧
      w' = { w with written := w.written + buf.length, hashed := w.hashed ++ buf,
                    inner := w.inner ++ buf } := by
  unfold write at h
  dsimp only at h
  split at h
  · cases h
  · exact ⟨by omega, (Except.ok.inj h).symm⟩

/-- One write keeps the writer teeing, and hashes the buffer. -/
theorem Tees.write {w w' : HashingWriter} {buf : List UInt8} (hw : w.Tees)
    (h : w.write buf = .ok w') : w'.Tees ∧ w'.hashed = w.hashed ++ buf ∧ w'.cap = w.cap := by
  obtain ⟨hle, rfl⟩ := write_ok h
  refine ⟨⟨?_, ?_, hle⟩, rfl, rfl⟩
  · show w.inner ++ buf = w.hashed ++ buf
    rw [hw.inner_eq]
  · show w.written + buf.length = (w.hashed ++ buf).length
    rw [hw.written_eq, List.length_append]

/-- A whole run of writes keeps the writer teeing, and hashes every read. -/
theorem Tees.writeAll {w w' : HashingWriter} {bufs : List (List UInt8)} (hw : w.Tees)
    (h : w.writeAll bufs = .ok w') : w'.Tees ∧ w'.hashed = w.hashed ++ bufs.flatten ∧ w'.cap = w.cap := by
  induction bufs generalizing w with
  | nil =>
    cases h
    exact ⟨hw, by simp, rfl⟩
  | cons buf bufs ih =>
    simp only [HashingWriter.writeAll, bind, Except.bind] at h
    split at h
    · cases h
    · next w₁ h₁ =>
      obtain ⟨hw₁, hhash₁, hcap₁⟩ := hw.write h₁
      obtain ⟨hw', hhash', hcap'⟩ := ih hw₁ h
      refine ⟨hw', ?_, hcap'.trans hcap₁⟩
      rw [hhash', hhash₁, List.flatten_cons, List.append_assoc]

/-- The cap refuses exactly the reconstructions longer than it: a run of
writes from a teeing writer fails iff the reads add up past the cap. -/
theorem writeAll_isOk {w : HashingWriter} {bufs : List (List UInt8)} (hw : w.Tees) :
    (w.writeAll bufs).isOk = true ↔ w.written + bufs.flatten.length ≤ w.cap := by
  induction bufs generalizing w with
  | nil => simpa [HashingWriter.writeAll, Except.isOk, Except.toBool] using hw.within
  | cons buf bufs ih =>
    simp only [HashingWriter.writeAll, bind, Except.bind]
    split
    · next msg h₁ =>
      -- the refused write is where the count first passed the cap
      unfold HashingWriter.write at h₁
      dsimp only at h₁
      split at h₁
      · simp only [Except.isOk, Except.toBool, Bool.false_eq_true, false_iff, List.flatten_cons,
          List.length_append]
        omega
      · cases h₁
    · next w₁ h₁ =>
      obtain ⟨hw₁, -, hcap₁⟩ := hw.write h₁
      obtain ⟨-, rfl⟩ := write_ok h₁
      rw [ih hw₁, List.flatten_cons, List.length_append]
      simp only at hcap₁ ⊢
      omega

end HashingWriter

theorem mapError_eq_ok {ε ε' α : Type} {x : Except ε α} {f : ε → ε'} {a : α} :
    x.mapError f = .ok a ↔ x = .ok a := by
  cases x <;> simp [Except.mapError]

/-! ## Responses -/

/-- Where a streamed body comes from: a passthrough object, or a spool file
holding a reconstruction. -/
inductive StreamSource where
  | passthrough (data : List UInt8)
  | spool (data : List UInt8)
  deriving DecidableEq, Repr

/-- `RetrieveResponse`, without the `cache_hit` flag. -/
inductive RetrieveResponse where
  | buffered (data : List UInt8) (metadata : FileMetadata)
  | streamed (source : StreamSource) (metadata : FileMetadata)

/-- The body of a range response: a backend range of a passthrough object,
or `length` bytes from `start` of a spool file holding a reconstruction. -/
inductive RangeSource where
  | passthrough (data : List UInt8)
  | spool (data : List UInt8) (start length : Nat)
  deriving DecidableEq, Repr

/-! ## The spooled reconstruction -/

/-- `reconstruct_delta_to_spool`: the reference and the delta, the decode
into the hashing, size-capped writer, and the gate before the spool file is
handed out. -/
def reconstructDeltaToSpool (cfg : EngineConfig) (reads : PipeReads) (ds : String)
    (objKey : ObjectKey) (m : FileMetadata) : EngineM (List UInt8) := do
  -- the reference's size only sizes the spool reservation
  let _refSize ← storageTry (.getReferenceMetadata ds)
  -- `spool_acquire_pair`
  codecCall .spool
  let reference ← storageCall (.getReference ds)
  let delta ← storageCall (.getDelta ds objKey.filename)
  -- opening the output spool file
  codecCall .spool
  let out ← codecCall (.decode reference delta)
  -- the writer's refusal surfaces as the decode's `CodecError::Io`
  let sink ← liftExcept (((HashingWriter.init m.fileSize).writeAll (reads.split out)).mapError
    fun msg => .codec ("IO error: " ++ msg))
  -- `sink.flush()`
  codecCall .spool
  let actual := cfg.sha256 sink.hashed
  if actual != m.fileSha256 then do
    localCall (.cacheInvalidate ds)
    throw (.checksumMismatch objKey.fullKey m.fileSha256 actual)
  else pure sink.inner

/-- `retrieve_delta_spooled`: the verified spool file, streamed whole. -/
def retrieveDeltaSpooled (cfg : EngineConfig) (reads : PipeReads) (ds : String)
    (objKey : ObjectKey) (m : FileMetadata) : EngineM RetrieveResponse := do
  let data ← reconstructDeltaToSpool cfg reads ds objKey m
  -- `File::open` of the spool file
  codecCall .spool
  pure (.streamed (.spool data) m)

/-- `retrieve_delta_range_spooled`: the verified spool file, from the clamped
start for the clamped length. -/
def retrieveDeltaRangeSpooled (cfg : EngineConfig) (reads : PipeReads) (ds : String)
    (objKey : ObjectKey) (m : FileMetadata) (start endInclusive : Nat) :
    EngineM (RangeSource × Nat) := do
  let data ← reconstructDeltaToSpool cfg reads ds objKey m
  let size := m.fileSize
  let start := min start size
  let endExcl := min (u64SaturatingAdd endInclusive 1) size
  let contentLength := endExcl - start
  -- `File::open` and the seek to `start`
  codecCall .spool
  pure (.spool data start contentLength, contentLength)

namespace Streaming

/-- `retrieve_with_metadata`. -/
def retrieveWithMetadata (cfg : EngineConfig) (reads : PipeReads) (spoolThreshold : Nat)
    (ds : String) (objKey : ObjectKey) (m : FileMetadata) : EngineM RetrieveResponse :=
  match m.storageInfo with
  | .passthrough => do
    let data ← storageCall (.getPassthrough ds m.originalName)
    pure (.streamed (.passthrough data) m)
  | .delta .. =>
    if m.fileSize > spoolThreshold then retrieveDeltaSpooled cfg reads ds objKey m
    else do
      let data ← retrieveBuffered cfg ds objKey m
      pure (.buffered data m)
  | .reference _ => do
    let data ← retrieveBuffered cfg ds objKey m
    pure (.buffered data m)

/-- `try_unmanaged_passthrough`, as a stream. -/
def tryUnmanagedPassthrough (ds : String) (objKey : ObjectKey) : EngineM RetrieveResponse := do
  let (data, meta0) ← Engine.tryUnmanagedPassthrough ds objKey
  pure (.streamed (.passthrough data) meta0)

/-- The errors a stale metadata-cache entry surfaces as. -/
def staleCacheError : EngineError → Bool
  | .notFound _ | .storage (.notFound _) => true
  | _ => false

/-- The metadata a read starts from, and whether it came from the cache: the
cache's entry, or a fresh resolve. -/
def cachedOrResolved (cached : Option FileMetadata) (ds : String) (objKey : ObjectKey) :
    EngineM (Option FileMetadata × Bool) :=
  match cached with
  | some c => pure (some c, true)
  | none => do
    let resolved ← resolveObjectMetadata ds objKey.fullKey
    pure (resolved, false)

/-- `retrieve_stream`, with `cached` the metadata cache's entry for the key. -/
def retrieveStream (cfg : EngineConfig) (reads : PipeReads) (spoolThreshold : Nat)
    (cached : Option FileMetadata) (key : String) : EngineM RetrieveResponse := do
  let (objKey, ds) ← liftExcept (validatedKey key)
  let (metadata, fromCache) ← cachedOrResolved cached ds objKey
  match metadata with
  | none => tryUnmanagedPassthrough ds objKey
  | some m =>
    tryCatch (retrieveWithMetadata cfg reads spoolThreshold ds objKey m) fun e =>
      if staleCacheError e && fromCache then do
        -- the cached storage type may be stale: retry once with fresh metadata
        match ← resolveObjectMetadata ds objKey.fullKey with
        | some fresh => retrieveWithMetadata cfg reads spoolThreshold ds objKey fresh
        | none => tryUnmanagedPassthrough ds objKey
      else throw e

/-- `same_generation`: same size, then the strongest hash both snapshots
carry decides; with no shared hash the generations count as different. -/
def sameGeneration (expected actual : FileMetadata) : Bool :=
  if expected.fileSize != actual.fileSize then false
  else
    match [(expected.fileSha256, actual.fileSha256), (expected.md5, actual.md5)].find?
        (fun p => !p.1.isEmpty && !p.2.isEmpty) with
    | some (e, a) => e == a
    | none =>
      match expected.multipartEtag, actual.multipartEtag with
      | some e, some a => !e.isEmpty && !a.isEmpty && e == a
      | _, _ => false

/-- The generation pin of `retrieve_stream_range`: a pinned read fails when
the object resolved is not the generation it was pinned to. -/
def checkGeneration (cfg : EngineConfig) (key : String) :
    Option FileMetadata → Option FileMetadata → Except EngineError Unit
  | some expected, some actual =>
    if !sameGeneration expected actual then
      .error (.storage (.other ("source changed during copy: " ++ cfg.bucket ++ "/" ++ key ++
        " (size " ++ toString expected.fileSize ++ " -> " ++ toString actual.fileSize ++ ")")))
    else .ok ()
  | _, _ => .ok ()

/-- A backend range read of a passthrough object: the answer of
`passthroughRange` on the stored bytes, where a content length of 0 means the
backend gave the whole object and the caller slices it. -/
def passthroughRangeResponse (passthroughRange : List UInt8 → Nat → Nat → List UInt8 × Nat)
    (data : List UInt8) (start endInclusive : Nat) (m : FileMetadata) :
    Option (RangeSource × Nat × FileMetadata) :=
  let (body, contentLength) := passthroughRange data start endInclusive
  if contentLength = 0 then none else some (.passthrough body, contentLength, m)

/-- `retrieve_stream_range`: `some` when the range is served here (a
passthrough range the backend cut, or a large delta's spool file), `none`
when the caller should slice the buffered object. -/
def retrieveStreamRange (cfg : EngineConfig) (reads : PipeReads) (spoolThreshold : Nat)
    (passthroughRange : List UInt8 → Nat → Nat → List UInt8 × Nat) (cached : Option FileMetadata)
    (key : String) (start endInclusive : Nat) (expectedSource : Option FileMetadata) :
    EngineM (Option (RangeSource × Nat × FileMetadata)) := do
  let (objKey, ds) ← liftExcept (validatedKey key)
  -- a generation-pinned read never trusts the cache
  let (metadata, fromCache) ←
    cachedOrResolved (if expectedSource.isNone then cached else none) ds objKey
  liftExcept (checkGeneration cfg key expectedSource metadata)
  match metadata with
  | none => pure none
  | some m =>
    match m.storageInfo with
    | .passthrough => do
      match ← storageTry (.getPassthrough ds m.originalName) with
      | .ok data => pure (passthroughRangeResponse passthroughRange data start endInclusive m)
      | .error (.notFound what) =>
        if fromCache then do
          -- the cached entry may be stale: retry once with fresh metadata
          match ← resolveObjectMetadata ds objKey.fullKey with
          | none => pure none
          | some fresh =>
            match fresh.storageInfo with
            | .passthrough => do
              let data ← storageCall (.getPassthrough ds fresh.originalName)
              pure (passthroughRangeResponse passthroughRange data start endInclusive fresh)
            | _ => pure none
        else throw (.storage (.notFound what))
      | .error e => throw (.storage e)
    | .delta .. =>
      if m.fileSize > spoolThreshold then do
        let (body, contentLength) ←
          retrieveDeltaRangeSpooled cfg reads ds objKey m start endInclusive
        pure (some (body, contentLength, m))
      else pure none
    | .reference _ => pure none

end Streaming

/-! ## The integrity gate -/

/-- What a response that hands out reconstructed bytes was checked for: the
recorded SHA-256, and for a spool file also the recorded size. -/
def Verified (cfg : EngineConfig) : RetrieveResponse → Prop
  | .buffered data m => cfg.sha256 data = m.fileSha256
  | .streamed (.spool data) m => cfg.sha256 data = m.fileSha256 ∧ data.length ≤ m.fileSize
  | .streamed (.passthrough _) _ => True

/-- The same for a range response: a spooled range was cut from a checked
reconstruction. -/
def RangeVerified (cfg : EngineConfig) : Option (RangeSource × Nat × FileMetadata) → Prop
  | some (.spool data _ _, _, m) => cfg.sha256 data = m.fileSha256 ∧ data.length ≤ m.fileSize
  | _ => True

section Gate

variable {codec : DeltaCodec} {inst : Nat} {faults : FaultModel}

theorem retrieveBuffered_verified (cfg : EngineConfig) (ds : String) (objKey : ObjectKey)
    (m : FileMetadata) :
    OkAlways codec inst faults (retrieveBuffered cfg ds objKey m) fun data => cfg.sha256 data = m.fileSha256 := by
  unfold retrieveBuffered
  refine OkAlways.bind_any fun data => ?_
  dsimp only
  split
  · exact OkAlways.bind_any fun _ => okAlways_throw _
  · next hsha =>
    exact okAlways_pure (by simpa using hsha)

/-- The writer that comes back from the decode tees into the spool file what
it hashed, within the recorded size. -/
theorem okAlways_spoolSink {cap : Nat} {bufs : List (List UInt8)} {f : String → EngineError} :
    OkAlways codec inst faults (liftExcept (((HashingWriter.init cap).writeAll bufs).mapError f))
      fun sink => sink.Tees ∧ sink.cap = cap := by
  refine okAlways_liftExcept fun sink hsink => ?_
  obtain ⟨hw, -, hcap⟩ := (HashingWriter.tees_init cap).writeAll (mapError_eq_ok.mp hsink)
  exact ⟨hw, hcap⟩

theorem reconstructDeltaToSpool_verified (cfg : EngineConfig) (reads : PipeReads) (ds : String)
    (objKey : ObjectKey) (m : FileMetadata) :
    OkAlways codec inst faults (reconstructDeltaToSpool cfg reads ds objKey m)
      fun data => cfg.sha256 data = m.fileSha256 ∧ data.length ≤ m.fileSize := by
  unfold reconstructDeltaToSpool
  -- the calls before the writer: whatever they answer
  refine OkAlways.bind_any fun _ => OkAlways.bind_any fun _ => OkAlways.bind_any fun reference =>
    OkAlways.bind_any fun delta => OkAlways.bind_any fun _ => OkAlways.bind_any fun out => ?_
  refine okAlways_spoolSink.bind fun sink hsink => OkAlways.bind_any fun _ => ?_
  obtain ⟨⟨hinner, hwritten, hwithin⟩, hcap⟩ := hsink
  dsimp only
  split
  · exact OkAlways.bind_any fun _ => okAlways_throw _
  · next hsha =>
    refine okAlways_pure ⟨?_, ?_⟩
    · rw [hinner]
      simpa using hsha
    · rw [hinner, ← hwritten, ← hcap]
      exact hwithin

theorem retrieveDeltaSpooled_verified (cfg : EngineConfig) (reads : PipeReads) (ds : String)
    (objKey : ObjectKey) (m : FileMetadata) :
    OkAlways codec inst faults (retrieveDeltaSpooled cfg reads ds objKey m) (Verified cfg) := by
  unfold retrieveDeltaSpooled
  exact (reconstructDeltaToSpool_verified cfg reads ds objKey m).bind fun data hdata =>
    OkAlways.bind_any fun _ => okAlways_pure hdata

theorem retrieveDeltaRangeSpooled_verified (cfg : EngineConfig) (reads : PipeReads) (ds : String)
    (objKey : ObjectKey) (m : FileMetadata) (start endInclusive : Nat) :
    OkAlways codec inst faults (retrieveDeltaRangeSpooled cfg reads ds objKey m start endInclusive)
      fun r => RangeVerified cfg (some (r.1, r.2, m)) := by
  unfold retrieveDeltaRangeSpooled
  exact (reconstructDeltaToSpool_verified cfg reads ds objKey m).bind fun data hdata =>
    OkAlways.bind_any fun _ => okAlways_pure hdata

namespace Streaming

theorem retrieveWithMetadata_verified (cfg : EngineConfig) (reads : PipeReads)
    (spoolThreshold : Nat) (ds : String) (objKey : ObjectKey) (m : FileMetadata) :
    OkAlways codec inst faults (retrieveWithMetadata cfg reads spoolThreshold ds objKey m) (Verified cfg) := by
  unfold retrieveWithMetadata
  -- the buffered read of a reference or a small delta carries its own check
  have hbuffered : OkAlways codec inst faults
      (retrieveBuffered cfg ds objKey m >>= fun data => pure (.buffered data m)) (Verified cfg) :=
    (retrieveBuffered_verified cfg ds objKey m).bind fun data hdata => okAlways_pure hdata
  split
  · exact OkAlways.bind_any fun _ => okAlways_pure trivial
  · split
    · exact retrieveDeltaSpooled_verified cfg reads ds objKey m
    · exact hbuffered
  · exact hbuffered

theorem tryUnmanagedPassthrough_verified (cfg : EngineConfig) (ds : String) (objKey : ObjectKey) :
    OkAlways codec inst faults (tryUnmanagedPassthrough ds objKey) (Verified cfg) := by
  unfold tryUnmanagedPassthrough
  exact OkAlways.bind_any fun _ => okAlways_pure trivial

theorem retrieveStream_verified (cfg : EngineConfig) (reads : PipeReads) (spoolThreshold : Nat)
    (cached : Option FileMetadata) (key : String) :
    OkAlways codec inst faults (retrieveStream cfg reads spoolThreshold cached key) (Verified cfg) := by
  unfold retrieveStream
  refine OkAlways.bind_any fun key' => ?_
  obtain ⟨objKey, ds⟩ := key'
  refine OkAlways.bind_any fun found => ?_
  obtain ⟨metadata, fromCache⟩ := found
  cases metadata with
  | none => exact tryUnmanagedPassthrough_verified cfg ds objKey
  | some m =>
    refine (retrieveWithMetadata_verified cfg reads spoolThreshold ds objKey m).tryCatch fun e => ?_
    split
    · -- the stale-cache retry serves through the same checked paths
      refine OkAlways.bind_any fun fresh => ?_
      cases fresh with
      | none => exact tryUnmanagedPassthrough_verified cfg ds objKey
      | some fresh => exact retrieveWithMetadata_verified cfg reads spoolThreshold ds objKey fresh
    · exact okAlways_throw e

theorem retrieveStreamRange_verified (cfg : EngineConfig) (reads : PipeReads)
    (spoolThreshold : Nat) (passthroughRange : List UInt8 → Nat → Nat → List UInt8 × Nat)
    (cached : Option FileMetadata) (key : String) (start endInclusive : Nat)
    (expectedSource : Option FileMetadata) :
    OkAlways codec inst faults (retrieveStreamRange cfg reads spoolThreshold passthroughRange cached key
      start endInclusive expectedSource) (RangeVerified cfg) := by
  unfold retrieveStreamRange
  refine OkAlways.bind_any fun key' => ?_
  obtain ⟨objKey, ds⟩ := key'
  refine OkAlways.bind_any fun found => ?_
  obtain ⟨metadata, fromCache⟩ := found
  refine OkAlways.bind_any fun _ => ?_
  -- a passthrough range is never a spooled one
  have hpassthrough : ∀ data m, RangeVerified cfg
      (passthroughRangeResponse passthroughRange data start endInclusive m) := by
    intro data m
    unfold passthroughRangeResponse
    split
    split <;> trivial
  cases metadata with
  | none => exact okAlways_pure trivial
  | some m =>
    dsimp only
    split
    · -- passthrough: a backend range, or the stale-cache retry's
      refine OkAlways.bind_any fun r => ?_
      split
      · exact okAlways_pure (hpassthrough _ m)
      · split
        · refine OkAlways.bind_any fun fresh => ?_
          split
          · exact okAlways_pure trivial
          · next fresh =>
            split
            · exact OkAlways.bind_any fun data => okAlways_pure (hpassthrough data fresh)
            · exact okAlways_pure trivial
        · exact okAlways_throw _
      · exact okAlways_throw _
    · -- a delta: spooled when large, sliced by the caller when not
      split
      · refine (retrieveDeltaRangeSpooled_verified cfg reads ds objKey m start endInclusive).bind
          fun r hr => ?_
        obtain ⟨body, contentLength⟩ := r
        exact okAlways_pure hr
      · exact okAlways_pure trivial
    · exact okAlways_pure trivial

/-- **The read integrity gate.**  From any state, whatever storage holds and
whatever the codec answers: every buffered or spooled response of
`retrieve_stream`, and every spooled range of `retrieve_stream_range`, serves
from bytes whose SHA-256 is the recorded one, and a spool file holds at most
the recorded size. -/
theorem retrieve_integrity_gate (cfg : EngineConfig) (reads : PipeReads) (spoolThreshold : Nat)
    (passthroughRange : List UInt8 → Nat → Nat → List UInt8 × Nat) (cached : Option FileMetadata)
    (key : String) (start endInclusive : Nat) (expectedSource : Option FileMetadata) :
    OkAlways codec inst faults (retrieveStream cfg reads spoolThreshold cached key) (Verified cfg) ∧
      OkAlways codec inst faults (retrieveStreamRange cfg reads spoolThreshold passthroughRange cached key
        start endInclusive expectedSource) (RangeVerified cfg) :=
  ⟨retrieveStream_verified cfg reads spoolThreshold cached key,
    retrieveStreamRange_verified cfg reads spoolThreshold passthroughRange cached key start
      endInclusive expectedSource⟩

end Streaming

end Gate

end DeltaGlider.Engine
