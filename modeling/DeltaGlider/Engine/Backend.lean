import DeltaGlider.Types
import DeltaGlider.Lib.Prog
import Mathlib.Data.List.AList
import Mathlib.Data.Rat.Defs

/-!
# The storage backend and the engine's commands

The engine (`src/deltaglider/engine/`) talks to a `StorageBackend`
(`src/storage/traits.rs`).  The backend is modelled by what it stores for one
bucket, the deltaspace (key prefix) by deltaspace:

* `reference.bin`, the deltaspace's reference baseline;
* `<filename>.delta`, an object stored as a delta against that reference;
* `<filename>`, an object stored as a passthrough file.

Every engine operation is a program (`Lib.Prog`) over the commands `Cmd`:
storage calls (`StorageCall`), codec calls (`CodecCall`) and the engine's
in-process state (`LocalCall`: the reference cache, the clock, the per-prefix
mutexes and the cross-instance reference lock).  `Step codec inst faults` is
what a command issued by instance `inst` does:

* a storage call does what `StorageCall.perform` says, or fails with any
  `StorageError`.  A failed call changed nothing, or, under the fault model
  `lossy`, it may also have done what `StorageCall.Lost` allows: its whole
  effect, when the request reached the store and its response was lost (the
  S3 backend's `put_object_with_metadata` retries a network error and then
  returns it), and for `put_reference_from_file` on the filesystem backend,
  which is not atomic, a removed or unstamped `reference.bin`;
* a codec call answers what the codec computes, or fails with any
  `EngineError` (no codec slot, a codec error, a panicked task);
* `cacheGet` may miss even when the entry is there (eviction);
* `lockPrefix` waits until the instance's own mutex for that prefix is free;
  `lockReference` may time out or fail, and succeeds only when no instance
  holds the lock (its TTL is taken to exceed any operation).

A delta object records, besides its bytes, the reference bytes it was encoded
against (`DeltaObject.base`).  The backend does not keep them: they are ghost
state, written by the engine from the bytes it handed the encoder, so that the
reference invariant can say which reference a delta needs.

    wp_storage, wp_codec      one rule for every storage call, every codec call
-/

namespace DeltaGlider

/-- `EngineError` of `src/deltaglider/engine/mod.rs`. -/
inductive EngineError where
  | storage (e : StorageError)
  | codec (msg : String)
  | notFound (key : String)
  | checksumMismatch (key expected actual : String)
  | missingReference (deltaspace : String)
  | tooLarge (size max : Nat)
  | invalidArgument (msg : String)
  | overloaded (msg : String)
  deriving DecidableEq, Repr

/-- The delta codec (`xdelta3`), as an ideal codec: decoding against the
source the delta was encoded from gives back the target. -/
structure DeltaCodec where
  encode : List UInt8 → List UInt8 → List UInt8
  decode : List UInt8 → List UInt8 → Option (List UInt8)
  decode_encode : ∀ source target, decode source (encode source target) = some target

/-- The codec whose delta is the target itself: the simplest lawful one. -/
def DeltaCodec.verbatim : DeltaCodec where
  encode _ target := target
  decode _ delta := some delta
  decode_encode _ _ := rfl

namespace Engine

/-! ## What the backend stores -/

/-- An object as the backend keeps it: its bytes and its metadata. -/
structure StoredObject where
  data : List UInt8
  metadata : FileMetadata

/-- A `<filename>.delta` object: the delta, its metadata, and the reference
bytes it was encoded against (ghost). -/
structure DeltaObject where
  delta : List UInt8
  metadata : FileMetadata
  base : List UInt8

/-- One deltaspace: `reference.bin` and the objects stored under their
filenames, as deltas and as passthrough files. -/
structure Deltaspace where
  reference : Option StoredObject
  deltas : AList (fun _ : String => DeltaObject)
  passthroughs : AList (fun _ : String => StoredObject)

namespace Deltaspace

def empty : Deltaspace := ⟨none, ∅, ∅⟩

/-- `scan_deltaspace`: the metadata of every object of the deltaspace. -/
def scan (d : Deltaspace) : List FileMetadata :=
  d.reference.toList.map (·.metadata) ++ d.deltas.entries.map (·.2.metadata) ++
    d.passthroughs.entries.map (·.2.metadata)

theorem mem_scan_of_delta {d : Deltaspace} {f : String} {o : DeltaObject}
    (h : d.deltas.lookup f = some o) : o.metadata ∈ d.scan := by
  have he : (⟨f, o⟩ : Sigma fun _ : String => DeltaObject) ∈ d.deltas.entries :=
    AList.mem_lookup_iff.mp h
  unfold scan
  exact List.mem_append_left _ (List.mem_append_right _ (List.mem_map.mpr ⟨_, he, rfl⟩))

theorem mem_scan_of_passthrough {d : Deltaspace} {f : String} {o : StoredObject}
    (h : d.passthroughs.lookup f = some o) : o.metadata ∈ d.scan := by
  have he : (⟨f, o⟩ : Sigma fun _ : String => StoredObject) ∈ d.passthroughs.entries :=
    AList.mem_lookup_iff.mp h
  unfold scan
  exact List.mem_append_right _ (List.mem_map.mpr ⟨_, he, rfl⟩)

end Deltaspace

/-- The objects of one bucket, by deltaspace id. -/
abbrev Objects := String → Deltaspace

/-- The `NotFound` message of the filesystem backend: `"{label}: {prefix}/{filename}"`. -/
def notFoundMsg (label ds f : String) : String := label ++ ": " ++ ds ++ "/" ++ f

/-! ## Storage calls -/

/-- The `StorageBackend` methods the engine calls.  `getReference` stands for
`get_reference` and `get_reference_to_file`, and `putPassthrough` for every
passthrough sink (`put_passthrough`, `_file`, `_parts`, `_chunked`, a completed
multipart upload): they differ in where the bytes come from, not in what is
stored. -/
inductive StorageCall where
  | hasReference (ds : String)
  | getReference (ds : String)
  | getReferenceMetadata (ds : String)
  | putReference (ds : String) (data : List UInt8) (md : FileMetadata)
  | putReferenceFromFile (ds : String) (data : List UInt8) (md : FileMetadata)
  | deleteReference (ds : String)
  | getDelta (ds f : String)
  | getDeltaMetadata (ds f : String)
  | putDelta (ds f : String) (delta : List UInt8) (md : FileMetadata) (base : List UInt8)
  | deleteDelta (ds f : String)
  | getPassthrough (ds f : String)
  | getPassthroughMetadata (ds f : String)
  | putPassthrough (ds f : String) (data : List UInt8) (md : FileMetadata)
  | deletePassthrough (ds f : String)
  | scanDeltaspace (ds : String)

namespace StorageCall

/-- What a storage call returns when it succeeds. -/
abbrev Ok : StorageCall → Type
  | .hasReference _ => Bool
  | .getReference _ => List UInt8
  | .getReferenceMetadata _ => FileMetadata
  | .putReference .. => Unit
  | .putReferenceFromFile .. => Unit
  | .deleteReference _ => Unit
  | .getDelta .. => List UInt8
  | .getDeltaMetadata .. => FileMetadata
  | .putDelta .. => Unit
  | .deleteDelta .. => Unit
  | .getPassthrough .. => List UInt8
  | .getPassthroughMetadata .. => FileMetadata
  | .putPassthrough .. => Unit
  | .deletePassthrough .. => Unit
  | .scanDeltaspace _ => List FileMetadata

/-- The deltaspace `ds` of `objs` changed by `g`. -/
def modify (objs : Objects) (ds : String) (g : Deltaspace → Deltaspace) : Objects :=
  Function.update objs ds (g (objs ds))

/-- What a storage call answers, and the objects after it, when the backend
does not fail.  Reads and deletes of an absent object answer `NotFound`. -/
def perform : (c : StorageCall) → Objects → Except StorageError c.Ok × Objects
  | .hasReference ds, objs => (.ok (objs ds).reference.isSome, objs)
  | .getReference ds, objs =>
    match (objs ds).reference with
    | some o => (.ok o.data, objs)
    | none => (.error (.notFound (notFoundMsg "reference" ds "reference.bin")), objs)
  | .getReferenceMetadata ds, objs =>
    match (objs ds).reference with
    | some o => (.ok o.metadata, objs)
    | none => (.error (.notFound (notFoundMsg "reference" ds "reference.bin")), objs)
  | .putReference ds data md, objs =>
    (.ok (), modify objs ds fun d => { d with reference := some ⟨data, md⟩ })
  | .putReferenceFromFile ds data md, objs =>
    (.ok (), modify objs ds fun d => { d with reference := some ⟨data, md⟩ })
  | .deleteReference ds, objs =>
    match (objs ds).reference with
    | some _ => (.ok (), modify objs ds fun d => { d with reference := none })
    | none => (.error (.notFound (notFoundMsg "reference" ds "reference.bin")), objs)
  | .getDelta ds f, objs =>
    match (objs ds).deltas.lookup f with
    | some o => (.ok o.delta, objs)
    | none => (.error (.notFound (notFoundMsg "delta" ds f)), objs)
  | .getDeltaMetadata ds f, objs =>
    match (objs ds).deltas.lookup f with
    | some o => (.ok o.metadata, objs)
    | none => (.error (.notFound (notFoundMsg "delta" ds f)), objs)
  | .putDelta ds f delta md base, objs =>
    (.ok (), modify objs ds fun d => { d with deltas := d.deltas.insert f ⟨delta, md, base⟩ })
  | .deleteDelta ds f, objs =>
    match (objs ds).deltas.lookup f with
    | some _ => (.ok (), modify objs ds fun d => { d with deltas := d.deltas.erase f })
    | none => (.error (.notFound (notFoundMsg "delta" ds f)), objs)
  | .getPassthrough ds f, objs =>
    match (objs ds).passthroughs.lookup f with
    | some o => (.ok o.data, objs)
    | none => (.error (.notFound (notFoundMsg "passthrough" ds f)), objs)
  | .getPassthroughMetadata ds f, objs =>
    match (objs ds).passthroughs.lookup f with
    | some o => (.ok o.metadata, objs)
    | none => (.error (.notFound (notFoundMsg "passthrough" ds f)), objs)
  | .putPassthrough ds f data md, objs =>
    (.ok (), modify objs ds fun d => { d with passthroughs := d.passthroughs.insert f ⟨data, md⟩ })
  | .deletePassthrough ds f, objs =>
    match (objs ds).passthroughs.lookup f with
    | some _ => (.ok (), modify objs ds fun d => { d with passthroughs := d.passthroughs.erase f })
    | none => (.error (.notFound (notFoundMsg "passthrough" ds f)), objs)
  | .scanDeltaspace ds, objs => (.ok (objs ds).scan, objs)

@[simp] theorem modify_self (objs : Objects) (ds : String) (g : Deltaspace → Deltaspace) :
    modify objs ds g ds = g (objs ds) := Function.update_self ds _ objs

@[simp] theorem modify_of_ne (objs : Objects) {ds ds' : String} (g : Deltaspace → Deltaspace)
    (h : ds' ≠ ds) : modify objs ds g ds' = objs ds' := Function.update_of_ne h _ objs

/-- A change of one deltaspace that keeps a view `F` of every deltaspace
keeps that view of the whole bucket. -/
theorem modify_view {β : Type} (F : Deltaspace → β) (g : Deltaspace → Deltaspace)
    (hg : ∀ d, F (g d) = F d) (objs : Objects) (ds ds' : String) :
    F (modify objs ds g ds') = F (objs ds') := by
  by_cases h : ds' = ds
  · subst h
    rw [modify_self, hg]
  · rw [modify_of_ne _ _ h]

/-- The calls that answer without changing the objects. -/
def IsRead : StorageCall → Prop
  | .putReference .. | .putReferenceFromFile .. | .deleteReference _ | .putDelta ..
  | .deleteDelta .. | .putPassthrough .. | .deletePassthrough .. => False
  | _ => True

theorem perform_snd_of_isRead {c : StorageCall} (hc : c.IsRead) (objs : Objects) :
    (c.perform objs).2 = objs := by
  cases c <;> simp only [IsRead] at hc <;> simp only [perform] <;> split <;> rfl

/-- The deltaspace a call names. -/
def deltaspace : StorageCall → String
  | .hasReference ds | .getReference ds | .getReferenceMetadata ds | .putReference ds .. => ds
  | .putReferenceFromFile ds .. | .deleteReference ds | .getDelta ds _ | .getDeltaMetadata ds _ | .putDelta ds .. => ds
  | .deleteDelta ds _ | .getPassthrough ds _ | .getPassthroughMetadata ds _ => ds
  | .putPassthrough ds .. | .deletePassthrough ds _ | .scanDeltaspace ds => ds

/-- A call leaves every other deltaspace as it was. -/
theorem perform_frame (c : StorageCall) (objs : Objects) {ds : String} (h : ds ≠ c.deltaspace) :
    (c.perform objs).2 ds = objs ds := by
  cases c <;> simp only [deltaspace] at h <;> simp only [perform] <;> (try split) <;>
    simp [modify_of_ne _ _ h]

/-- What a call that answers an error may have done besides nothing: its
whole effect, when the request reached the store and its response was lost;
and for `put_reference_from_file` on the filesystem backend
(`hardlink_or_copy`, then `write_metadata`), a `reference.bin` removed, or
holding a prefix of the bytes (a copy cut short, or the whole file with its
xattr write failed) and no metadata, which `get_reference_metadata` then
reads as `FileMetadata::fallback`. -/
inductive Lost : StorageCall → Objects → Objects → Prop
  | applied (c : StorageCall) (objs : Objects) : Lost c objs (c.perform objs).2
  | unlinked (ds : String) (data : List UInt8) (md : FileMetadata) (objs : Objects) :
      Lost (.putReferenceFromFile ds data md) objs
        (modify objs ds fun d => { d with reference := none })
  | unstamped (ds : String) (data : List UInt8) (md : FileMetadata) (objs : Objects)
      (pre : List UInt8) (hpre : pre <+: data) (etag : String) (modified : Int) :
      Lost (.putReferenceFromFile ds data md) objs
        (modify objs ds fun d => { d with reference := some ⟨pre,
          FileMetadata.fallback "reference.bin" pre.length etag modified none .passthrough⟩ })

/-- A read that fails leaves the objects as they were. -/
theorem Lost.eq_of_isRead {c : StorageCall} (hc : c.IsRead) {objs objs' : Objects}
    (h : c.Lost objs objs') : objs' = objs := by
  cases h with
  | applied => exact perform_snd_of_isRead hc objs
  | unlinked | unstamped => exact hc.elim

end StorageCall

/-- What a storage call that answers an error may have done to the bucket. -/
inductive FaultModel where
  /-- Nothing: a failed call was refused before it took effect. -/
  | atomic
  /-- Nothing, or what `StorageCall.Lost` allows. -/
  | lossy
  deriving DecidableEq, Repr

/-! ## Codec calls -/

/-- Calls into the codec: `encode` (buffered PUT), `encodeCapped` (the
streaming PUT's `encode_from_reader` into a writer capped at `cap` bytes),
`decode`, and `spool`, the temp-file work (spool reservation, spool reads)
that can fail without touching the bucket. -/
inductive CodecCall where
  | encode (source target : List UInt8)
  | encodeCapped (source target : List UInt8) (cap : Nat)
  | decode (source delta : List UInt8)
  | spool

namespace CodecCall

abbrev Ok : CodecCall → Type
  | .encode .. => List UInt8
  | .encodeCapped .. => Option (List UInt8)
  | .decode .. => List UInt8
  | .spool => Unit

/-- What a codec call answers when it does not fail.  A capped encode whose
delta outgrows the cap reports `None` ("the ratio loses"). -/
def perform (codec : DeltaCodec) : (c : CodecCall) → Except EngineError c.Ok
  | .encode source target => .ok (codec.encode source target)
  | .encodeCapped source target cap =>
    let delta := codec.encode source target
    .ok (if cap < delta.length then none else some delta)
  | .decode source delta =>
    match codec.decode source delta with
    | some target => .ok target
    | none => .error (.codec "delta decode failed")
  | .spool => .ok ()

end CodecCall

/-! ## The engine's in-process state and the coordination bucket -/

/-- Everything the commands act on: the bucket's objects, and per instance
its reference cache and the prefix mutexes it holds; the cross-instance
reference locks (the coordination bucket's lock objects, by deltaspace,
naming their holder); and the clock that stamps `created_at`. -/
structure EngineState where
  objects : Objects
  referenceCache : Nat → String → Option (List UInt8)
  prefixLocks : Nat → String → Bool
  referenceLocks : String → Option Nat
  clock : Int

/-- An empty bucket, empty caches, no lock held. -/
def EngineState.init : EngineState :=
  ⟨fun _ => .empty, fun _ _ => none, fun _ _ => false, fun _ => none, 0⟩

/-- In-process and coordination calls. -/
inductive LocalCall where
  | cacheGet (ds : String)
  | cachePut (ds : String) (data : List UInt8)
  | cacheInvalidate (ds : String)
  | now
  | lockPrefix (ds : String)
  | unlockPrefix (ds : String)
  | lockReference (ds : String)
  | unlockReference (ds : String)

namespace LocalCall

/-- `lockReference` answers `Ok(true)` (acquired), `Ok(false)` (timed out)
or `Err(msg)`, as `acquire_blocking` does. -/
abbrev Ok : LocalCall → Type
  | .cacheGet _ => Option (List UInt8)
  | .cachePut .. => Unit
  | .cacheInvalidate _ => Unit
  | .now => Int
  | .lockPrefix _ => Unit
  | .unlockPrefix _ => Unit
  | .lockReference _ => Except String Bool
  | .unlockReference _ => Unit

end LocalCall

/-- Cache of instance `inst`, entry `ds` set to `v`. -/
def EngineState.setCache (s : EngineState) (inst : Nat) (ds : String)
    (v : Option (List UInt8)) : EngineState :=
  let cache := Function.update (s.referenceCache inst) ds v
  { s with referenceCache := Function.update s.referenceCache inst cache }

/-- Prefix mutex `ds` of instance `inst` set to `held`. -/
def EngineState.setPrefixLock (s : EngineState) (inst : Nat) (ds : String) (held : Bool) :
    EngineState :=
  let locks := Function.update (s.prefixLocks inst) ds held
  { s with prefixLocks := Function.update s.prefixLocks inst locks }

/-- What instance `inst`'s in-process calls do. -/
inductive LocalStep (inst : Nat) : (c : LocalCall) → EngineState → c.Ok → EngineState → Prop
  | cacheHit (ds : String) (s : EngineState) :
      LocalStep inst (.cacheGet ds) s (s.referenceCache inst ds) s
  /-- The entry may have been evicted. -/
  | cacheMiss (ds : String) (s : EngineState) : LocalStep inst (.cacheGet ds) s none s
  | cachePut (ds : String) (data : List UInt8) (s : EngineState) :
      LocalStep inst (.cachePut ds data) s () (s.setCache inst ds (some data))
  | cacheInvalidate (ds : String) (s : EngineState) :
      LocalStep inst (.cacheInvalidate ds) s () (s.setCache inst ds none)
  | now (s : EngineState) :
      LocalStep inst .now s (s.clock + 1) { s with clock := s.clock + 1 }
  /-- The mutex is taken when this instance does not hold it. -/
  | lockPrefix (ds : String) (s : EngineState) (h : s.prefixLocks inst ds = false) :
      LocalStep inst (.lockPrefix ds) s () (s.setPrefixLock inst ds true)
  | unlockPrefix (ds : String) (s : EngineState) :
      LocalStep inst (.unlockPrefix ds) s () (s.setPrefixLock inst ds false)
  | lockReference (ds : String) (s : EngineState) (h : s.referenceLocks ds = none) :
      LocalStep inst (.lockReference ds) s (.ok true)
        { s with referenceLocks := Function.update s.referenceLocks ds (some inst) }
  | lockReferenceTimeout (ds : String) (s : EngineState) :
      LocalStep inst (.lockReference ds) s (.ok false) s
  | lockReferenceError (ds : String) (msg : String) (s : EngineState) :
      LocalStep inst (.lockReference ds) s (.error msg) s
  | unlockReference (ds : String) (s : EngineState) :
      LocalStep inst (.unlockReference ds) s ()
        { s with referenceLocks := Function.update s.referenceLocks ds none }

/-! ## Commands -/

inductive Cmd where
  | storage (c : StorageCall)
  | codec (c : CodecCall)
  | inProcess (c : LocalCall)

abbrev Answer : Cmd → Type
  | .storage c => Except StorageError c.Ok
  | .codec c => Except EngineError c.Ok
  | .inProcess c => c.Ok

/-- What a command issued by instance `inst` may do, when failed storage calls
behave as `faults` says. -/
inductive Step (codec : DeltaCodec) (inst : Nat) (faults : FaultModel) :
    Prog.Sem Cmd Answer EngineState
  | storage (c : StorageCall) (s : EngineState) :
      Step codec inst faults (.storage c) s (c.perform s.objects).1
        { s with objects := (c.perform s.objects).2 }
  | storageFault (c : StorageCall) (e : StorageError) (s : EngineState) :
      Step codec inst faults (.storage c) s (.error e) s
  | storageLost (c : StorageCall) (e : StorageError) (s : EngineState) {objs : Objects}
      (hf : faults = .lossy) (h : c.Lost s.objects objs) :
      Step codec inst faults (.storage c) s (.error e) { s with objects := objs }
  | codec (c : CodecCall) (s : EngineState) :
      Step codec inst faults (.codec c) s (c.perform codec) s
  | codecFault (c : CodecCall) (e : EngineError) (s : EngineState) :
      Step codec inst faults (.codec c) s (.error e) s
  | inProcess {c : LocalCall} {s s' : EngineState} {r : c.Ok} :
      LocalStep inst c s r s' → Step codec inst faults (.inProcess c) s r s'

/-- The engine's programs. -/
abbrev EngineProg := Prog Cmd Answer

/-- The engine's programs with `EngineError` as the `?` error. -/
abbrev EngineM := ExceptT EngineError EngineProg

section Rules

variable {codec : DeltaCodec} {inst : Nat} {faults : FaultModel} {α : Type}

theorem wp_storage (c : StorageCall) (k : Except StorageError c.Ok → EngineProg α)
    (Q : α → EngineState → Prop) (s : EngineState) :
    Prog.wp (Step codec inst faults) (.call (.storage c) k) Q s ↔
      Prog.wp (Step codec inst faults) (k (c.perform s.objects).1) Q
          { s with objects := (c.perform s.objects).2 } ∧
        (∀ e, Prog.wp (Step codec inst faults) (k (.error e)) Q s) ∧
        (faults = .lossy → ∀ e objs, c.Lost s.objects objs →
          Prog.wp (Step codec inst faults) (k (.error e)) Q { s with objects := objs }) := by
  rw [Prog.wp_call]
  constructor
  · intro h
    exact ⟨h _ _ (.storage c s), fun e => h _ _ (.storageFault c e s),
      fun hf e _ hl => h _ _ (.storageLost c e s hf hl)⟩
  · rintro ⟨hok, herr, hlost⟩ r s' hs
    cases hs with
    | storage => exact hok
    | storageFault _ e => exact herr e
    | storageLost _ e _ hf hl => exact hlost hf e _ hl

theorem wp_codec (c : CodecCall) (k : Except EngineError c.Ok → EngineProg α)
    (Q : α → EngineState → Prop) (s : EngineState) :
    Prog.wp (Step codec inst faults) (.call (.codec c) k) Q s ↔
      Prog.wp (Step codec inst faults) (k (c.perform codec)) Q s ∧
        ∀ e, Prog.wp (Step codec inst faults) (k (.error e)) Q s := by
  rw [Prog.wp_call]
  constructor
  · intro h
    exact ⟨h _ _ (.codec c s), fun e => h _ _ (.codecFault c e s)⟩
  · rintro ⟨hok, herr⟩ r s' hs
    cases hs with
    | codec => exact hok
    | codecFault _ e => exact herr e

theorem wp_local (c : LocalCall) (k : c.Ok → EngineProg α) (Q : α → EngineState → Prop)
    (s : EngineState) :
    Prog.wp (Step codec inst faults) (.call (.inProcess c) k) Q s ↔
      ∀ r s', LocalStep inst c s r s' → Prog.wp (Step codec inst faults) (k r) Q s' := by
  rw [Prog.wp_call]
  constructor
  · exact fun h r s' hs => h r s' (.inProcess hs)
  · intro h r s' hs
    cases hs with
    | inProcess hl => exact h r s' hl

end Rules

end Engine

end DeltaGlider
