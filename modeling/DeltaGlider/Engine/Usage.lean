import DeltaGlider.Engine.Requests
import DeltaGlider.Lib.Digest

/-!
# The per-bucket usage counter

`src/bucket_usage.rs` keeps, per bucket, a running `(object_count,
logical_bytes, stored_bytes)` that the engine's write paths update inline
and that a Refresh overwrites with the totals of a full scan
(`SavingsTotals::accumulate` over every object's metadata, `reference.bin`
included).  Every update is one signed net delta (`apply_net`): minus the
object an operation removed, plus the one it added, plus the bytes of a
reference it seeded or reclaimed.  The module's contract is "inline == scan".

The engine's requests are served here one after the other, by one instance,
with every call succeeding (`successAnswer`: no backend fault, no codec
fault, no lock timeout), so each request is a run of the engine model of
`Engine/Requests.lean` (`runs_serve`); after each, the counter takes the
record the source makes of its result (`serve`).

    a net delta that names what an operation removed and added, and how the
    reference changed, takes the counter of the scan before to the scan after
                                                     (applyNet_overwriteFromScan)
    a streaming PUT that overwrites an object through the passthrough file sink
    counts it a second time, whatever the codec      (streamed_overwrite_counted_twice)

The counter's columns are `i64` and the scan's `u64` with saturating adds; the
sizes here stay far below `2^63`, where both are exact, so they are `Int` and
`Nat`.
-/

namespace DeltaGlider.Engine

/-! ## Algorithm -/

/-- The three signed columns of a `bucket_usage` row (a read clamps them at
`0`; the table keeps the signed sums). -/
@[ext] structure UsageCounters where
  objectCount : Int
  logicalBytes : Int
  storedBytes : Int
  deriving DecidableEq, Repr

namespace UsageCounters

/-- A fresh row. -/
def zero : UsageCounters := ⟨0, 0, 0⟩

/-- `apply_delta`: `col = col + excluded.col` for each column. -/
def applyDelta (row d : UsageCounters) : UsageCounters :=
  ⟨row.objectCount + d.objectCount, row.logicalBytes + d.logicalBytes, row.storedBytes + d.storedBytes⟩

end UsageCounters

/-- `usage_delta_for`: one object's signed contribution, `sign` being `1` on
create and `-1` on delete.  A reference holds stored bytes only. -/
def usageDeltaFor (m : FileMetadata) (sign : Int) : UsageCounters :=
  match m.storageInfo with
  | .reference _ => ⟨0, 0, sign * m.fileSize⟩
  | .delta _ _ deltaSize _ => ⟨sign, sign * m.fileSize, sign * deltaSize⟩
  | .passthrough => ⟨sign, sign * m.fileSize, sign * m.fileSize⟩

/-- `is_transient_bucket`: migration staging buckets are never counted. -/
def isTransientBucket (bucket : String) : Bool := "__dgmigrate_".isPrefixOf bucket

/-- The net delta `apply_net` folds: the reference bytes, minus `removed`,
plus `added`. -/
def netDelta (removed added : Option FileMetadata) (refBytesDelta : Int) : UsageCounters :=
  let afterRemoved := match removed with
    | some m => (⟨0, 0, refBytesDelta⟩ : UsageCounters).applyDelta (usageDeltaFor m (-1))
    | none => ⟨0, 0, refBytesDelta⟩
  match added with
  | some m => afterRemoved.applyDelta (usageDeltaFor m 1)
  | none => afterRemoved

/-- `BucketUsage::apply_net`: skip a transient bucket and a zero delta, else
apply the net delta (the usage DB is taken to answer). -/
def applyNet (bucket : String) (removed added : Option FileMetadata) (refBytesDelta : Int)
    (row : UsageCounters) : UsageCounters :=
  if isTransientBucket bucket then row
  else
    let d := netDelta removed added refBytesDelta
    if d = .zero then row else row.applyDelta d

/-- `SavingsTotals`. -/
structure SavingsTotals where
  deltaCount : Nat
  passthroughCount : Nat
  referenceCount : Nat
  originalBytes : Nat
  storedBytes : Nat
  referenceBytes : Nat
  deltaStoredBytes : Nat
  passthroughBytes : Nat
  deriving DecidableEq, Repr

namespace SavingsTotals

/-- `SavingsTotals::default`. -/
def zero : SavingsTotals := ⟨0, 0, 0, 0, 0, 0, 0, 0⟩

/-- `SavingsTotals::accumulate`: a reference is stored bytes only, never
user-visible. -/
def accumulate (t : SavingsTotals) (m : FileMetadata) : SavingsTotals :=
  match m.storageInfo with
  | .reference _ =>
    { t with referenceCount := t.referenceCount + 1,
             referenceBytes := t.referenceBytes + m.fileSize,
             storedBytes := t.storedBytes + m.fileSize }
  | .delta _ _ deltaSize _ =>
    { t with deltaCount := t.deltaCount + 1,
             originalBytes := t.originalBytes + m.fileSize,
             deltaStoredBytes := t.deltaStoredBytes + deltaSize,
             storedBytes := t.storedBytes + deltaSize }
  | .passthrough =>
    { t with passthroughCount := t.passthroughCount + 1,
             passthroughBytes := t.passthroughBytes + m.fileSize,
             originalBytes := t.originalBytes + m.fileSize,
             storedBytes := t.storedBytes + m.fileSize }

end SavingsTotals

/-- The totals of a scan: `accumulate` over every listed object. -/
def scanTotals (metas : List FileMetadata) : SavingsTotals :=
  metas.foldl SavingsTotals.accumulate .zero

/-- The row `overwrite_from_scan` writes: user-visible objects only in the
count, `original_bytes`, and `stored_bytes` with the references. -/
def overwriteFromScan (t : SavingsTotals) : UsageCounters :=
  ⟨t.deltaCount + t.passthroughCount, t.originalBytes, t.storedBytes⟩

/-- A Refresh over the deltaspaces `dss` of the bucket. -/
def bucketScan (objs : Objects) (dss : List String) : SavingsTotals :=
  scanTotals (dss.flatMap fun ds => (objs ds).scan)

/-- `StoreResult`'s accounting: the prior object it replaced, and the bytes of
a reference it seeded (`with_accounting`; `StoreResult::new` has neither). -/
structure Accounting where
  replaced : Option FileMetadata
  referenceCreatedBytes : Nat

/-- `record_store`. -/
def recordStore (bucket : String) (metadata : FileMetadata) (acc : Accounting) :
    UsageCounters → UsageCounters :=
  applyNet bucket acc.replaced (some metadata) acc.referenceCreatedBytes

/-- `record_delete`. -/
def recordDelete (bucket : String) (metadata : FileMetadata) (reclaimedRefBytes : Nat) :
    UsageCounters → UsageCounters :=
  applyNet bucket (some metadata) none (-(reclaimedRefBytes : Int))

/-- The record of `reclaim_empty_deltaspace`. -/
def recordReclaim (bucket : String) (reclaimedRefBytes : Nat) : UsageCounters → UsageCounters :=
  applyNet bucket none none (-(reclaimedRefBytes : Int))

/-- `prior_for_counter`: the key's resolved metadata before the write, `None`
on an invalid key; with every read succeeding, `resolve_object_metadata`
over the objects as they are. -/
def priorForCounter (objs : Objects) (key : String) : Option FileMetadata :=
  match validatedKey key with
  | .error _ => none
  | .ok (objKey, ds) =>
    let filename := lastSegment objKey.fullKey
    newerVariant (((objs ds).deltas.lookup filename).map (·.metadata))
      (((objs ds).passthroughs.lookup filename).map (·.metadata))

/-- The accounting `store_inner` attaches: the prior object, and, on the
delta path, `ref_meta.file_size` of the baseline `set_reference_baseline`
wrote (the body's length) when `has_existing_reference` was false.  One
instance serving one request at a time reads `has_reference` under its locks
as the objects are before the request. -/
def storeInnerAccounting (cfg : EngineConfig) (objs : Objects) (key : String)
    (data : List UInt8) : Accounting :=
  match validatedKeyIngest key with
  | .error _ => ⟨none, 0⟩
  | .ok (objKey, ds) =>
    { replaced := priorForCounter objs key,
      referenceCreatedBytes :=
        if !cfg.compressionEnabled || !cfg.isDeltaEligible objKey.filename then 0
        else if (objs ds).reference.isSome then 0 else data.length }

/-- `reclaimed_ref_bytes` of `delete_inner` and `reclaim_empty_deltaspace`:
the `file_size` of the reference the scan listed, when the reference was
deleted, else `0`. -/
def reclaimedRefBytes (before after : Objects) (ds : String) : Nat :=
  match (before ds).reference, (after ds).reference with
  | some r, none => r.metadata.fileSize
  | _, _ => 0

/-- The bucket and its counter. -/
structure UsageState where
  engine : EngineState
  counter : UsageCounters

/-! ### Every call succeeding -/

/-- The answer of a call that does not fail: the backend does what
`StorageCall.perform` says, the codec what `CodecCall.perform` says, the
cache hits, the locks are taken. -/
def successAnswer (codec : DeltaCodec) (inst : Nat) : (c : Cmd) → EngineState → Answer c × EngineState
  | .storage c, s => ((c.perform s.objects).1, { s with objects := (c.perform s.objects).2 })
  | .codec c, s => (c.perform codec, s)
  | .inProcess (.cacheGet ds), s => (s.referenceCache inst ds, s)
  | .inProcess (.cachePut ds data), s => ((), s.setCache inst ds (some data))
  | .inProcess (.cacheInvalidate ds), s => ((), s.setCache inst ds none)
  | .inProcess .now, s => (s.clock + 1, { s with clock := s.clock + 1 })
  | .inProcess (.lockPrefix ds), s => ((), s.setPrefixLock inst ds true)
  | .inProcess (.unlockPrefix ds), s => ((), s.setPrefixLock inst ds false)
  | .inProcess (.lockReference ds), s =>
    (.ok true, { s with referenceLocks := Function.update s.referenceLocks ds (some inst) })
  | .inProcess (.unlockReference ds), s =>
    ((), { s with referenceLocks := Function.update s.referenceLocks ds none })

/-- Where the success answer is one the engine's semantics allows: a lock is
taken only when it is free. -/
def Unblocked (inst : Nat) : Cmd → EngineState → Prop
  | .inProcess (.lockPrefix ds), s => s.prefixLocks inst ds = false
  | .inProcess (.lockReference ds), s => s.referenceLocks ds = none
  | _, _ => True

instance (inst : Nat) : (c : Cmd) → (s : EngineState) → Decidable (Unblocked inst c s)
  | .inProcess (.lockPrefix ds), s => inferInstanceAs (Decidable (s.prefixLocks inst ds = false))
  | .inProcess (.lockReference ds), s => inferInstanceAs (Decidable (s.referenceLocks ds = none))
  | .storage _, _ | .codec _, _ | .inProcess (.cacheGet _), _ | .inProcess (.cachePut _ _), _
  | .inProcess (.cacheInvalidate _), _ | .inProcess .now, _ | .inProcess (.unlockPrefix _), _
  | .inProcess (.unlockReference _), _ => isTrue trivial

/-- Serve `p` with every call succeeding, then apply to the counter the record
the source makes of its result, from the objects before and after. -/
def serveWith {α : Type} (codec : DeltaCodec) (st : UsageState) (p : EngineM α)
    (record : α → Objects → UsageCounters → UsageCounters) : UsageState :=
  let run := Prog.exec (successAnswer codec 0) p.run st.engine
  { engine := run.2,
    counter := match run.1 with
      | .ok a => record a run.2.objects st.counter
      | .error _ => st.counter }

/-- One request and the record its public entry point makes (`store.rs`,
`mod.rs`): the buffered stores with `store_inner`'s accounting; the
passthrough sinks with `StoreResult::new`, no prior; the passthrough
multipart finish with its prior; a delete with the reclaimed reference.
`store_spooled_delta` records nothing itself: on its passthrough branches
the file sink it calls records its own result (the only passthrough result
it returns), and its delta branch records nothing.  Reads record nothing. -/
def serve (codec : DeltaCodec) (cfg : EngineConfig) (st : UsageState) : Request → UsageState
  | .store key data ct um =>
    serveWith codec st (Engine.store cfg key data ct um) fun r _ =>
      recordStore cfg.bucket r.metadata (storeInnerAccounting cfg st.engine.objects key data)
  | .storeWithMultipartEtag key data ct um mpe =>
    serveWith codec st (Engine.storeWithMultipartEtag cfg key data ct um mpe) fun r _ =>
      recordStore cfg.bucket r.metadata (storeInnerAccounting cfg st.engine.objects key data)
  | .storeSpooledDelta key body size ct um mpe =>
    serveWith codec st (Engine.storeSpooledDelta cfg key body size ct um mpe) fun r _ =>
      if r.metadata.storageInfo = .passthrough then recordStore cfg.bucket r.metadata ⟨none, 0⟩
      else id
  | .storePassthroughChunked key chunks n ct um =>
    serveWith codec st (Engine.storePassthroughChunked cfg key chunks n ct um) fun r _ =>
      recordStore cfg.bucket r.metadata ⟨none, 0⟩
  | .storePassthroughChunkedWithMultipartEtag key chunks n ct um mpe =>
    serveWith codec st (Engine.storePassthroughChunkedWithMultipartEtag cfg key chunks n ct um mpe)
      fun r _ => recordStore cfg.bucket r.metadata ⟨none, 0⟩
  | .storePassthroughRelayedParts key parts n ct um mpe =>
    serveWith codec st (Engine.storePassthroughRelayedPartsWithMultipartEtag cfg key parts n ct um mpe)
      fun r _ => recordStore cfg.bucket r.metadata ⟨none, 0⟩
  | .storePassthroughFile key body n ct um mpe =>
    serveWith codec st (Engine.storePassthroughFileWithMultipartEtag cfg key body n ct um mpe)
      fun r _ => recordStore cfg.bucket r.metadata ⟨none, 0⟩
  | .passthroughMultipart key parts n ct um sha md5 mpe =>
    serveWith codec st (Engine.finishPassthroughMultipart cfg key parts n ct um sha md5 mpe) fun r _ =>
      recordStore cfg.bucket r.metadata ⟨priorForCounter st.engine.objects key, 0⟩
  | .delete key =>
    serveWith codec st (Engine.delete key) fun m after =>
      recordDelete cfg.bucket m (reclaimedRefBytes st.engine.objects after (ObjectKey.parse key).deltaspaceId)
  | .deleteInSweep key =>
    serveWith codec st (Engine.deleteInSweep key) fun m _ => recordDelete cfg.bucket m 0
  | .reclaimEmptyDeltaspace ds =>
    serveWith codec st (Engine.reclaimEmptyDeltaspace ds) fun _ after =>
      recordReclaim cfg.bucket (reclaimedRefBytes st.engine.objects after ds)
  | .retrieve key => serveWith codec st (Engine.retrieve cfg key) fun _ _ => id
  | .head key => serveWith codec st (Engine.head key) fun _ _ => id

/-! ## Lemmas -/

namespace UsageCounters

@[simp] theorem zero_objectCount : zero.objectCount = 0 := rfl
@[simp] theorem zero_logicalBytes : zero.logicalBytes = 0 := rfl
@[simp] theorem zero_storedBytes : zero.storedBytes = 0 := rfl

@[simp] theorem applyDelta_objectCount (row d : UsageCounters) :
    (row.applyDelta d).objectCount = row.objectCount + d.objectCount := rfl
@[simp] theorem applyDelta_logicalBytes (row d : UsageCounters) :
    (row.applyDelta d).logicalBytes = row.logicalBytes + d.logicalBytes := rfl
@[simp] theorem applyDelta_storedBytes (row d : UsageCounters) :
    (row.applyDelta d).storedBytes = row.storedBytes + d.storedBytes := rfl

end UsageCounters

/-! ### The scan as a sum of contributions -/

/-- What the objects `metas` contribute to the counter, each created once. -/
def contribution (metas : List FileMetadata) : UsageCounters :=
  metas.foldr (fun m acc => acc.applyDelta (usageDeltaFor m 1)) .zero

@[simp] theorem contribution_nil : contribution [] = .zero := rfl

@[simp] theorem contribution_cons (m : FileMetadata) (metas : List FileMetadata) :
    contribution (m :: metas) = (contribution metas).applyDelta (usageDeltaFor m 1) := rfl

theorem contribution_append (l₁ l₂ : List FileMetadata) :
    contribution (l₁ ++ l₂) = (contribution l₁).applyDelta (contribution l₂) := by
  induction l₁ with
  | nil => ext <;> simp
  | cons m l₁ ih =>
    rw [List.cons_append, contribution_cons, ih, contribution_cons]
    ext <;> simp <;> omega

/-- The counter does not depend on the order of the objects. -/
theorem contribution_perm {l₁ l₂ : List FileMetadata} (h : l₁.Perm l₂) :
    contribution l₁ = contribution l₂ := by
  induction h with
  | nil => rfl
  | cons m _ ih => rw [contribution_cons, ih, contribution_cons]
  | swap m₁ m₂ l => ext <;> simp <;> omega
  | trans _ _ ih₁ ih₂ => exact ih₁.trans ih₂

/-- `usage_delta_for` with `-1` undoes it with `1`. -/
theorem usageDeltaFor_neg (m : FileMetadata) :
    usageDeltaFor m (-1) = ⟨-(usageDeltaFor m 1).objectCount, -(usageDeltaFor m 1).logicalBytes,
      -(usageDeltaFor m 1).storedBytes⟩ := by
  unfold usageDeltaFor
  split <;> simp

/-- `usage_delta_for` mirrors `accumulate`: one object moves the scan's row by
its contribution. -/
theorem overwriteFromScan_accumulate (t : SavingsTotals) (m : FileMetadata) :
    overwriteFromScan (t.accumulate m) = (overwriteFromScan t).applyDelta (usageDeltaFor m 1) := by
  unfold SavingsTotals.accumulate usageDeltaFor
  split <;> ext <;> simp [overwriteFromScan] <;> omega

theorem overwriteFromScan_foldl (metas : List FileMetadata) (t : SavingsTotals) :
    overwriteFromScan (metas.foldl SavingsTotals.accumulate t) =
      (overwriteFromScan t).applyDelta (contribution metas) := by
  induction metas generalizing t with
  | nil => ext <;> simp
  | cons m metas ih =>
    rw [List.foldl_cons, ih, overwriteFromScan_accumulate, contribution_cons]
    ext <;> simp <;> omega

/-- The row a Refresh writes is the sum of the objects' contributions. -/
theorem overwriteFromScan_scanTotals (metas : List FileMetadata) :
    overwriteFromScan (scanTotals metas) = contribution metas := by
  rw [scanTotals, overwriteFromScan_foldl]
  ext <;> simp [overwriteFromScan, SavingsTotals.zero]

/-! ### The net delta -/

/-- Outside the transient buckets, `apply_net` adds its net delta (a zero
delta it skips adds nothing). -/
theorem applyNet_eq_applyDelta {bucket : String} (ht : isTransientBucket bucket = false)
    (removed added : Option FileMetadata) (refBytesDelta : Int) (row : UsageCounters) :
    applyNet bucket removed added refBytesDelta row =
      row.applyDelta (netDelta removed added refBytesDelta) := by
  unfold applyNet
  rw [if_neg (by simp [ht])]
  dsimp only
  split_ifs with hzero
  · rw [hzero]
    ext <;> simp
  · rfl

/-- The net delta is the reference bytes, minus what `removed` contributes,
plus what `added` contributes. -/
theorem netDelta_eq (removed added : Option FileMetadata) (refBytesDelta : Int) :
    netDelta removed added refBytesDelta =
      ⟨(contribution added.toList).objectCount - (contribution removed.toList).objectCount,
        (contribution added.toList).logicalBytes - (contribution removed.toList).logicalBytes,
        refBytesDelta + (contribution added.toList).storedBytes -
          (contribution removed.toList).storedBytes⟩ := by
  cases removed <;> cases added <;> ext <;> simp [netDelta, usageDeltaFor_neg] <;> omega

/-- A reference contributes its stored bytes only. -/
theorem contribution_reference {m : FileMetadata} (h : m.isReference = true) :
    contribution [m] = ⟨0, 0, m.fileSize⟩ := by
  unfold FileMetadata.isReference at h
  ext <;> simp only [contribution_cons, contribution_nil, usageDeltaFor] <;> split <;> simp_all

/-- **Inline equals scan, one operation.**  When the objects after an
operation, with what it removed and the reference it dropped, are those
before with what it added and the reference it seeded, the net delta that
names them takes the counter of the scan before to the scan after. -/
theorem applyNet_overwriteFromScan {bucket : String} (ht : isTransientBucket bucket = false)
    {before after : List FileMetadata} {removed added refOld refNew : Option FileMetadata}
    (hold : ∀ m ∈ refOld, m.isReference = true) (hnew : ∀ m ∈ refNew, m.isReference = true)
    (hperm : (after ++ removed.toList ++ refOld.toList).Perm (before ++ added.toList ++ refNew.toList)) :
    applyNet bucket removed added
        (((refNew.map (·.fileSize)).getD 0 : Nat) - ((refOld.map (·.fileSize)).getD 0 : Nat))
        (overwriteFromScan (scanTotals before)) =
      overwriteFromScan (scanTotals after) := by
  have hsum := contribution_perm hperm
  simp only [contribution_append] at hsum
  -- a seeded or dropped reference moves the stored bytes by its size only
  have hrefRow : ∀ r : Option FileMetadata, (∀ m ∈ r, m.isReference = true) →
      contribution r.toList = ⟨0, 0, ((r.map (·.fileSize)).getD 0 : Nat)⟩ := by
    rintro (_ | m) hr
    · rfl
    · exact contribution_reference (hr m rfl)
  rw [hrefRow refOld hold, hrefRow refNew hnew] at hsum
  rw [applyNet_eq_applyDelta ht, netDelta_eq, overwriteFromScan_scanTotals,
    overwriteFromScan_scanTotals]
  have h₁ := congrArg UsageCounters.objectCount hsum
  have h₂ := congrArg UsageCounters.logicalBytes hsum
  have h₃ := congrArg UsageCounters.storedBytes hsum
  simp only [UsageCounters.applyDelta_objectCount, UsageCounters.applyDelta_logicalBytes,
    UsageCounters.applyDelta_storedBytes] at h₁ h₂ h₃
  ext <;> simp <;> omega

/-! ### Serving requests -/

/-- The success answer is a step of the engine's semantics, under either
fault model, wherever its lock is free. -/
theorem step_successAnswer (codec : DeltaCodec) (inst : Nat) (faults : FaultModel) {c : Cmd}
    {s : EngineState} (h : Unblocked inst c s) :
    Step codec inst faults c s (successAnswer codec inst c s).1 (successAnswer codec inst c s).2 := by
  cases c with
  | storage c => exact .storage c s
  | codec c => exact .codec c s
  | inProcess c =>
    cases c with
    | cacheGet ds => exact .inProcess (.cacheHit ds s)
    | cachePut ds data => exact .inProcess (.cachePut ds data s)
    | cacheInvalidate ds => exact .inProcess (.cacheInvalidate ds s)
    | now => exact .inProcess (.now s)
    | lockPrefix ds => exact .inProcess (.lockPrefix ds s h)
    | unlockPrefix ds => exact .inProcess (.unlockPrefix ds s)
    | lockReference ds => exact .inProcess (.lockReference ds s h)
    | unlockReference ds => exact .inProcess (.unlockReference ds s)

/-- Where every lock it takes is free, serving a request is a run of its
program in the engine's semantics. -/
theorem runs_serve {α : Type} (codec : DeltaCodec) (faults : FaultModel) (st : UsageState)
    (p : EngineM α) (record : α → Objects → UsageCounters → UsageCounters)
    (h : Prog.ExecOk (Unblocked 0) (successAnswer codec 0) p.run st.engine) :
    Prog.Runs (Step codec 0 faults) p.run st.engine
      (Prog.exec (successAnswer codec 0) p.run st.engine).1 (serveWith codec st p record).engine :=
  Prog.runs_exec_of_execOk (fun c s hc => step_successAnswer codec 0 faults (c := c) (s := s) hc) h

/-! ### Requests that stay in one deltaspace -/

/-- A command that touches no deltaspace but `ds` and asks the codec for
nothing but spool work. -/
def Cmd.Within (ds : String) : Cmd → Prop
  | .storage c => c.deltaspace = ds
  | .codec .spool => True
  | .codec _ => False
  | .inProcess _ => True

instance (ds : String) : DecidablePred (Cmd.Within ds)
  | .storage c => inferInstanceAs (Decidable (c.deltaspace = ds))
  | .codec .spool => isTrue trivial
  | .codec (.encode ..) | .codec (.encodeCapped ..) | .codec (.decode ..) => isFalse id
  | .inProcess _ => isTrue trivial

/-- What a run checks: its locks are free and it stays in `ds`. -/
def Confined (ds : String) (c : Cmd) (s : EngineState) : Prop := Unblocked 0 c s ∧ c.Within ds

instance (ds : String) (c : Cmd) (s : EngineState) : Decidable (Confined ds c s) :=
  inferInstanceAs (Decidable (Unblocked 0 c s ∧ c.Within ds))

/-- Off the codec, the success answer does not depend on the codec. -/
theorem successAnswer_congr {codec codec' : DeltaCodec} {ds : String} {c : Cmd} (hc : c.Within ds)
    (s : EngineState) : successAnswer codec 0 c s = successAnswer codec' 0 c s := by
  cases c with
  | storage c => rfl
  | codec c =>
    cases c with
    | spool => rfl
    | encode | encodeCapped | decode => exact absurd hc id
  | inProcess c => cases c <;> rfl

/-- A command within `ds` leaves every other deltaspace as it was. -/
theorem successAnswer_objects_of_ne {codec : DeltaCodec} {ds ds' : String} {c : Cmd}
    (hc : c.Within ds) (hne : ds' ≠ ds) (s : EngineState) :
    (successAnswer codec 0 c s).2.objects ds' = s.objects ds' := by
  cases c with
  | storage c =>
    have hne' : ds' ≠ c.deltaspace := by
      rw [show c.deltaspace = ds from hc]
      exact hne
    exact StorageCall.perform_frame c s.objects hne'
  | codec c => rfl
  | inProcess c => cases c <;> rfl

section Confined

variable {α : Type} {codec codec' : DeltaCodec} {st : UsageState} {p : EngineM α}
  {record : α → Objects → UsageCounters → UsageCounters} {ds : String}

/-- A request confined to one deltaspace serves alike under every codec. -/
theorem serveWith_codec_free (h : Prog.ExecOk (Confined ds) (successAnswer codec' 0) p.run st.engine) :
    serveWith codec st p record = serveWith codec' st p record := by
  have hexec : Prog.exec (successAnswer codec' 0) p.run st.engine =
      Prog.exec (successAnswer codec 0) p.run st.engine :=
    Prog.exec_congr (fun c s (hc : Confined ds c s) => successAnswer_congr hc.2 s) h
  unfold serveWith
  rw [hexec]

/-- Under every codec its locks are free. -/
theorem execOk_unblocked {s : EngineState} (h : Prog.ExecOk (Confined ds) (successAnswer codec' 0) p.run s) :
    Prog.ExecOk (Unblocked 0) (successAnswer codec 0) p.run s :=
  Prog.execOk_congr (fun c s (hc : Confined ds c s) => successAnswer_congr hc.2 s) (fun _ _ hc => hc.1) h

/-- It leaves every other deltaspace as it was. -/
theorem serveWith_objects_of_ne (h : Prog.ExecOk (Confined ds) (successAnswer codec 0) p.run st.engine)
    {ds' : String} (hne : ds' ≠ ds) : (serveWith codec st p record).engine.objects ds' = st.engine.objects ds' :=
  Prog.exec_invariant (P := fun s => s.objects ds' = st.engine.objects ds')
    (fun c s (hc : Confined ds c s) hs => (successAnswer_objects_of_ne hc.2 hne s).trans hs) h rfl

variable {cfg : EngineConfig} {key : String} {body : List UInt8} {size : Nat} {ct : Option String}
  {um : UserMeta} {mpe : Option String}

/-- A streaming PUT confined to one deltaspace serves alike under every codec. -/
theorem serve_storeSpooledDelta_codec_free
    (h : Prog.ExecOk (Confined ds) (successAnswer codec' 0) (storeSpooledDelta cfg key body size ct um mpe).run
      st.engine) :
    serve codec cfg st (.storeSpooledDelta key body size ct um mpe) =
      serve codec' cfg st (.storeSpooledDelta key body size ct um mpe) := by
  simp only [serve]
  exact serveWith_codec_free h

/-- It leaves every other deltaspace as it was. -/
theorem serve_storeSpooledDelta_objects_of_ne
    (h : Prog.ExecOk (Confined ds) (successAnswer codec 0) (storeSpooledDelta cfg key body size ct um mpe).run
      st.engine) {ds' : String} (hne : ds' ≠ ds) :
    (serve codec cfg st (.storeSpooledDelta key body size ct um mpe)).engine.objects ds' =
      st.engine.objects ds' := by
  simp only [serve]
  exact serveWith_objects_of_ne h hne

end Confined

/-- A Refresh over distinct deltaspaces, of which only `ds` holds objects,
counts the objects of `ds`. -/
theorem overwriteFromScan_bucketScan_of_only {objs : Objects} {ds : String} {dss : List String}
    (hnd : dss.Nodup) (hds : ds ∈ dss) (hempty : ∀ ds', ds' ≠ ds → (objs ds').scan = []) :
    overwriteFromScan (bucketScan objs dss) = overwriteFromScan (scanTotals (objs ds).scan) := by
  have hperm : (dss.flatMap fun d => (objs d).scan).Perm
      ((objs ds).scan ++ (dss.erase ds).flatMap fun d => (objs d).scan) := by
    simpa using (List.perm_cons_erase hds).flatMap_right fun d => (objs d).scan
  -- the other deltaspaces of the list hold nothing
  have hrest : ((dss.erase ds).flatMap fun d => (objs d).scan) = [] := by
    rw [List.flatMap_eq_nil_iff]
    intro d hd
    exact hempty d fun h => hnd.not_mem_erase (h ▸ hd)
  rw [bucketScan, overwriteFromScan_scanTotals, contribution_perm hperm, hrest, List.append_nil,
    overwriteFromScan_scanTotals]

/-- A bucket with compression off, the default `max_delta_ratio`, no
coordination bucket, and the hex digests of `sha2` and `md-5`. -/
def plainCfg : EngineConfig :=
  { bucket := "b", maxObjectSize := 100, maxPassthroughObjectSize := 100, compressionEnabled := false,
    maxDeltaRatio := 3 / 4, isDeltaEligible := FileRouter.isDeltaEligible, referenceLock := false,
    sha256 := fun data => RustStd.hexEncode (Digest.Sha256.digest data),
    md5 := fun data => RustStd.hexEncode (Digest.Md5.digest data) }

/-- Two streaming PUTs of one key into an empty bucket with compression off,
whatever the codec: each is a run of the engine, and the first leaves the
counter at what a Refresh counts, but the second overwrites the object
through the passthrough file sink, which records `StoreResult::new` with no
prior object, so the counter holds two objects of eight bytes where every
Refresh of the bucket counts one of four. -/
theorem streamed_overwrite_counted_twice (codec : DeltaCodec) :
    Prog.ExecOk (Unblocked 0) (successAnswer codec 0)
        (storeSpooledDelta plainCfg "d/a.bin" [1, 2, 3, 4] 4 none UserMeta.empty none).run .init ∧
      (serve codec plainCfg ⟨.init, .zero⟩
        (.storeSpooledDelta "d/a.bin" [1, 2, 3, 4] 4 none UserMeta.empty none)).counter = ⟨1, 4, 4⟩ ∧
      Prog.ExecOk (Unblocked 0) (successAnswer codec 0)
        (storeSpooledDelta plainCfg "d/a.bin" [5, 6, 7, 8] 4 none UserMeta.empty none).run
        (serve codec plainCfg ⟨.init, .zero⟩
          (.storeSpooledDelta "d/a.bin" [1, 2, 3, 4] 4 none UserMeta.empty none)).engine ∧
      (serve codec plainCfg (serve codec plainCfg ⟨.init, .zero⟩
          (.storeSpooledDelta "d/a.bin" [1, 2, 3, 4] 4 none UserMeta.empty none))
        (.storeSpooledDelta "d/a.bin" [5, 6, 7, 8] 4 none UserMeta.empty none)).counter = ⟨2, 8, 8⟩ ∧
      ∀ dss, dss.Nodup → "d" ∈ dss →
        overwriteFromScan (bucketScan (serve codec plainCfg (serve codec plainCfg ⟨.init, .zero⟩
            (.storeSpooledDelta "d/a.bin" [1, 2, 3, 4] 4 none UserMeta.empty none))
          (.storeSpooledDelta "d/a.bin" [5, 6, 7, 8] 4 none UserMeta.empty none)).engine.objects dss) =
          ⟨1, 4, 4⟩ := by
  -- both runs stay in deltaspace "d" and never call the codec
  have h₁ : Prog.ExecOk (Confined "d") (successAnswer .verbatim 0)
      (storeSpooledDelta plainCfg "d/a.bin" [1, 2, 3, 4] 4 none UserMeta.empty none).run .init := by
    decide +kernel
  have hserve₁ : serve codec plainCfg ⟨.init, .zero⟩
      (.storeSpooledDelta "d/a.bin" [1, 2, 3, 4] 4 none UserMeta.empty none) =
      serve .verbatim plainCfg ⟨.init, .zero⟩
        (.storeSpooledDelta "d/a.bin" [1, 2, 3, 4] 4 none UserMeta.empty none) :=
    serve_storeSpooledDelta_codec_free h₁
  have h₂ : Prog.ExecOk (Confined "d") (successAnswer .verbatim 0)
      (storeSpooledDelta plainCfg "d/a.bin" [5, 6, 7, 8] 4 none UserMeta.empty none).run
      (serve .verbatim plainCfg ⟨.init, .zero⟩
        (.storeSpooledDelta "d/a.bin" [1, 2, 3, 4] 4 none UserMeta.empty none)).engine := by
    decide +kernel
  rw [hserve₁, serve_storeSpooledDelta_codec_free h₂]
  refine ⟨execOk_unblocked h₁, by decide +kernel, execOk_unblocked h₂, by decide +kernel, ?_⟩
  intro dss hnd hds
  -- deltaspace "d" alone holds objects: the other ones are as in the empty bucket
  rw [overwriteFromScan_bucketScan_of_only hnd hds]
  · decide +kernel
  · intro ds' hne
    rw [serve_storeSpooledDelta_objects_of_ne h₂ hne, serve_storeSpooledDelta_objects_of_ne h₁ hne]
    rfl

end DeltaGlider.Engine
