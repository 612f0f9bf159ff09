import DeltaGlider.Engine.ReferenceInvariant
import DeltaGlider.Lib.Digest

/-!
# A lost response breaks the reference invariant

Under the lossy fault model a storage call may take effect and still answer
an error: the S3 backend's `put_object_with_metadata` retries a timed-out
PUT and then returns the error, whether or not the PUT was applied.  The
buffered store path reads every error of `encode_and_store` as "nothing was
written" and rolls back a reference it has just created.  When `put_delta`
is the call whose response is lost, the delta stays and its reference goes:

    validatedKeyIngest key = .ok (objKey, ds) → … →
    compressionRatio data.length (codec.encode data data).length < cfg.maxDeltaRatio →
      ∃ s, Reachable codec 0 .lossy s ∧ ¬ DeltasMatchReference s.objects ∧
        (s.objects ds).reference = none                        (lost_put_delta_orphans_delta)

one buffered PUT into an empty bucket, the delta path taken and the delta
kept.  Under the atomic fault model the invariant holds
(`reachable_deltasMatchReference`).

The run is built forward, one rule per primitive (`RunsE`), as the `wpE`
rules go backward.
-/

namespace DeltaGlider.Engine

/-! ## Runs of engine programs -/

section Runs

variable {codec : DeltaCodec} {inst : Nat} {faults : FaultModel} {α β : Type}

/-- `x`, started in `s`, can end with `r` in `s'`. -/
def RunsE (codec : DeltaCodec) (inst : Nat) (faults : FaultModel) (x : EngineM α) (s : EngineState)
    (r : Except EngineError α) (s' : EngineState) : Prop :=
  Prog.Runs (Step codec inst faults) x.run s r s'

theorem runsE_pure (a : α) (s : EngineState) : RunsE codec inst faults (pure a) s (.ok a) s :=
  .ret _ _

theorem runsE_throw (e : EngineError) (s : EngineState) :
    RunsE codec inst faults (throw e : EngineM α) s (.error e) s :=
  .ret _ _

theorem runsE_liftExcept (r : Except EngineError α) (s : EngineState) :
    RunsE codec inst faults (liftExcept r) s r s :=
  .ret _ _

theorem runsE_bind_ok {x : EngineM α} {f : α → EngineM β} {s s₁ s₂ : EngineState} {a : α}
    {r : Except EngineError β} (hx : RunsE codec inst faults x s (.ok a) s₁)
    (hf : RunsE codec inst faults (f a) s₁ r s₂) : RunsE codec inst faults (x >>= f) s r s₂ := by
  unfold RunsE at *
  rw [ExceptT.run_bind]
  exact Prog.runs_bind hx hf

theorem runsE_bind_error {x : EngineM α} {f : α → EngineM β} {s s₁ : EngineState} {e : EngineError}
    (hx : RunsE codec inst faults x s (.error e) s₁) :
    RunsE codec inst faults (x >>= f) s (.error e) s₁ := by
  unfold RunsE at *
  rw [ExceptT.run_bind]
  exact Prog.runs_bind hx (.ret _ _)

theorem runsE_storageCall (c : StorageCall) (s : EngineState) :
    RunsE codec inst faults (storageCall c) s (Except.mapError .storage (c.perform s.objects).1)
      { s with objects := (c.perform s.objects).2 } :=
  .call (.storage c s) (.ret _ _)

theorem runsE_storageCall_read {c : StorageCall} (hc : c.IsRead) (s : EngineState) :
    RunsE codec inst faults (storageCall c) s (Except.mapError .storage (c.perform s.objects).1) s := by
  have h : RunsE codec inst faults (storageCall c) s _ _ := runsE_storageCall c s
  rwa [StorageCall.perform_snd_of_isRead hc] at h

/-- A call whose response is lost: it did what `Lost` allows and answers `e`. -/
theorem runsE_storageCall_lost {c : StorageCall} {s : EngineState} {objs : Objects}
    (e : StorageError) (h : c.Lost s.objects objs) :
    RunsE codec inst .lossy (storageCall c) s (.error (.storage e)) { s with objects := objs } :=
  .call (.storageLost c e s rfl h) (.ret _ _)

theorem runsE_codecCall (c : CodecCall) (s : EngineState) :
    RunsE codec inst faults (codecCall c) s (c.perform codec) s :=
  .call (.codec c s) (.ret _ _)

theorem runsE_localCall {c : LocalCall} {s s' : EngineState} {r : c.Ok} (h : LocalStep inst c s r s') :
    RunsE codec inst faults (localCall c) s (.ok r) s' :=
  .call (.inProcess h) (.ret _ _)

theorem runsE_bestEffort {x : EngineM Unit} {s s' : EngineState} {r : Except EngineError Unit}
    (hx : RunsE codec inst faults x s r s') : RunsE codec inst faults (bestEffort x) s (.ok ()) s' := by
  unfold RunsE bestEffort at *
  rw [ExceptT.run_mk]
  exact Prog.runs_bind hx (.ret _ _)

theorem runsE_tryCatch_error {x : EngineM α} {h : EngineError → EngineM α} {s s₁ s₂ : EngineState}
    {e : EngineError} {r : Except EngineError α} (hx : RunsE codec inst faults x s (.error e) s₁)
    (hh : RunsE codec inst faults (h e) s₁ r s₂) : RunsE codec inst faults (tryCatch x h) s r s₂ := by
  unfold RunsE at *
  change Prog.Runs _ (x.run >>= _) s r s₂
  exact Prog.runs_bind hx hh

theorem runsE_discardE {x : EngineM α} {s s' : EngineState} {r : Except EngineError α}
    (hx : RunsE codec inst faults x s r s') :
    RunsE codec inst faults (discardE x) s (r.map fun _ => ()) s' := by
  cases r with
  | ok a => exact runsE_bind_ok hx (runsE_pure _ _)
  | error e => exact runsE_bind_error hx

/-- The prefix mutex is taken where it is free and released after the body. -/
theorem runsE_withPrefixLock {ds : String} {body : EngineM α} {s s₁ : EngineState}
    {r : Except EngineError α} (hfree : s.prefixLocks inst ds = false)
    (hb : RunsE codec inst faults body (s.setPrefixLock inst ds true) r s₁) :
    RunsE codec inst faults (withPrefixLock ds body) s r (s₁.setPrefixLock inst ds false) := by
  unfold RunsE withPrefixLock at *
  rw [ExceptT.run_mk]
  exact .call (.inProcess (.lockPrefix ds s hfree))
    (Prog.runs_bind hb (.call (.inProcess (.unlockPrefix ds s₁)) (.ret _ _)))

/-- Without a coordination bucket the reference lock is inert. -/
theorem runsE_withReferenceLock_inert {cfg : EngineConfig} {ds : String} {body : EngineM α}
    {s s₁ : EngineState} {r : Except EngineError α} (hlock : cfg.referenceLock = false)
    (hb : RunsE codec inst faults body s r s₁) :
    RunsE codec inst faults (withReferenceLock cfg ds body) s r s₁ := by
  have hacq : acquireReferenceLock cfg ds = pure false := by
    simp [acquireReferenceLock, hlock]
  unfold withReferenceLock
  rw [hacq]
  refine runsE_bind_ok (runsE_pure false s) ?_
  unfold RunsE at *
  rw [ExceptT.run_mk]
  exact Prog.runs_bind hb (.ret _ _)

end Runs

/-! ## The buffered PUT whose delta response is lost -/

section LostDelta

variable (codec : DeltaCodec) (inst : Nat)

/-- `set_reference_baseline` where every call succeeds: the object's bytes
become the reference, and the cache holds them. -/
theorem runsE_setReferenceBaseline (ctx : StoreContext) (s : EngineState) :
    ∃ md s', RunsE codec inst .lossy (setReferenceBaseline ctx) s (.ok md) s' ∧
      (s'.objects ctx.deltaspaceId).reference = some ⟨ctx.data, md⟩ ∧
      (s'.objects ctx.deltaspaceId).deltas = (s.objects ctx.deltaspaceId).deltas ∧
      s'.referenceCache inst ctx.deltaspaceId = some ctx.data := by
  refine ⟨_, _, runsE_bind_ok (runsE_localCall (.now s)) (runsE_bind_ok (runsE_storageCall _ _)
    (runsE_bind_ok (runsE_localCall (.cachePut _ _ _)) (runsE_pure _ _))), ?_, ?_, ?_⟩
  · simp [StorageCall.perform, EngineState.setCache]
  · simp [StorageCall.perform, EngineState.setCache]
  · simp [EngineState.setCache]

/-- `get_reference_cached` on a cache hit answers the cached bytes. -/
theorem runsE_getReferenceCached_hit (cfg : EngineConfig) {ds : String} {s : EngineState}
    {b : List UInt8} (h : s.referenceCache inst ds = some b) :
    RunsE codec inst .lossy (getReferenceCached cfg ds) s (.ok (b, true)) s := by
  unfold getReferenceCached
  have hhit : RunsE codec inst .lossy (localCall (.cacheGet ds)) s
      (.ok (s.referenceCache inst ds)) s :=
    runsE_localCall (.cacheHit ds s)
  rw [h] at hhit
  exact runsE_bind_ok hhit (runsE_pure _ _)

/-- `commit_delta_or_passthrough` keeps the delta, and `put_delta` takes
effect and answers `e`. -/
theorem runsE_commitDeltaOrPassthrough_lost (cfg : EngineConfig) (ctx : StoreContext)
    (refMeta : FileMetadata) (hasExisting : Bool) (reference delta : List UInt8) {ratio : ℚ}
    (hwin : ratio < cfg.maxDeltaRatio) (e : StorageError) (s : EngineState) :
    ∃ md s', RunsE codec inst .lossy
        (commitDeltaOrPassthrough cfg ctx refMeta hasExisting reference delta ratio) s
        (.error (.storage e)) s' ∧
      (s'.objects ctx.deltaspaceId).deltas =
        (s.objects ctx.deltaspaceId).deltas.insert ctx.objKey.filename ⟨delta, md, reference⟩ ∧
      (s'.objects ctx.deltaspaceId).reference = (s.objects ctx.deltaspaceId).reference ∧
      s'.referenceCache = s.referenceCache := by
  unfold commitDeltaOrPassthrough
  rw [if_neg (not_le.mpr hwin)]
  refine ⟨deltaMetadata ctx.objKey.filename ctx.sha256 ctx.md5 ctx.data.length refMeta.fileSha256
    delta.length ctx.contentType ctx.userMetadata ctx.multipartEtag (s.clock + 1), _,
    runsE_bind_ok (runsE_localCall (.now s))
      (runsE_bind_error (runsE_storageCall_lost e (.applied _ _))), ?_, ?_, rfl⟩
  · simp [StorageCall.perform]
  · simp [StorageCall.perform]

/-- `encode_and_store` from a state whose cache holds the reference: the
encode succeeds, the delta wins and its response is lost. -/
theorem runsE_encodeAndStore_lost (cfg : EngineConfig) (ctx : StoreContext) (refMeta : FileMetadata)
    (hasExisting : Bool) {s : EngineState} {reference : List UInt8}
    (hcache : s.referenceCache inst ctx.deltaspaceId = some reference)
    (hwin : compressionRatio ctx.data.length (codec.encode reference ctx.data).length <
      cfg.maxDeltaRatio) (e : StorageError) :
    ∃ md s', RunsE codec inst .lossy (encodeAndStore cfg ctx refMeta hasExisting) s
        (.error (.storage e)) s' ∧
      (s'.objects ctx.deltaspaceId).deltas = (s.objects ctx.deltaspaceId).deltas.insert
        ctx.objKey.filename ⟨codec.encode reference ctx.data, md, reference⟩ ∧
      (s'.objects ctx.deltaspaceId).reference = (s.objects ctx.deltaspaceId).reference ∧
      s'.referenceCache = s.referenceCache := by
  obtain ⟨md, s', hrun, hdeltas, href, hcache'⟩ := runsE_commitDeltaOrPassthrough_lost codec inst
    cfg ctx refMeta hasExisting reference (codec.encode reference ctx.data) hwin e s
  refine ⟨md, s', ?_, hdeltas, href, hcache'⟩
  unfold encodeAndStore
  exact runsE_bind_ok (runsE_getReferenceCached_hit codec inst cfg hcache)
    (runsE_bind_ok (runsE_codecCall (.encode reference ctx.data) s) hrun)

/-- The rollback of a fresh reference, every call succeeding. -/
theorem runsE_discardFreshReference {ds : String} {s : EngineState} {o : StoredObject}
    (href : (s.objects ds).reference = some o) :
    ∃ s', RunsE codec inst .lossy (discardFreshReference false ds) s (.ok ()) s' ∧
      (s'.objects ds).reference = none ∧ (s'.objects ds).deltas = (s.objects ds).deltas := by
  have hperform : (StorageCall.deleteReference ds).perform s.objects =
      (.ok (), StorageCall.modify s.objects ds fun d => { d with reference := none }) := by
    simp only [StorageCall.perform, href]
  have hdel : RunsE codec inst .lossy (storageCall (.deleteReference ds)) (s.setCache inst ds none)
      (Except.mapError .storage ((StorageCall.deleteReference ds).perform s.objects).1)
      { s.setCache inst ds none with
        objects := ((StorageCall.deleteReference ds).perform s.objects).2 } :=
    runsE_storageCall _ _
  rw [hperform] at hdel
  refine ⟨{ s.setCache inst ds none with
    objects := StorageCall.modify s.objects ds fun d => { d with reference := none } }, ?_,
    by simp, by simp⟩
  unfold discardFreshReference
  rw [if_pos Bool.not_false]
  exact runsE_bind_ok (runsE_localCall (.cacheInvalidate ds s)) (runsE_bestEffort hdel)

/-- `store_inner`'s delta path under the locks, from a deltaspace without a
reference: the baseline is created, the delta written with its response
lost, and the rollback deletes the baseline. -/
theorem runsE_storeDeltaLocked_lost (cfg : EngineConfig) (ctx : StoreContext) {s : EngineState}
    (hnone : (s.objects ctx.deltaspaceId).reference = none)
    (hwin : compressionRatio ctx.data.length (codec.encode ctx.data ctx.data).length <
      cfg.maxDeltaRatio) (e : StorageError) :
    ∃ md s', RunsE codec inst .lossy (storeDeltaLocked cfg ctx) s (.error (.storage e)) s' ∧
      (s'.objects ctx.deltaspaceId).reference = none ∧
      (s'.objects ctx.deltaspaceId).deltas = (s.objects ctx.deltaspaceId).deltas.insert
        ctx.objKey.filename ⟨codec.encode ctx.data ctx.data, md, ctx.data⟩ := by
  -- `has_reference` says no, so the baseline is the object itself
  have hhas : RunsE codec inst .lossy (storageCall (.hasReference ctx.deltaspaceId)) s
      (.ok false) s := by
    have h : RunsE codec inst .lossy (storageCall (.hasReference ctx.deltaspaceId)) s _ s :=
      runsE_storageCall_read (c := .hasReference ctx.deltaspaceId) trivial s
    simpa [StorageCall.perform, hnone, Except.mapError] using h
  obtain ⟨refMeta, s₁, hbase, href₁, hdeltas₁, hcache₁⟩ := runsE_setReferenceBaseline codec inst ctx s
  obtain ⟨md, s₂, hencode, hdeltas₂, href₂, hcache₂⟩ :=
    runsE_encodeAndStore_lost codec inst cfg ctx refMeta false hcache₁ hwin e
  obtain ⟨s₃, hrollback, href₃, hdeltas₃⟩ :=
    runsE_discardFreshReference codec inst (href₂.trans href₁)
  refine ⟨md, s₃, ?_, href₃, by rw [hdeltas₃, hdeltas₂, hdeltas₁]⟩
  unfold storeDeltaLocked prepareReference
  refine runsE_bind_ok hhas (runsE_bind_ok hbase ?_)
  exact runsE_tryCatch_error hencode (runsE_bind_ok hrollback (runsE_throw _ _))

/-- A PUT that `store_inner` sends down its delta path, into a deltaspace
without a reference, can end with the delta stored and no reference. -/
theorem runsE_storeInner_lost (cfg : EngineConfig) (key : String) (data : List UInt8)
    (contentType : Option String) (userMetadata : UserMeta) (multipartEtag : Option String)
    {objKey : ObjectKey} {ds : String} {s : EngineState}
    (hsize : data.length ≤ cfg.maxObjectSize) (hkey : validatedKeyIngest key = .ok (objKey, ds))
    (hcompression : cfg.compressionEnabled = true) (heligible : cfg.isDeltaEligible objKey.filename = true)
    (hlock : cfg.referenceLock = false)
    (hwin : compressionRatio data.length (codec.encode data data).length < cfg.maxDeltaRatio)
    (hnone : (s.objects ds).reference = none) (hfree : s.prefixLocks inst ds = false)
    (e : StorageError) :
    ∃ md s', RunsE codec inst .lossy (storeInner cfg key data contentType userMetadata multipartEtag) s
        (.error (.storage e)) s' ∧
      (s'.objects ds).reference = none ∧
      (s'.objects ds).deltas.lookup objKey.filename = some ⟨codec.encode data data, md, data⟩ := by
  let ctx : StoreContext := ⟨objKey, ds, data, cfg.sha256 data, cfg.md5 data, contentType,
    userMetadata, multipartEtag⟩
  obtain ⟨md, s₁, hrun, href, hdeltas⟩ :=
    runsE_storeDeltaLocked_lost codec inst cfg ctx (s := s.setPrefixLock inst ds true) hnone hwin e
  refine ⟨md, s₁.setPrefixLock inst ds false, ?_, href, ?_⟩
  · unfold storeInner
    rw [if_neg (Nat.not_lt.mpr hsize)]
    have hlift : RunsE codec inst .lossy (liftExcept (validatedKeyIngest key)) s
        (.ok (objKey, ds)) s := by
      rw [hkey]
      exact runsE_liftExcept _ s
    refine runsE_bind_ok hlift ?_
    simp only [hcompression, heligible, Bool.not_true, Bool.or_self, Bool.false_eq_true, if_false]
    exact runsE_withPrefixLock hfree (runsE_withReferenceLock_inert hlock hrun)
  · change (s₁.objects ds).deltas.lookup objKey.filename = _
    rw [hdeltas]
    exact AList.lookup_insert _

end LostDelta

end DeltaGlider.Engine
