import DeltaGlider.Engine.Keys

/-!
# Engine programs: calls, locks, and their rules

The engine is written against `EngineM = ExceptT EngineError EngineProg`, so
that `?` reads as in the source.  This module gives the primitive calls

* `storageCall c`: a storage call whose error propagates as
  `EngineError::Storage` (`?` through `From<StorageError>`);
* `storageTry c`: a storage call whose `Result` the engine inspects;
* `codecCall c`, `localCall c`;
* `withPrefixLock ds body`, `withReferenceLock cfg ds body`: the guards of
  `acquire_prefix_lock` and `acquire_reference_lock`, released when `body`
  ends, with a result or an error;
* `bestEffort x`: `if let Err(e) = x { warn!(..) }`;

and the weakest-precondition rules for them (`wpE`), one per primitive, that
the proofs about the operations use without unfolding the primitives.
-/

namespace DeltaGlider.Engine

/-- The engine's configuration for one bucket.  `sha256`/`md5` are the hex
digests the engine stamps. -/
structure EngineConfig where
  bucket : String
  maxObjectSize : Nat
  maxPassthroughObjectSize : Nat
  compressionEnabled : Bool
  maxDeltaRatio : ℚ
  isDeltaEligible : String → Bool
  referenceLock : Bool
  sha256 : List UInt8 → String
  md5 : List UInt8 → String

/-! ## Primitive calls -/

def storageCall (c : StorageCall) : EngineM c.Ok :=
  ExceptT.mk (.call (.storage c) fun r => .ret (Except.mapError .storage r))

def storageTry (c : StorageCall) : EngineM (Except StorageError c.Ok) :=
  ExceptT.mk (.call (.storage c) fun r => .ret (.ok r))

def codecCall (c : CodecCall) : EngineM c.Ok :=
  ExceptT.mk (.call (.codec c) .ret)

def localCall (c : LocalCall) : EngineM c.Ok :=
  ExceptT.mk (.call (.inProcess c) fun r => .ret (.ok r))

/-- A `Result` computed without a call, returned with `?`. -/
def liftExcept {α : Type} (r : Except EngineError α) : EngineM α := ExceptT.mk (.ret r)

/-- Run `x` for its effect; its error is kept. -/
def discardE {α : Type} (x : EngineM α) : EngineM Unit := x >>= fun _ => pure ()

/-- `if let Err(e) = x { warn!(..) }`: run `x`, drop its error. -/
def bestEffort (x : EngineM Unit) : EngineM Unit :=
  ExceptT.mk (x.run >>= fun _ => .ret (.ok ()))

/-- `let _guard = self.acquire_prefix_lock(ds).await;` around `body`: the
mutex is released when the guard drops, after a result or an error. -/
def withPrefixLock {α : Type} (ds : String) (body : EngineM α) : EngineM α :=
  ExceptT.mk (.call (.inProcess (.lockPrefix ds)) fun _ =>
    body.run >>= fun r => .call (.inProcess (.unlockPrefix ds)) fun _ => .ret r)

/-- `acquire_reference_lock`: inert when no coordination bucket is
configured; else the lock, or the error the source returns. -/
def acquireReferenceLock (cfg : EngineConfig) (ds : String) : EngineM Bool :=
  if cfg.referenceLock then
    ExceptT.mk (.call (.inProcess (.lockReference ds)) fun
      | .ok true => .ret (.ok true)
      | .ok false => .ret (.error (.storage (.other ("reference lock for deltaspace '" ++
          cfg.bucket ++ "/" ++ ds ++ "' held by another instance; " ++
          "write timed out to avoid corrupting reference.bin"))))
      | .error e => .ret (.error (.storage (.other ("reference lock acquire failed for " ++
          "deltaspace '" ++ cfg.bucket ++ "/" ++ ds ++ "': " ++ e)))))
  else pure false

/-- `let _xnode_guard = self.acquire_reference_lock(..).await?;` around
`body`. -/
def withReferenceLock {α : Type} (cfg : EngineConfig) (ds : String) (body : EngineM α) :
    EngineM α := do
  let held ← acquireReferenceLock cfg ds
  ExceptT.mk (body.run >>= fun r =>
    if held then .call (.inProcess (.unlockReference ds)) fun _ => .ret r else .ret r)

/-! ## Weakest preconditions -/

variable {codec : DeltaCodec} {inst : Nat} {faults : FaultModel} {α β : Type}

/-- Every run of `x` by instance `inst`, under the fault model `faults`, ends
in `Q`. -/
def wpE (codec : DeltaCodec) (inst : Nat) (faults : FaultModel) (x : EngineM α)
    (Q : Except EngineError α → EngineState → Prop) (s : EngineState) : Prop :=
  Prog.wp (Step codec inst faults) x.run Q s

/-- The postcondition of `x` in `x >>= f`: on success go on with `f`. -/
def thenE (codec : DeltaCodec) (inst : Nat) (faults : FaultModel) (f : α → EngineM β)
    (Q : Except EngineError β → EngineState → Prop) : Except EngineError α → EngineState → Prop
  | .ok a, s => wpE codec inst faults (f a) Q s
  | .error e, s => Q (.error e) s

@[simp] theorem thenE_ok (f : α → EngineM β) (Q : Except EngineError β → EngineState → Prop)
    (a : α) (s : EngineState) : thenE codec inst faults f Q (.ok a) s = wpE codec inst faults (f a) Q s := rfl

@[simp] theorem thenE_error (f : α → EngineM β) (Q : Except EngineError β → EngineState → Prop)
    (e : EngineError) (s : EngineState) : thenE codec inst faults f Q (.error e) s = Q (.error e) s := rfl

theorem wpE_bind (x : EngineM α) (f : α → EngineM β) (Q : Except EngineError β → EngineState → Prop)
    (s : EngineState) : wpE codec inst faults (x >>= f) Q s = wpE codec inst faults x (thenE codec inst faults f Q) s := by
  unfold wpE
  rw [ExceptT.run_bind, Prog.wp_bind]
  congr 1
  funext r s'
  cases r <;> rfl

@[simp] theorem wpE_pure (a : α) (Q : Except EngineError α → EngineState → Prop) (s : EngineState) :
    wpE codec inst faults (pure a) Q s = Q (.ok a) s := rfl

@[simp] theorem wpE_throw (e : EngineError) (Q : Except EngineError α → EngineState → Prop)
    (s : EngineState) : wpE codec inst faults (throw e) Q s = Q (.error e) s := rfl

theorem wpE_mono {x : EngineM α} {Q Q' : Except EngineError α → EngineState → Prop}
    (h : ∀ r s, Q r s → Q' r s) {s : EngineState} (hx : wpE codec inst faults x Q s) :
    wpE codec inst faults x Q' s :=
  Prog.wp_mono h hx

theorem wpE_ite (c : Prop) [Decidable c] (x y : EngineM α)
    (Q : Except EngineError α → EngineState → Prop) (s : EngineState) :
    wpE codec inst faults (if c then x else y) Q s = if c then wpE codec inst faults x Q s else wpE codec inst faults y Q s := by
  split <;> rfl

theorem wpE_storageCall (c : StorageCall) (Q : Except EngineError c.Ok → EngineState → Prop)
    (s : EngineState) :
    wpE codec inst faults (storageCall c) Q s ↔
      Q (Except.mapError .storage (c.perform s.objects).1) { s with objects := (c.perform s.objects).2 } ∧
        (∀ e, Q (.error (.storage e)) s) ∧
        (faults = .lossy → ∀ e objs, c.Lost s.objects objs →
          Q (.error (.storage e)) { s with objects := objs }) := by
  unfold wpE storageCall
  rw [ExceptT.run_mk, wp_storage]
  rfl

theorem wpE_storageTry (c : StorageCall)
    (Q : Except EngineError (Except StorageError c.Ok) → EngineState → Prop) (s : EngineState) :
    wpE codec inst faults (storageTry c) Q s ↔
      Q (.ok (c.perform s.objects).1) { s with objects := (c.perform s.objects).2 } ∧
        (∀ e, Q (.ok (.error e)) s) ∧
        (faults = .lossy → ∀ e objs, c.Lost s.objects objs →
          Q (.ok (.error e)) { s with objects := objs }) := by
  unfold wpE storageTry
  rw [ExceptT.run_mk, wp_storage]
  rfl

/-- Under the atomic fault model a failed call leaves the state as it was. -/
theorem wpE_storageCall_atomic (c : StorageCall) (Q : Except EngineError c.Ok → EngineState → Prop)
    (s : EngineState) :
    wpE codec inst .atomic (storageCall c) Q s ↔
      Q (Except.mapError .storage (c.perform s.objects).1) { s with objects := (c.perform s.objects).2 } ∧
        ∀ e, Q (.error (.storage e)) s := by
  rw [wpE_storageCall]
  exact ⟨fun h => ⟨h.1, h.2.1⟩, fun h => ⟨h.1, h.2, fun hf => nomatch hf⟩⟩

theorem wpE_codecCall (c : CodecCall) (Q : Except EngineError c.Ok → EngineState → Prop)
    (s : EngineState) :
    wpE codec inst faults (codecCall c) Q s ↔ Q (c.perform codec) s ∧ ∀ e, Q (.error e) s := by
  unfold wpE codecCall
  rw [ExceptT.run_mk, wp_codec]
  rfl

theorem wpE_localCall (c : LocalCall) (Q : Except EngineError c.Ok → EngineState → Prop)
    (s : EngineState) :
    wpE codec inst faults (localCall c) Q s ↔ ∀ r s', LocalStep inst c s r s' → Q (.ok r) s' := by
  unfold wpE localCall
  rw [ExceptT.run_mk, wp_local]
  rfl

theorem wpE_storageCall_read {c : StorageCall} (hc : c.IsRead)
    (Q : Except EngineError c.Ok → EngineState → Prop) (s : EngineState) :
    wpE codec inst faults (storageCall c) Q s ↔
      Q (Except.mapError .storage (c.perform s.objects).1) s ∧ ∀ e, Q (.error (.storage e)) s := by
  rw [wpE_storageCall, StorageCall.perform_snd_of_isRead hc]
  refine ⟨fun h => ⟨h.1, h.2.1⟩, fun h => ⟨h.1, h.2, fun _ e objs hl => ?_⟩⟩
  -- a failed read took no effect, whatever the fault model
  obtain rfl := StorageCall.Lost.eq_of_isRead hc hl
  exact h.2 e

theorem wpE_storageTry_read {c : StorageCall} (hc : c.IsRead)
    (Q : Except EngineError (Except StorageError c.Ok) → EngineState → Prop) (s : EngineState) :
    wpE codec inst faults (storageTry c) Q s ↔ Q (.ok (c.perform s.objects).1) s ∧ ∀ e, Q (.ok (.error e)) s := by
  rw [wpE_storageTry, StorageCall.perform_snd_of_isRead hc]
  refine ⟨fun h => ⟨h.1, h.2.1⟩, fun h => ⟨h.1, h.2, fun _ e objs hl => ?_⟩⟩
  obtain rfl := StorageCall.Lost.eq_of_isRead hc hl
  exact h.2 e

/-- A read whose answer the program does not inspect. -/
theorem wpE_storageTry_any {c : StorageCall} (hc : c.IsRead)
    {Q : Except EngineError (Except StorageError c.Ok) → EngineState → Prop} {s : EngineState}
    (h : ∀ r, Q (.ok r) s) : wpE codec inst faults (storageTry c) Q s :=
  (wpE_storageTry_read hc Q s).mpr ⟨h _, fun _ => h _⟩

theorem wpE_storageCall_any {c : StorageCall} (hc : c.IsRead)
    {Q : Except EngineError c.Ok → EngineState → Prop} {s : EngineState} (h : ∀ r, Q r s) :
    wpE codec inst faults (storageCall c) Q s :=
  (wpE_storageCall_read hc Q s).mpr ⟨h _, fun _ => h _⟩

/-- A successful read of `reference.bin` answers the stored bytes. -/
theorem wpE_storageTry_getReference {ds : String}
    {Q : Except EngineError (Except StorageError (List UInt8)) → EngineState → Prop} {s : EngineState}
    (h : ∀ r, (∀ b, r = .ok b → ∃ o, (s.objects ds).reference = some o ∧ o.data = b) →
      Q (.ok r) s) :
    wpE codec inst faults (storageTry (.getReference ds)) Q s := by
  have hc : (StorageCall.getReference ds).IsRead := trivial
  refine (wpE_storageTry_read hc Q s).mpr ⟨h _ fun b hb => ?_, fun e => h _ fun b hb => ?_⟩
  · simp only [StorageCall.perform] at hb
    split at hb
    · next o ho => exact ⟨o, ho, Except.ok.inj hb⟩
    · cases hb
  · cases hb

theorem wpE_storageCall_getReference {ds : String}
    {Q : Except EngineError (List UInt8) → EngineState → Prop} {s : EngineState}
    (hok : ∀ o, (s.objects ds).reference = some o → Q (.ok o.data) s)
    (herr : ∀ e, Q (.error (.storage e)) s) :
    wpE codec inst faults (storageCall (.getReference ds)) Q s := by
  have hc : (StorageCall.getReference ds).IsRead := trivial
  refine (wpE_storageCall_read hc Q s).mpr ⟨?_, herr⟩
  cases hr : (s.objects ds).reference with
  | none =>
    simp only [StorageCall.perform, hr, Except.mapError]
    exact herr _
  | some o =>
    simp only [StorageCall.perform, hr, Except.mapError]
    exact hok o hr

/-- The writes and the delete of `reference.bin` and of deltas under the
atomic fault model, one rule each. -/
theorem wpE_storageCall_putReference {ds : String} {data : List UInt8} {md : FileMetadata}
    {Q : Except EngineError Unit → EngineState → Prop} {s : EngineState} :
    wpE codec inst .atomic (storageCall (.putReference ds data md)) Q s ↔
      Q (.ok ()) { s with objects := (StorageCall.modify s.objects ds
        fun d => { d with reference := some ⟨data, md⟩ }) } ∧
      ∀ e, Q (.error (.storage e)) s :=
  wpE_storageCall_atomic (.putReference ds data md) Q s

theorem wpE_storageCall_putReferenceFromFile {ds : String} {data : List UInt8} {md : FileMetadata}
    {Q : Except EngineError Unit → EngineState → Prop} {s : EngineState} :
    wpE codec inst .atomic (storageCall (.putReferenceFromFile ds data md)) Q s ↔
      Q (.ok ()) { s with objects := (StorageCall.modify s.objects ds
        fun d => { d with reference := some ⟨data, md⟩ }) } ∧
      ∀ e, Q (.error (.storage e)) s :=
  wpE_storageCall_atomic (.putReferenceFromFile ds data md) Q s

theorem wpE_storageCall_putDelta {ds f : String} {delta base : List UInt8} {md : FileMetadata}
    {Q : Except EngineError Unit → EngineState → Prop} {s : EngineState} :
    wpE codec inst .atomic (storageCall (.putDelta ds f delta md base)) Q s ↔
      Q (.ok ()) { s with objects := (StorageCall.modify s.objects ds
        fun d => { d with deltas := d.deltas.insert f ⟨delta, md, base⟩ }) } ∧
      ∀ e, Q (.error (.storage e)) s :=
  wpE_storageCall_atomic (.putDelta ds f delta md base) Q s

theorem wpE_storageCall_deleteReference {ds : String}
    {Q : Except EngineError Unit → EngineState → Prop} {s : EngineState}
    (hok : Q (.ok ()) { s with objects := (StorageCall.modify s.objects ds
      fun d => { d with reference := none }) })
    (herr : ∀ e, Q (.error (.storage e)) s) :
    wpE codec inst .atomic (storageCall (.deleteReference ds)) Q s := by
  refine (wpE_storageCall_atomic (.deleteReference ds) Q s).mpr ⟨?_, herr⟩
  cases hr : (s.objects ds).reference with
  | none =>
    simp only [StorageCall.perform, hr, Except.mapError]
    exact herr _
  | some o =>
    simp only [StorageCall.perform, hr, Except.mapError]
    exact hok

/-- A read of an absent passthrough object fails. -/
theorem wpE_storageTry_getPassthrough_absent {ds f : String}
    {Q : Except EngineError (Except StorageError (List UInt8)) → EngineState → Prop} {s : EngineState}
    (habsent : (s.objects ds).passthroughs.lookup f = none) (h : ∀ e, Q (.ok (.error e)) s) :
    wpE codec inst faults (storageTry (.getPassthrough ds f)) Q s := by
  have hc : (StorageCall.getPassthrough ds f).IsRead := trivial
  refine (wpE_storageTry_read hc Q s).mpr ⟨?_, h⟩
  simp only [StorageCall.perform, habsent]
  exact h _

/-- A codec call leaves the state as it is, whatever it answers. -/
theorem wpE_codecCall_any {c : CodecCall} {Q : Except EngineError c.Ok → EngineState → Prop}
    {s : EngineState} (h : ∀ r, Q r s) : wpE codec inst faults (codecCall c) Q s :=
  (wpE_codecCall c Q s).mpr ⟨h _, fun _ => h _⟩

/-- A codec call in front of `f`: the state is as before, the answer any. -/
theorem wpE_codecCall_bind {c : CodecCall} {f : c.Ok → EngineM β}
    {Q : Except EngineError β → EngineState → Prop} {s : EngineState}
    (herr : ∀ e, Q (.error e) s) (hf : ∀ a, wpE codec inst faults (f a) Q s) :
    wpE codec inst faults (codecCall c >>= f) Q s := by
  rw [wpE_bind]
  refine wpE_codecCall_any fun r => ?_
  cases r with
  | error e => exact herr e
  | ok a => exact hf a

/-! The in-process calls, one rule each. -/

theorem wpE_cacheGet (ds : String) (Q : Except EngineError (Option (List UInt8)) → EngineState → Prop)
    (s : EngineState) :
    wpE codec inst faults (localCall (.cacheGet ds)) Q s ↔
      Q (.ok (s.referenceCache inst ds)) s ∧ Q (.ok none) s := by
  rw [wpE_localCall]
  constructor
  · intro h
    exact ⟨h _ _ (.cacheHit ds s), h _ _ (.cacheMiss ds s)⟩
  · rintro ⟨hit, miss⟩ r s' hs
    cases hs with
    | cacheHit => exact hit
    | cacheMiss => exact miss

/-- A hit answers this instance's entry. -/
theorem wpE_cacheGet_of {ds : String} {Q : Except EngineError (Option (List UInt8)) → EngineState → Prop}
    {s : EngineState} (h : ∀ v, (∀ b, v = some b → s.referenceCache inst ds = some b) → Q (.ok v) s) :
    wpE codec inst faults (localCall (.cacheGet ds)) Q s :=
  (wpE_cacheGet ds Q s).mpr ⟨h _ fun _ hb => hb, h none fun _ hb => by cases hb⟩

theorem wpE_cachePut (ds : String) (b : List UInt8) (Q : Except EngineError Unit → EngineState → Prop)
    (s : EngineState) :
    wpE codec inst faults (localCall (.cachePut ds b)) Q s ↔ Q (.ok ()) (s.setCache inst ds (some b)) := by
  rw [wpE_localCall]
  constructor
  · intro h
    exact h _ _ (.cachePut ds b s)
  · rintro h r s' hs
    cases hs with
    | cachePut => exact h

theorem wpE_cacheInvalidate (ds : String) (Q : Except EngineError Unit → EngineState → Prop)
    (s : EngineState) :
    wpE codec inst faults (localCall (.cacheInvalidate ds)) Q s ↔ Q (.ok ()) (s.setCache inst ds none) := by
  rw [wpE_localCall]
  constructor
  · intro h
    exact h _ _ (.cacheInvalidate ds s)
  · rintro h r s' hs
    cases hs with
    | cacheInvalidate => exact h

theorem wpE_now (Q : Except EngineError Int → EngineState → Prop) (s : EngineState) :
    wpE codec inst faults (localCall .now) Q s ↔ Q (.ok (s.clock + 1)) { s with clock := s.clock + 1 } := by
  rw [wpE_localCall]
  constructor
  · intro h
    exact h _ _ (.now s)
  · rintro h r s' hs
    cases hs with
    | now => exact h

@[simp] theorem wpE_liftExcept (r : Except EngineError α) (Q : Except EngineError α → EngineState → Prop)
    (s : EngineState) : wpE codec inst faults (liftExcept r) Q s = Q r s := rfl

theorem wpE_discardE (x : EngineM α) (Q : Except EngineError Unit → EngineState → Prop)
    (s : EngineState) :
    wpE codec inst faults (discardE x) Q s = wpE codec inst faults x (fun r s' => Q (r.map fun _ => ()) s') s := by
  unfold discardE
  rw [wpE_bind]
  congr 1
  funext r s'
  cases r <;> rfl

theorem wpE_bestEffort (x : EngineM Unit) (Q : Except EngineError Unit → EngineState → Prop)
    (s : EngineState) :
    wpE codec inst faults (bestEffort x) Q s = wpE codec inst faults x (fun _ s' => Q (.ok ()) s') s := by
  unfold wpE bestEffort
  rw [ExceptT.run_mk, Prog.wp_bind]
  rfl

/-- The postcondition of `x` in `tryCatch x h`: on an error go on with `h`. -/
def catchE (codec : DeltaCodec) (inst : Nat) (faults : FaultModel) (h : EngineError → EngineM α)
    (Q : Except EngineError α → EngineState → Prop) : Except EngineError α → EngineState → Prop
  | .ok a, s => Q (.ok a) s
  | .error e, s => wpE codec inst faults (h e) Q s

@[simp] theorem catchE_ok (h : EngineError → EngineM α) (Q : Except EngineError α → EngineState → Prop)
    (a : α) (s : EngineState) : catchE codec inst faults h Q (.ok a) s = Q (.ok a) s := rfl

@[simp] theorem catchE_error (h : EngineError → EngineM α)
    (Q : Except EngineError α → EngineState → Prop) (e : EngineError) (s : EngineState) :
    catchE codec inst faults h Q (.error e) s = wpE codec inst faults (h e) Q s := rfl

theorem wpE_tryCatch (x : EngineM α) (h : EngineError → EngineM α)
    (Q : Except EngineError α → EngineState → Prop) (s : EngineState) :
    wpE codec inst faults (tryCatch x h) Q s = wpE codec inst faults x (catchE codec inst faults h Q) s := by
  unfold wpE
  change Prog.wp _ (x.run >>= _) Q s = _
  rw [Prog.wp_bind]
  congr 1
  funext r s'
  cases r <;> rfl

/-- Running `x` for its `Result`: the run's outcome becomes a value. -/
theorem wpE_liftRun (x : EngineM α) (Q : Except EngineError (Except EngineError α) → EngineState → Prop)
    (s : EngineState) :
    wpE codec inst faults (ExceptT.lift x.run) Q s = wpE codec inst faults x (fun r s' => Q (.ok r) s') s := by
  unfold wpE
  change Prog.wp _ (x.run >>= fun a => pure (Except.ok a)) Q s = _
  rw [Prog.wp_bind]
  rfl

theorem wpE_withPrefixLock (ds : String) (body : EngineM α)
    (Q : Except EngineError α → EngineState → Prop) (s : EngineState) :
    wpE codec inst faults (withPrefixLock ds body) Q s ↔
      ∀ s₁, LocalStep inst (.lockPrefix ds) s () s₁ →
        wpE codec inst faults body (fun r s₂ => ∀ s₃, LocalStep inst (.unlockPrefix ds) s₂ () s₃ → Q r s₃) s₁ := by
  unfold wpE withPrefixLock
  rw [ExceptT.run_mk, wp_local]
  constructor
  · intro h s₁ h₁
    have := h () s₁ h₁
    rw [Prog.wp_bind] at this
    refine Prog.wp_mono ?_ this
    intro r s₂ hr s₃ h₃
    exact (wp_local _ _ _ _).mp hr () s₃ h₃
  · intro h u s₁ h₁
    rw [Prog.wp_bind]
    refine Prog.wp_mono ?_ (h s₁ h₁)
    intro r s₂ hr
    exact (wp_local _ _ _ _).mpr fun u s₃ h₃ => hr s₃ h₃

end DeltaGlider.Engine
