import DeltaGlider.Engine.Requests

/-!
# The reference invariant

Every delta of a deltaspace was encoded against the bytes that deltaspace's
`reference.bin` holds now (`DeltasMatchReference`).  It holds in every state
one engine instance reaches by serving requests one at a time, whichever of
their calls fail, as long as a failed storage call changes nothing: the
atomic fault model (`reachable_deltasMatchReference`).  A failed call that
took effect breaks it (`Engine.LostResponse`).

The proof carries a stronger invariant `RefInv`: every entry of the
instance's reference cache holds the stored reference's bytes, no
delta's metadata is tagged as a reference (so a scan sees every delta), and no
passthrough object is named `reference.bin` (so the read fallback of
`retrieve_buffered` cannot cache foreign bytes).

Most of what the engine does cannot break it: reads, passthrough writes,
deletes of objects, cache invalidation, locks, the clock and the codec only
shrink what the invariant talks about (`Shrinks`), and a program made of such
calls is `SafeE`.  Four calls need an argument:

* `putDelta` needs its base to be the stored reference's bytes: the buffered
  path encodes against `get_reference_cached` (sound cache), the streaming
  path against the bytes it just read;
* `putReference` needs the deltaspace to hold no delta, or the same bytes:
  a baseline is written only when `has_reference` said no (so no delta, by
  the invariant), and a heal writes the bytes it read;
* `deleteReference` needs the deltaspace to hold no delta: the rollback and
  the ratio-loss teardown run only for a reference this request created and
  before any delta was written; the reclaim runs after a scan that listed no
  object;
* `cachePut` needs the bytes of the stored reference, or no reference.
-/

namespace DeltaGlider.Engine

/-! ## The invariant -/

/-- Every delta was encoded against the bytes its deltaspace's `reference.bin`
holds. -/
def DeltasMatchReference (objs : Objects) : Prop :=
  ∀ ds f d, (objs ds).deltas.lookup f = some d →
    ∃ r, (objs ds).reference = some r ∧ d.base = r.data

/-- A deltaspace without deltas. -/
def NoDeltas (objs : Objects) (ds : String) : Prop := ∀ f, (objs ds).deltas.lookup f = none

structure RefInv (inst : Nat) (s : EngineState) : Prop where
  deltasMatch : DeltasMatchReference s.objects
  cacheSound : ∀ ds b, s.referenceCache inst ds = some b →
    ∃ r, (s.objects ds).reference = some r ∧ r.data = b
  deltasTagged : ∀ ds f d, (s.objects ds).deltas.lookup f = some d → d.metadata.isReference = false
  noReservedPassthrough : ∀ ds, (s.objects ds).passthroughs.lookup "reference.bin" = none

theorem RefInv.init (inst : Nat) : RefInv inst .init where
  deltasMatch := by intro ds f d h; cases h
  cacheSound := by intro ds b h; cases h
  deltasTagged := by intro ds f d h; cases h
  noReservedPassthrough := by intro ds; rfl

/-- With no reference there is no delta. -/
theorem RefInv.noDeltas {inst : Nat} {s : EngineState} (h : RefInv inst s) {ds : String}
    (href : (s.objects ds).reference = none) : NoDeltas s.objects ds := by
  intro f
  cases hf : (s.objects ds).deltas.lookup f with
  | none => rfl
  | some d =>
    obtain ⟨r, hr, -⟩ := h.deltasMatch ds f d hf
    rw [href] at hr
    cases hr

/-! ## Calls that only shrink the state -/

/-- `s'` has the references of `s`, some of its deltas, some of the entries
of instance `inst`'s cache, and no passthrough `reference.bin` where `s` had
none. -/
structure Shrinks (inst : Nat) (s s' : EngineState) : Prop where
  reference : ∀ ds, (s'.objects ds).reference = (s.objects ds).reference
  deltas : ∀ ds f d, (s'.objects ds).deltas.lookup f = some d →
    (s.objects ds).deltas.lookup f = some d
  cache : ∀ ds b, s'.referenceCache inst ds = some b → s.referenceCache inst ds = some b
  reserved : ∀ ds, (s.objects ds).passthroughs.lookup "reference.bin" = none →
    (s'.objects ds).passthroughs.lookup "reference.bin" = none

namespace Shrinks

variable {inst : Nat} {s s₁ s₂ : EngineState}

@[refl] theorem refl (s : EngineState) : Shrinks inst s s :=
  ⟨fun _ => rfl, fun _ _ _ h => h, fun _ _ h => h, fun _ h => h⟩

theorem trans (h₁ : Shrinks inst s s₁) (h₂ : Shrinks inst s₁ s₂) : Shrinks inst s s₂ :=
  ⟨fun ds => (h₂.reference ds).trans (h₁.reference ds),
    fun ds f d h => h₁.deltas ds f d (h₂.deltas ds f d h),
    fun ds b h => h₁.cache ds b (h₂.cache ds b h),
    fun ds h => h₂.reserved ds (h₁.reserved ds h)⟩

/-- A call that changes neither the objects nor the cache. -/
theorem of_eq (ho : s₁.objects = s.objects) (hc : s₁.referenceCache = s.referenceCache) :
    Shrinks inst s s₁ := by
  refine ⟨fun ds => by rw [ho], fun ds f d h => by rwa [ho] at h, fun ds b h => by rwa [hc] at h,
    fun ds h => by rwa [ho]⟩

end Shrinks

theorem RefInv.of_shrinks {inst : Nat} {s s' : EngineState} (h : RefInv inst s)
    (hs : Shrinks inst s s') : RefInv inst s' where
  deltasMatch := by
    intro ds f d hd
    obtain ⟨r, hr, hb⟩ := h.deltasMatch ds f d (hs.deltas ds f d hd)
    exact ⟨r, (hs.reference ds).trans hr, hb⟩
  cacheSound := by
    intro ds b hb
    obtain ⟨r, hr, hd⟩ := h.cacheSound ds b (hs.cache ds b hb)
    exact ⟨r, (hs.reference ds).trans hr, hd⟩
  deltasTagged := fun ds f d hd => h.deltasTagged ds f d (hs.deltas ds f d hd)
  noReservedPassthrough := fun ds => hs.reserved ds (h.noReservedPassthrough ds)

/-- A state property that shrinking cannot break. -/
def Stable (inst : Nat) (P : EngineState → Prop) : Prop := ∀ s s', Shrinks inst s s' → P s → P s'

theorem stable_refInv (inst : Nat) : Stable inst (RefInv inst) := fun _ _ hs h => h.of_shrinks hs

theorem stable_reference (inst : Nat) (ds : String) (o : Option StoredObject) :
    Stable inst fun s => (s.objects ds).reference = o := fun _ _ hs h => (hs.reference ds).trans h

theorem stable_noDeltas (inst : Nat) (ds : String) : Stable inst fun s => NoDeltas s.objects ds := by
  intro s s' hs h f
  cases hf : (s'.objects ds).deltas.lookup f with
  | none => rfl
  | some d =>
    have := hs.deltas ds f d hf
    rw [h f] at this
    cases this

theorem Stable.and {inst : Nat} {P Q : EngineState → Prop} (hP : Stable inst P) (hQ : Stable inst Q) :
    Stable inst fun s => P s ∧ Q s := fun s s' hs h => ⟨hP s s' hs h.1, hQ s s' hs h.2⟩

theorem stable_imp {inst : Nat} (p : Prop) {P : EngineState → Prop} (hP : Stable inst P) :
    Stable inst fun s => p → P s := fun s s' hs h hp => hP s s' hs (h hp)

/-- The storage calls that only shrink the state: all but the writes of
`reference.bin` and of deltas, and passthrough writes under the reserved
name. -/
def StorageCall.Safe : StorageCall → Prop
  | .putReference .. => False
  | .putReferenceFromFile .. => False
  | .deleteReference _ => False
  | .putDelta .. => False
  | .putPassthrough _ f _ _ => f ≠ "reference.bin"
  | _ => True

/-- Changing one deltaspace by `g` shrinks the state when `g` keeps the
reference, drops deltas only, and adds no passthrough `reference.bin`. -/
theorem Shrinks.modify {inst : Nat} (s : EngineState) (ds : String) (g : Deltaspace → Deltaspace)
    (href : ∀ d, (g d).reference = d.reference)
    (hdeltas : ∀ d f o, (g d).deltas.lookup f = some o → d.deltas.lookup f = some o)
    (hreserved : ∀ d, d.passthroughs.lookup "reference.bin" = none →
      (g d).passthroughs.lookup "reference.bin" = none) :
    Shrinks inst s { s with objects := StorageCall.modify s.objects ds g } := by
  refine ⟨fun ds' => ?_, fun ds' f o h => ?_, fun _ _ h => h, fun ds' h => ?_⟩
  all_goals by_cases hd : ds' = ds
  · subst hd
    simp only [StorageCall.modify_self, href]
  · simp only [StorageCall.modify_of_ne _ _ hd]
  · subst hd
    simp only [StorageCall.modify_self] at h
    exact hdeltas _ f o h
  · simpa only [StorageCall.modify_of_ne _ _ hd] using h
  · subst hd
    simp only [StorageCall.modify_self]
    exact hreserved _ h
  · simpa only [StorageCall.modify_of_ne _ _ hd] using h

theorem shrinks_perform {inst : Nat} {c : StorageCall} (hc : c.Safe) (s : EngineState) :
    Shrinks inst s { s with objects := (c.perform s.objects).2 } := by
  cases c with
  | putReference | putReferenceFromFile => exact hc.elim
  | deleteReference => exact hc.elim
  | putDelta => exact hc.elim
  | putPassthrough ds f data md =>
    refine Shrinks.modify s ds (fun d => { d with passthroughs := d.passthroughs.insert f ⟨data, md⟩ })
      (fun _ => rfl) (fun _ _ _ h => h) fun d h => ?_
    change (d.passthroughs.insert f ⟨data, md⟩).lookup "reference.bin" = none
    rwa [AList.lookup_insert_ne (Ne.symm hc)]
  | deleteDelta ds f =>
    cases hf : (s.objects ds).deltas.lookup f with
    | none =>
      simp only [StorageCall.perform, hf]
      exact Shrinks.refl s
    | some o =>
      simp only [StorageCall.perform, hf]
      refine Shrinks.modify s ds _ (fun _ => rfl) (fun d f' o h => ?_) fun _ h => h
      change (d.deltas.erase f).lookup f' = some o at h
      by_cases hf' : f' = f
      · subst hf'
        rw [AList.lookup_erase] at h
        cases h
      · rwa [AList.lookup_erase_ne hf'] at h
  | deletePassthrough ds f =>
    cases hf : (s.objects ds).passthroughs.lookup f with
    | none =>
      simp only [StorageCall.perform, hf]
      exact Shrinks.refl s
    | some o =>
      simp only [StorageCall.perform, hf]
      refine Shrinks.modify s ds _ (fun _ => rfl) (fun _ _ _ h => h) fun d h => ?_
      change (d.passthroughs.erase f).lookup "reference.bin" = none
      by_cases hr : "reference.bin" = f
      · subst hr
        exact AList.lookup_erase _ _
      · rwa [AList.lookup_erase_ne hr]
  | hasReference | scanDeltaspace => exact Shrinks.of_eq rfl rfl
  | getReference | getReferenceMetadata | getDelta | getDeltaMetadata | getPassthrough
  | getPassthroughMetadata =>
    refine Shrinks.of_eq ?_ rfl
    simp only [StorageCall.perform]
    split <;> rfl

/-- The in-process calls that only shrink the state: all but `cachePut`. -/
def LocalCall.Safe : LocalCall → Prop
  | .cachePut .. => False
  | _ => True

theorem shrinks_localStep {inst : Nat} {c : LocalCall} {s s' : EngineState} {r : c.Ok}
    (h : LocalStep inst c s r s') (hc : c.Safe) : Shrinks inst s s' := by
  cases h with
  | cachePut => exact hc.elim
  | cacheInvalidate ds s =>
    refine ⟨fun _ => rfl, fun _ _ _ h => h, fun ds' b h => ?_, fun _ h => h⟩
    simp only [EngineState.setCache, Function.update_self] at h
    by_cases hd : ds' = ds
    · subst hd
      simp at h
    · rwa [Function.update_of_ne hd] at h
  | cacheHit | cacheMiss | lockReferenceTimeout | lockReferenceError => exact Shrinks.refl _
  | now | lockPrefix | unlockPrefix | lockReference | unlockReference => exact Shrinks.of_eq rfl rfl

/-! ## Programs that only shrink the state -/

section Safe

variable {codec : DeltaCodec} {inst : Nat} {faults : FaultModel} {α β : Type}

/-- Every run of `x`, from any state, only shrinks it. -/
def SafeE (codec : DeltaCodec) (inst : Nat) (faults : FaultModel) (x : EngineM α) : Prop :=
  ∀ s, wpE codec inst faults x (fun _ s' => Shrinks inst s s') s

theorem SafeE.mono {x : EngineM α} (hx : SafeE codec inst faults x) {s : EngineState}
    {Q : Except EngineError α → EngineState → Prop} (h : ∀ r s', Shrinks inst s s' → Q r s') :
    wpE codec inst faults x Q s :=
  wpE_mono h (hx s)

/-- A safe program keeps every stable property. -/
theorem SafeE.stable {x : EngineM α} (hx : SafeE codec inst faults x) {P : EngineState → Prop}
    (hP : Stable inst P) {s : EngineState} (h : P s) : wpE codec inst faults x (fun _ s' => P s') s :=
  hx.mono fun _ s' hs => hP s s' hs h

theorem safeE_pure (a : α) : SafeE codec inst faults (pure a : EngineM α) := fun s => Shrinks.refl s

theorem safeE_throw (e : EngineError) : SafeE codec inst faults (throw e : EngineM α) :=
  fun s => Shrinks.refl s

theorem safeE_liftExcept (r : Except EngineError α) : SafeE codec inst faults (liftExcept r) :=
  fun s => Shrinks.refl s

theorem safeE_bind {x : EngineM α} {f : α → EngineM β} (hx : SafeE codec inst faults x)
    (hf : ∀ a, SafeE codec inst faults (f a)) : SafeE codec inst faults (x >>= f) := by
  intro s
  rw [wpE_bind]
  refine hx.mono fun r s₁ h₁ => ?_
  cases r with
  | ok a => exact (hf a).mono fun _ s₂ h₂ => h₁.trans h₂
  | error e => exact h₁

/-- A bind on a computed result needs the continuation safe on successes
only. -/
theorem safeE_liftExcept_bind {r : Except EngineError α} {f : α → EngineM β}
    (hf : ∀ a, r = .ok a → SafeE codec inst faults (f a)) : SafeE codec inst faults (liftExcept r >>= f) := by
  intro s
  rw [wpE_bind, wpE_liftExcept]
  cases r with
  | ok a => exact hf a rfl s
  | error e => exact Shrinks.refl s

theorem safeE_ite {c : Prop} [Decidable c] {x y : EngineM α} (hx : SafeE codec inst faults x)
    (hy : SafeE codec inst faults y) : SafeE codec inst faults (if c then x else y) := by
  split
  · exact hx
  · exact hy

/-- A safe call that fails after taking effect shrinks the state as its
success does. -/
theorem shrinks_lost {inst : Nat} {c : StorageCall} (hc : c.Safe) (s : EngineState) {objs : Objects}
    (h : c.Lost s.objects objs) : Shrinks inst s { s with objects := objs } := by
  cases h with
  | applied => exact shrinks_perform hc s
  | unlinked | unstamped => exact hc.elim

theorem safeE_storageCall {c : StorageCall} (hc : c.Safe) : SafeE codec inst faults (storageCall c) :=
  fun s => (wpE_storageCall c _ s).mpr
    ⟨shrinks_perform hc s, fun _ => Shrinks.refl s, fun _ _ _ hl => shrinks_lost hc s hl⟩

theorem safeE_storageTry {c : StorageCall} (hc : c.Safe) : SafeE codec inst faults (storageTry c) :=
  fun s => (wpE_storageTry c _ s).mpr
    ⟨shrinks_perform hc s, fun _ => Shrinks.refl s, fun _ _ _ hl => shrinks_lost hc s hl⟩

theorem safeE_codecCall (c : CodecCall) : SafeE codec inst faults (codecCall c) :=
  fun s => (wpE_codecCall c _ s).mpr ⟨Shrinks.refl s, fun _ => Shrinks.refl s⟩

theorem safeE_localCall {c : LocalCall} (hc : c.Safe) : SafeE codec inst faults (localCall c) :=
  fun s => (wpE_localCall c _ s).mpr fun _ _ h => shrinks_localStep h hc

theorem safeE_bestEffort {x : EngineM Unit} (hx : SafeE codec inst faults x) :
    SafeE codec inst faults (bestEffort x) := by
  intro s
  rw [wpE_bestEffort]
  exact hx s

theorem safeE_discardE {x : EngineM α} (hx : SafeE codec inst faults x) : SafeE codec inst faults (discardE x) := by
  intro s
  rw [wpE_discardE]
  exact hx s

theorem wpE_withPrefixLock_of {ds : String} {body : EngineM α} {s : EngineState}
    {Q : Except EngineError α → EngineState → Prop}
    (h : ∀ s₁, Shrinks inst s s₁ → wpE codec inst faults body (fun r s₂ => ∀ s₃, Shrinks inst s₂ s₃ → Q r s₃) s₁) :
    wpE codec inst faults (withPrefixLock ds body) Q s := by
  rw [wpE_withPrefixLock]
  intro s₁ h₁
  refine wpE_mono ?_ (h s₁ (shrinks_localStep h₁ trivial))
  intro r s₂ hr s₃ h₃
  exact hr s₃ (shrinks_localStep h₃ trivial)

theorem safeE_withPrefixLock {ds : String} {body : EngineM α} (hb : SafeE codec inst faults body) :
    SafeE codec inst faults (withPrefixLock ds body) := by
  intro s
  refine wpE_withPrefixLock_of fun s₁ h₁ => hb.mono fun r s₂ h₂ s₃ h₃ => (h₁.trans h₂).trans h₃

theorem wpE_withReferenceLock_of {cfg : EngineConfig} {ds : String} {body : EngineM α}
    {s : EngineState} {Q : Except EngineError α → EngineState → Prop}
    (herr : ∀ e s₁, Shrinks inst s s₁ → Q (.error e) s₁)
    (h : ∀ s₁, Shrinks inst s s₁ → wpE codec inst faults body (fun r s₂ => ∀ s₃, Shrinks inst s₂ s₃ → Q r s₃) s₁) :
    wpE codec inst faults (withReferenceLock cfg ds body) Q s := by
  -- the acquisition: inert, or a lock call whose failures become errors
  have hlock : wpE codec inst faults (acquireReferenceLock cfg ds) (fun _ s' => Shrinks inst s s') s := by
    unfold acquireReferenceLock
    split
    · unfold wpE
      rw [ExceptT.run_mk, wp_local]
      intro r s' hs
      have h' := shrinks_localStep hs trivial
      rcases r with e | _ | _ <;> exact h'
    · exact Shrinks.refl s
  unfold withReferenceLock
  rw [wpE_bind]
  refine wpE_mono ?_ hlock
  intro r s₁ h₁
  cases r with
  | error e => exact herr e s₁ h₁
  | ok held =>
    simp only [thenE_ok]
    unfold wpE
    rw [ExceptT.run_mk, Prog.wp_bind]
    refine Prog.wp_mono ?_ (h s₁ h₁)
    intro r s₂ hr
    split
    · rw [wp_local]
      intro _ s₃ h₃
      exact hr s₃ (shrinks_localStep h₃ trivial)
    · exact hr s₂ (Shrinks.refl s₂)

theorem safeE_withReferenceLock {cfg : EngineConfig} {ds : String} {body : EngineM α}
    (hb : SafeE codec inst faults body) : SafeE codec inst faults (withReferenceLock cfg ds body) := by
  intro s
  exact wpE_withReferenceLock_of (fun _ _ h => h)
    fun s₁ h₁ => hb.mono fun r s₂ h₂ s₃ h₃ => (h₁.trans h₂).trans h₃

/-! ### The safe helpers and operations -/

theorem safeE_deleteDeltaIdempotent (ds f : String) :
    SafeE codec inst faults (deleteDeltaIdempotent ds f) := by
  unfold deleteDeltaIdempotent
  exact safeE_bind (safeE_storageTry trivial) fun _ => safeE_liftExcept _

theorem safeE_deletePassthroughIdempotent (ds f : String) :
    SafeE codec inst faults (deletePassthroughIdempotent ds f) := by
  unfold deletePassthroughIdempotent
  exact safeE_bind (safeE_storageTry trivial) fun _ => safeE_liftExcept _

theorem safeE_storePassthrough {ctx : StoreContext} (hf : ctx.objKey.filename ≠ "reference.bin") :
    SafeE codec inst faults (storePassthrough ctx) := by
  unfold storePassthrough
  exact safeE_bind (safeE_localCall trivial) fun _ =>
    safeE_bind (safeE_storageCall hf) fun _ => safeE_pure _

theorem safeE_resolveObjectMetadata (ds name : String) :
    SafeE codec inst faults (resolveObjectMetadata ds name) := by
  unfold resolveObjectMetadata
  refine safeE_bind (safeE_storageTry trivial) fun _ => safeE_bind (safeE_storageTry trivial) fun _ => ?_
  exact safeE_bind (safeE_liftExcept _) fun _ => safeE_bind (safeE_liftExcept _) fun _ => safeE_pure _

theorem safeE_deleteSiblingVariantBestEffort (ds f : String) (deleteDelta : Bool) :
    SafeE codec inst faults (deleteSiblingVariantBestEffort ds f deleteDelta) := by
  unfold deleteSiblingVariantBestEffort
  exact safeE_bestEffort (safeE_ite (safeE_storageCall trivial) (safeE_storageCall trivial))

/-- The filename of a key accepted for a PUT is not the reserved one. -/
theorem filename_ne_reserved {key : String} {o : ObjectKey} {ds : String}
    (h : validatedKeyIngest key = .ok (o, ds)) : o.filename ≠ "reference.bin" :=
  (ObjectKey.validateObject_filename (validatedKeyIngest_ok h).2.2).2.2.1

theorem safeE_ensureWithinPassthroughCeiling (cfg : EngineConfig) (n : Nat) :
    SafeE codec inst faults (ensureWithinPassthroughCeiling cfg n) := by
  unfold ensureWithinPassthroughCeiling
  exact safeE_ite (safeE_throw _) (safeE_pure _)

/-- The tail every passthrough sink shares, under the prefix lock. -/
theorem safeE_putPassthroughLocked {ds f : String} (hf : f ≠ "reference.bin") (data : List UInt8)
    (metadata : Int → FileMetadata) (result : Int → StoreResult) :
    SafeE codec inst faults (withPrefixLock ds (do
      let now ← localCall .now
      storageCall (.putPassthrough ds f data (metadata now))
      bestEffort (deleteDeltaIdempotent ds f)
      pure (result now))) :=
  safeE_withPrefixLock (safeE_bind (safeE_localCall trivial) fun _ =>
    safeE_bind (safeE_storageCall hf) fun _ =>
      safeE_bind (safeE_bestEffort (safeE_deleteDeltaIdempotent _ _)) fun _ => safeE_pure _)

theorem safeE_checkRelayedSize (checkObserved : Bool) (observed totalSize : Nat) :
    SafeE codec inst faults (checkRelayedSize checkObserved observed totalSize) := by
  unfold checkRelayedSize
  exact safeE_ite (safeE_bind (safeE_codecCall _) fun _ => safeE_ite (safeE_throw _) (safeE_pure _))
    (safeE_pure _)

theorem safeE_storePassthroughSink (cfg : EngineConfig) (key : String) (data : List UInt8)
    (totalSize : Nat) (contentType : Option String) (userMetadata : UserMeta)
    (multipartEtag : Option String) (checkObserved : Bool) :
    SafeE codec inst faults (storePassthroughSink cfg key data totalSize contentType userMetadata
      multipartEtag checkObserved) := by
  unfold storePassthroughSink
  refine safeE_bind (safeE_ensureWithinPassthroughCeiling cfg totalSize) fun _ => ?_
  refine safeE_liftExcept_bind fun ⟨o, ds⟩ hk => ?_
  exact safeE_bind (safeE_checkRelayedSize _ _ _) fun _ =>
    safeE_putPassthroughLocked (filename_ne_reserved hk) _ _ _

theorem safeE_finishPassthroughMultipart (cfg : EngineConfig) (key : String)
    (parts : List (List UInt8)) (totalSize : Nat) (contentType : Option String)
    (userMetadata : UserMeta) (sha256 md5 : String) (multipartEtag : Option String) :
    SafeE codec inst faults (finishPassthroughMultipart cfg key parts totalSize contentType userMetadata
      sha256 md5 multipartEtag) := by
  unfold finishPassthroughMultipart
  refine safeE_bind (safeE_ensureWithinPassthroughCeiling cfg totalSize) fun _ => ?_
  exact safeE_liftExcept_bind fun ⟨o, ds⟩ hk => safeE_putPassthroughLocked (filename_ne_reserved hk) _ _ _

theorem safeE_unmanagedMetadata (ds : String) (o : ObjectKey) :
    SafeE codec inst faults (unmanagedMetadata ds o) := by
  unfold unmanagedMetadata
  refine safeE_bind (safeE_storageTry trivial) fun r => ?_
  rcases r with (_ | _) | _
  all_goals first
    | exact safeE_throw _
    | exact safeE_pure _
    | exact safeE_bind (safeE_localCall trivial) fun _ => safeE_pure _

theorem safeE_tryUnmanagedPassthrough (ds : String) (o : ObjectKey) :
    SafeE codec inst faults (tryUnmanagedPassthrough ds o) := by
  unfold tryUnmanagedPassthrough
  refine safeE_bind (safeE_unmanagedMetadata ds o) fun _ => ?_
  refine safeE_bind (safeE_storageTry trivial) fun r => ?_
  rcases r with (_ | _) | _ <;> first | exact safeE_throw _ | exact safeE_pure _

theorem safeE_head (key : String) : SafeE codec inst faults (head key) := by
  unfold head
  refine safeE_liftExcept_bind fun ⟨o, ds⟩ _ => ?_
  refine safeE_bind (safeE_resolveObjectMetadata _ _) fun m => ?_
  rcases m with _ | m
  · refine safeE_bind (safeE_storageTry trivial) fun r => ?_
    rcases r with (_ | _) | _ <;> first | exact safeE_throw _ | exact safeE_pure _
  · exact safeE_pure _

end Safe

/-! ## The writes that need an argument -/

section Writes

variable {inst : Nat} {s : EngineState}

/-- Setting `ds`'s reference to `o` keeps the invariant when the deltas of
`ds` and this instance's cache entry for `ds` agree with `o`. -/
theorem RefInv.setReference (h : RefInv inst s) (ds : String) (o : Option StoredObject)
    (hdeltas : ∀ f d, (s.objects ds).deltas.lookup f = some d → ∃ r, o = some r ∧ d.base = r.data)
    (hcache : ∀ b, s.referenceCache inst ds = some b → ∃ r, o = some r ∧ r.data = b) :
    RefInv inst
      { s with objects := StorageCall.modify s.objects ds fun d => { d with reference := o } } where
  deltasMatch := by
    intro ds' f d hd
    simp only [StorageCall.modify_view Deltaspace.deltas (fun d => { d with reference := o }) (fun _ => rfl)] at hd
    by_cases hds : ds' = ds
    · subst hds
      simp only [StorageCall.modify_self]
      exact hdeltas f d hd
    · simp only [StorageCall.modify_of_ne _ _ hds]
      exact h.deltasMatch ds' f d hd
  cacheSound := by
    intro ds' b hb
    by_cases hds : ds' = ds
    · subst hds
      simp only [StorageCall.modify_self]
      exact hcache b hb
    · simp only [StorageCall.modify_of_ne _ _ hds]
      exact h.cacheSound ds' b hb
  deltasTagged := by
    intro ds' f d hd
    simp only [StorageCall.modify_view Deltaspace.deltas (fun d => { d with reference := o }) (fun _ => rfl)] at hd
    exact h.deltasTagged ds' f d hd
  noReservedPassthrough := by
    intro ds'
    simp only [StorageCall.modify_view Deltaspace.passthroughs (fun d => { d with reference := o }) (fun _ => rfl)]
    exact h.noReservedPassthrough ds'

/-- What a lookup sees after a delta write: the new delta, or an old one. -/
theorem lookup_after_putDelta {objs : Objects} {ds f ds' f' : String} {x d : DeltaObject}
    (h : (StorageCall.modify objs ds (fun d => { d with deltas := d.deltas.insert f x }) ds').deltas.lookup
      f' = some d) :
    (ds' = ds ∧ f' = f ∧ d = x) ∨ (objs ds').deltas.lookup f' = some d := by
  by_cases hds : ds' = ds
  · subst hds
    simp only [StorageCall.modify_self] at h
    by_cases hf : f' = f
    · subst hf
      rw [AList.lookup_insert] at h
      exact .inl ⟨rfl, rfl, (Option.some.inj h).symm⟩
    · rw [AList.lookup_insert_ne hf] at h
      exact .inr h
  · rw [StorageCall.modify_of_ne _ _ hds] at h
    exact .inr h

/-- A delta encoded against the stored reference, and not tagged as one,
keeps the invariant. -/
theorem RefInv.putDelta (h : RefInv inst s) {ds f : String} {delta base : List UInt8}
    {md : FileMetadata} {r : StoredObject} (href : (s.objects ds).reference = some r)
    (hbase : base = r.data) (hmd : md.isReference = false) :
    RefInv inst { s with objects := StorageCall.modify s.objects ds fun d =>
      { d with deltas := d.deltas.insert f ⟨delta, md, base⟩ } } where
  deltasMatch := by
    intro ds' f' d hd
    simp only [StorageCall.modify_view Deltaspace.reference (fun d => { d with deltas := d.deltas.insert f ⟨delta, md, base⟩ }) (fun _ => rfl)]
    rcases lookup_after_putDelta hd with ⟨rfl, -, rfl⟩ | hd
    · exact ⟨r, href, hbase⟩
    · exact h.deltasMatch ds' f' d hd
  cacheSound := by
    intro ds' b hb
    simp only [StorageCall.modify_view Deltaspace.reference (fun d => { d with deltas := d.deltas.insert f ⟨delta, md, base⟩ }) (fun _ => rfl)]
    exact h.cacheSound ds' b hb
  deltasTagged := by
    intro ds' f' d hd
    rcases lookup_after_putDelta hd with ⟨-, -, rfl⟩ | hd
    · exact hmd
    · exact h.deltasTagged ds' f' d hd
  noReservedPassthrough := by
    intro ds'
    simp only [StorageCall.modify_view Deltaspace.passthroughs (fun d => { d with deltas := d.deltas.insert f ⟨delta, md, base⟩ }) (fun _ => rfl)]
    exact h.noReservedPassthrough ds'

/-- Caching the stored reference's bytes keeps the invariant. -/
theorem RefInv.cachePut (h : RefInv inst s) {ds : String} {r : StoredObject}
    (href : (s.objects ds).reference = some r) : RefInv inst (s.setCache inst ds (some r.data)) where
  deltasMatch := h.deltasMatch
  cacheSound := by
    intro ds' b hb
    simp only [EngineState.setCache, Function.update_self] at hb
    by_cases hds : ds' = ds
    · subst hds
      simp only [Function.update_self, Option.some.injEq] at hb
      exact ⟨r, href, hb⟩
    · rw [Function.update_of_ne hds] at hb
      exact h.cacheSound ds' b hb
  deltasTagged := h.deltasTagged
  noReservedPassthrough := h.noReservedPassthrough

/-- Writing back the stored reference's own bytes keeps the invariant. -/
theorem RefInv.rewriteReference (h : RefInv inst s) {ds : String} {o : StoredObject}
    (ho : (s.objects ds).reference = some o) (md : FileMetadata) :
    RefInv inst { s with objects := (StorageCall.modify s.objects ds
      fun d => { d with reference := some ⟨o.data, md⟩ }) } := by
  refine h.setReference ds _ (fun f d hd => ?_) fun b hb => ?_
  · obtain ⟨r, hr, hbase⟩ := h.deltasMatch ds f d hd
    rw [ho] at hr
    cases hr
    exact ⟨_, rfl, hbase⟩
  · obtain ⟨r, hr, hrb⟩ := h.cacheSound ds b hb
    rw [ho] at hr
    cases hr
    exact ⟨_, rfl, hrb⟩

/-- Where there is no reference there is no delta and no cache entry, so any
bytes may become the reference. -/
theorem RefInv.freshReference (h : RefInv inst s) {ds : String}
    (hnone : (s.objects ds).reference = none) (o : StoredObject) :
    RefInv inst { s with objects := (StorageCall.modify s.objects ds
      fun d => { d with reference := some o }) } := by
  refine h.setReference ds _ (fun f d hd => ?_) fun b hb => ?_
  · rw [h.noDeltas hnone f] at hd
    cases hd
  · obtain ⟨r, hr, -⟩ := h.cacheSound ds b hb
    rw [hnone] at hr
    cases hr

/-- A reference with no delta and no cache entry may go. -/
theorem RefInv.dropReference (h : RefInv inst s) {ds : String} (hnd : NoDeltas s.objects ds)
    (hc : s.referenceCache inst ds = none) :
    RefInv inst { s with objects := (StorageCall.modify s.objects ds
      fun d => { d with reference := none }) } := by
  refine h.setReference ds _ (fun f d hd => ?_) fun b hb => ?_
  · rw [hnd f] at hd
    cases hd
  · rw [hc] at hb
    cases hb

/-- A scan that lists no object finds no delta. -/
theorem RefInv.noDeltas_of_scan (h : RefInv inst s) {ds : String}
    (hscan : hasObjects (s.objects ds).scan = false) : NoDeltas s.objects ds := by
  intro f
  cases hf : (s.objects ds).deltas.lookup f with
  | none => rfl
  | some d =>
    have hmem : d.metadata ∈ (s.objects ds).scan := Deltaspace.mem_scan_of_delta hf
    have htag : d.metadata.isReference = false := h.deltasTagged ds f d hf
    have : hasObjects (s.objects ds).scan = true :=
      List.any_eq_true.mpr ⟨d.metadata, hmem, by simp [htag]⟩
    rw [hscan] at this
    cases this

end Writes

/-! ## Programs that keep a property -/

section Keeps

variable {codec : DeltaCodec} {inst : Nat} {faults : FaultModel} {α β : Type}
  {P : EngineState → Prop}

/-- Every run of `x` from a state satisfying `P` ends in one. -/
def Keeps (codec : DeltaCodec) (inst : Nat) (faults : FaultModel) (P : EngineState → Prop)
    (x : EngineM α) : Prop :=
  ∀ s, P s → wpE codec inst faults x (fun _ s' => P s') s

/-- A safe program in front of `f`: a stable property true before holds when
`f` starts, and on the safe program's error. -/
theorem wpE_safeE_bind {x : EngineM α} {f : α → EngineM β}
    {Q : Except EngineError β → EngineState → Prop} (hx : SafeE codec inst faults x) (hP : Stable inst P)
    {s : EngineState} (hs : P s) (herr : ∀ e s', P s' → Q (.error e) s')
    (hf : ∀ a s', P s' → wpE codec inst faults (f a) Q s') : wpE codec inst faults (x >>= f) Q s := by
  rw [wpE_bind]
  refine hx.mono fun r s₁ h₁ => ?_
  cases r with
  | ok a => exact hf a s₁ (hP s s₁ h₁ hs)
  | error e => exact herr e s₁ (hP s s₁ h₁ hs)

theorem keeps_bind {x : EngineM α} {f : α → EngineM β} (hx : Keeps codec inst faults P x)
    (hf : ∀ a, Keeps codec inst faults P (f a)) : Keeps codec inst faults P (x >>= f) := by
  intro s hs
  rw [wpE_bind]
  refine wpE_mono ?_ (hx s hs)
  intro r s₁ h₁
  cases r with
  | ok a => exact hf a s₁ h₁
  | error e => exact h₁

theorem keeps_liftExcept_bind {r : Except EngineError α} {f : α → EngineM β}
    (hf : ∀ a, r = .ok a → Keeps codec inst faults P (f a)) : Keeps codec inst faults P (liftExcept r >>= f) := by
  intro s hs
  rw [wpE_bind, wpE_liftExcept]
  cases r with
  | ok a => exact hf a rfl s hs
  | error e => exact hs

theorem keeps_ite {c : Prop} [Decidable c] {x y : EngineM α} (hx : Keeps codec inst faults P x)
    (hy : Keeps codec inst faults P y) : Keeps codec inst faults P (if c then x else y) := by
  split
  · exact hx
  · exact hy

theorem keeps_discardE {x : EngineM α} (hx : Keeps codec inst faults P x) :
    Keeps codec inst faults P (discardE x) := by
  intro s hs
  rw [wpE_discardE]
  exact hx s hs

theorem SafeE.keeps {x : EngineM α} (hx : SafeE codec inst faults x) (hP : Stable inst P) :
    Keeps codec inst faults P x :=
  fun _ hs => hx.stable hP hs

theorem keeps_withPrefixLock {ds : String} {body : EngineM α} (hP : Stable inst P)
    (hb : Keeps codec inst faults P body) : Keeps codec inst faults P (withPrefixLock ds body) := by
  intro s hs
  refine wpE_withPrefixLock_of fun s₁ h₁ => ?_
  exact wpE_mono (fun r s₂ h₂ s₃ h₃ => hP s₂ s₃ h₃ h₂) (hb s₁ (hP s s₁ h₁ hs))

theorem keeps_withReferenceLock {cfg : EngineConfig} {ds : String} {body : EngineM α}
    (hP : Stable inst P) (hb : Keeps codec inst faults P body) :
    Keeps codec inst faults P (withReferenceLock cfg ds body) := by
  intro s hs
  refine wpE_withReferenceLock_of (fun e s₁ h₁ => hP s s₁ h₁ hs) fun s₁ h₁ => ?_
  exact wpE_mono (fun r s₂ h₂ s₃ h₃ => hP s₂ s₃ h₃ h₂) (hb s₁ (hP s s₁ h₁ hs))

end Keeps

/-! ## The helpers that write the reference, a delta or the cache -/

section Specs

variable {codec : DeltaCodec} {inst : Nat} {faults : FaultModel}

theorem referenceReadResult_ok {ds : String} {r : Except StorageError (List UInt8)}
    {b : List UInt8} (h : referenceReadResult ds r = .ok b) : r = .ok b := by
  unfold referenceReadResult at h
  split at h
  · cases h
    rfl
  all_goals cases h

/-- `get_reference_cached` changes no object and keeps the invariant, and the
bytes it returns are the stored reference's. -/
theorem wpE_getReferenceCached (cfg : EngineConfig) (ds : String) {s : EngineState}
    (h : RefInv inst s) :
    wpE codec inst .atomic (getReferenceCached cfg ds) (fun r s' => RefInv inst s' ∧ s'.objects = s.objects ∧
      ∀ b cached, r = .ok (b, cached) → ∃ o, (s.objects ds).reference = some o ∧ o.data = b) s := by
  unfold getReferenceCached
  rw [wpE_bind]
  refine wpE_cacheGet_of fun v hv => ?_
  rcases v with _ | b
  · -- a miss: read the reference and its metadata, check, cache
    simp only [thenE_ok]
    rw [wpE_bind]
    refine wpE_storageTry_getReference fun dr hdr => ?_
    simp only [thenE_ok]
    rw [wpE_bind]
    refine wpE_storageTry_any (by trivial) fun mr => ?_
    simp only [thenE_ok]
    rw [wpE_bind, wpE_liftExcept]
    cases hread : referenceReadResult ds dr with
    | error e => exact ⟨h, rfl, fun _ _ hb => by cases hb⟩
    | ok b =>
      obtain ⟨o, ho, rfl⟩ := hdr b (referenceReadResult_ok hread)
      simp only [thenE_ok]
      rw [wpE_bind, wpE_liftExcept]
      cases checkReferenceIntegrity cfg ds o.data mr with
      | error e => exact ⟨h, rfl, fun _ _ hb => by cases hb⟩
      | ok u =>
        simp only [thenE_ok]
        rw [wpE_bind, wpE_cachePut]
        simp only [thenE_ok, wpE_pure]
        refine ⟨h.cachePut ho, by trivial, ?_⟩
        rintro b' c ⟨⟩
        exact ⟨o, ho, rfl⟩
  · -- a hit answers the cached bytes, which the invariant ties to the stored ones
    simp only [thenE_ok, wpE_pure]
    refine ⟨h, by trivial, ?_⟩
    rintro b' c ⟨⟩
    exact h.cacheSound ds b (hv b rfl)

/-- What the buffered path keeps while the reference it may have created is
fresh: the invariant, and no delta in that deltaspace. -/
def FreshInv (inst : Nat) (hasExisting : Bool) (ds : String) (s : EngineState) : Prop :=
  RefInv inst s ∧ (hasExisting = false → NoDeltas s.objects ds)

theorem stable_freshInv (inst : Nat) (hasExisting : Bool) (ds : String) :
    Stable inst (FreshInv inst hasExisting ds) :=
  fun s s' hs h => ⟨h.1.of_shrinks hs, fun hfresh => stable_noDeltas inst ds s s' hs (h.2 hfresh)⟩

theorem freshInv_true {s : EngineState} {ds : String} (h : RefInv inst s) : FreshInv inst true ds s :=
  ⟨h, fun hfalse => Bool.noConfusion hfalse⟩

/-- After the encode path: the invariant on a success; on an error also what
the rollback needs. -/
def EncodeOutcome (inst : Nat) (hasExisting : Bool) (ds : String) {α : Type} :
    Except EngineError α → EngineState → Prop
  | .ok _, s => RefInv inst s
  | .error _, s => FreshInv inst hasExisting ds s

theorem FreshInv.outcome {hasExisting : Bool} {ds : String} {s : EngineState} {α : Type}
    (h : FreshInv inst hasExisting ds s) (r : Except EngineError α) :
    EncodeOutcome inst hasExisting ds r s := by
  cases r with
  | error e => exact h
  | ok a => exact h.1

/-- A heal writes back the bytes it has just read. -/
theorem wpE_healReferenceIfCorrupt (cfg : EngineConfig) (ds : String) (refMeta : FileMetadata)
    {s : EngineState} (h : RefInv inst s) :
    wpE codec inst .atomic (healReferenceIfCorrupt cfg ds refMeta) (fun _ s' => RefInv inst s') s := by
  unfold healReferenceIfCorrupt
  split
  · exact h
  · refine wpE_codecCall_bind (fun _ => h) fun _ => ?_
    rw [wpE_bind]
    refine wpE_storageCall_getReference (fun o ho => ?_) fun _ => h
    simp only [thenE_ok]
    refine wpE_codecCall_bind (fun _ => h) fun _ => ?_
    rw [wpE_bind, wpE_now]
    simp only [thenE_ok]
    rw [wpE_bind, wpE_storageCall_putReference]
    have h₁ : RefInv inst { s with clock := s.clock + 1 } := h.of_shrinks (Shrinks.of_eq rfl rfl)
    refine ⟨?_, fun _ => h₁⟩
    simp only [thenE_ok]
    exact (safeE_bind (safeE_localCall (by trivial)) fun _ => safeE_pure _).stable (stable_refInv inst)
      (h₁.rewriteReference ho _)

/-- A baseline written where there was no reference, then cached. -/
theorem RefInv.freshBaseline {s : EngineState} (h : RefInv inst s) {ds : String}
    (hnone : (s.objects ds).reference = none) (data : List UInt8) (md : FileMetadata) :
    RefInv inst (({ s with objects := (StorageCall.modify s.objects ds
      fun d => { d with reference := some ⟨data, md⟩ }) }).setCache inst ds (some data)) := by
  have href : (StorageCall.modify s.objects ds
      (fun d => { d with reference := some ⟨data, md⟩ }) ds).reference = some ⟨data, md⟩ := by
    rw [StorageCall.modify_self]
  exact (h.freshReference hnone ⟨data, md⟩).cachePut href

/-- `set_reference_baseline` runs where there is no reference, so no delta,
and writes none. -/
theorem wpE_setReferenceBaseline (ctx : StoreContext) {s : EngineState} (h : RefInv inst s)
    (hnone : (s.objects ctx.deltaspaceId).reference = none) :
    wpE codec inst .atomic (setReferenceBaseline ctx) (fun _ s' => FreshInv inst false ctx.deltaspaceId s') s := by
  have hnd : NoDeltas s.objects ctx.deltaspaceId := h.noDeltas hnone
  have h₁ : RefInv inst { s with clock := s.clock + 1 } := h.of_shrinks (Shrinks.of_eq rfl rfl)
  unfold setReferenceBaseline
  rw [wpE_bind, wpE_now]
  simp only [thenE_ok]
  rw [wpE_bind, wpE_storageCall_putReference]
  refine ⟨?_, fun _ => ⟨h₁, fun _ => hnd⟩⟩
  simp only [thenE_ok]
  rw [wpE_bind, wpE_cachePut]
  simp only [thenE_ok, wpE_pure]
  refine ⟨h₁.freshBaseline hnone _ _, fun _ f => ?_⟩
  -- the write touched the reference only
  simp only [EngineState.setCache,
    StorageCall.modify_view Deltaspace.deltas (fun d => { d with reference := some _ }) (fun _ => rfl)]
  exact hnd f

/-- The rollback and the teardown delete a reference only while it is fresh:
no delta was written against it. -/
theorem wpE_discardFreshReference (hasExisting : Bool) (ds : String) {s : EngineState}
    (h : FreshInv inst hasExisting ds s) :
    wpE codec inst .atomic (discardFreshReference hasExisting ds)
      (fun _ s' => FreshInv inst hasExisting ds s') s := by
  unfold discardFreshReference
  split
  · next hfresh =>
    have hnd : NoDeltas s.objects ds := h.2 (by simpa using hfresh)
    have h₁ : RefInv inst (s.setCache inst ds none) :=
      h.1.of_shrinks (shrinks_localStep (.cacheInvalidate ds s) trivial)
    rw [wpE_bind, wpE_cacheInvalidate]
    simp only [thenE_ok]
    rw [wpE_bestEffort]
    refine wpE_storageCall_deleteReference ⟨?_, fun _ f => ?_⟩ fun _ => ⟨h₁, fun _ => hnd⟩
    · exact h₁.dropReference hnd (by simp [EngineState.setCache])
    · simp only [StorageCall.modify_view Deltaspace.deltas (fun d => { d with reference := none })
        (fun _ => rfl)]
      exact hnd f
  · exact h

/-- `commit_delta_or_passthrough` writes its delta against the bytes it was
encoded with; on a lost ratio it writes no delta and tears a fresh reference
down. -/
theorem wpE_commitDeltaOrPassthrough (cfg : EngineConfig) (ctx : StoreContext)
    (refMeta : FileMetadata) (hasExisting : Bool) (reference delta : List UInt8) (ratio : ℚ)
    {s : EngineState} (h : FreshInv inst hasExisting ctx.deltaspaceId s)
    (hf : ctx.objKey.filename ≠ "reference.bin")
    (href : ∃ o, (s.objects ctx.deltaspaceId).reference = some o ∧ o.data = reference) :
    wpE codec inst .atomic (commitDeltaOrPassthrough cfg ctx refMeta hasExisting reference delta ratio)
      (EncodeOutcome inst hasExisting ctx.deltaspaceId) s := by
  have hP := stable_freshInv inst hasExisting ctx.deltaspaceId
  unfold commitDeltaOrPassthrough
  split
  · -- the ratio loses: every step keeps `FreshInv`
    refine wpE_safeE_bind (safeE_storePassthrough hf) hP h (fun _ _ h' => h') fun _ s₁ h₁ => ?_
    refine wpE_safeE_bind (safeE_bestEffort (safeE_deleteDeltaIdempotent _ _)) hP h₁
      (fun _ _ h' => h') fun _ s₂ h₂ => ?_
    rw [wpE_bind]
    refine wpE_mono (fun r s₃ h₃ => ?_) (wpE_discardFreshReference hasExisting _ h₂)
    cases r with
    | error e => exact h₃
    | ok u => exact h₃.1
  · -- the delta is kept, with the reference bytes as its base
    obtain ⟨o, ho, rfl⟩ := href
    have h₁ : FreshInv inst hasExisting ctx.deltaspaceId { s with clock := s.clock + 1 } :=
      hP s _ (Shrinks.of_eq rfl rfl) h
    rw [wpE_bind, wpE_now]
    simp only [thenE_ok]
    rw [wpE_bind, wpE_storageCall_putDelta]
    refine ⟨?_, fun _ => h₁⟩
    simp only [thenE_ok]
    rw [wpE_bind, wpE_bestEffort]
    exact (safeE_deletePassthroughIdempotent _ _).mono fun _ s₃ h₃ =>
      RefInv.of_shrinks (h₁.1.putDelta ho rfl (deltaMetadata_isReference _ _ _ _ _ _ _ _ _ _)) h₃

/-- `encode_and_store` encodes against `get_reference_cached`'s bytes, which
are the stored reference's. -/
theorem wpE_encodeAndStore (cfg : EngineConfig) (ctx : StoreContext) (refMeta : FileMetadata)
    (hasExisting : Bool) {s : EngineState} (h : FreshInv inst hasExisting ctx.deltaspaceId s)
    (hf : ctx.objKey.filename ≠ "reference.bin") :
    wpE codec inst .atomic (encodeAndStore cfg ctx refMeta hasExisting)
      (EncodeOutcome inst hasExisting ctx.deltaspaceId) s := by
  unfold encodeAndStore
  rw [wpE_bind]
  refine wpE_mono (fun r s₁ h₁ => ?_) (wpE_getReferenceCached cfg ctx.deltaspaceId h.1)
  obtain ⟨hinv, hobj, hbytes⟩ := h₁
  have hfresh : FreshInv inst hasExisting ctx.deltaspaceId s₁ :=
    ⟨hinv, fun hfr => hobj ▸ h.2 hfr⟩
  cases r with
  | error e => exact hfresh
  | ok p =>
    obtain ⟨reference, cached⟩ := p
    obtain ⟨o, ho, hdata⟩ := hbytes reference cached rfl
    simp only [thenE_ok]
    refine wpE_codecCall_bind (fun _ => hfresh) fun delta => ?_
    exact wpE_commitDeltaOrPassthrough cfg ctx refMeta hasExisting reference delta _ hfresh hf
      ⟨o, hobj ▸ ho, hdata⟩

/-- The reference step of the buffered path: a heal, or a baseline where
`has_reference` said there is none. -/
theorem wpE_prepareReference (cfg : EngineConfig) (ctx : StoreContext) {s : EngineState}
    (h : RefInv inst s) :
    wpE codec inst .atomic (prepareReference cfg ctx (s.objects ctx.deltaspaceId).reference.isSome)
      (fun _ s' => FreshInv inst (s.objects ctx.deltaspaceId).reference.isSome ctx.deltaspaceId s') s := by
  unfold prepareReference
  cases hr : (s.objects ctx.deltaspaceId).reference with
  | none => exact wpE_setReferenceBaseline ctx h hr
  | some o =>
    rw [Option.isSome_some, if_pos rfl, wpE_bind]
    refine wpE_storageCall_any (by trivial) fun r => ?_
    cases r with
    | error e => exact freshInv_true h
    | ok m =>
      simp only [thenE_ok]
      exact wpE_mono (fun _ _ h' => freshInv_true h') (wpE_healReferenceIfCorrupt cfg _ m h)

/-- The delta path of `store_inner` keeps the invariant, whichever step
fails. -/
theorem wpE_storeDeltaLocked (cfg : EngineConfig) (ctx : StoreContext) {s : EngineState}
    (h : RefInv inst s) (hf : ctx.objKey.filename ≠ "reference.bin") :
    wpE codec inst .atomic (storeDeltaLocked cfg ctx) (fun _ s' => RefInv inst s') s := by
  unfold storeDeltaLocked
  rw [wpE_bind]
  refine (wpE_storageCall_read (by trivial) _ s).mpr ⟨?_, fun _ => h⟩
  simp only [StorageCall.perform, Except.mapError, thenE_ok]
  rw [wpE_bind]
  refine wpE_mono (fun r s₁ h₁ => ?_) (wpE_prepareReference cfg ctx h)
  cases r with
  | error e => exact h₁.1
  | ok refMeta =>
    simp only [thenE_ok]
    rw [wpE_tryCatch]
    refine wpE_mono (fun r s₂ h₂ => ?_) (wpE_encodeAndStore cfg ctx refMeta _ h₁ hf)
    cases r with
    | ok res => exact h₂
    | error e =>
      -- the rollback: a fresh reference goes, no delta having been written against it
      simp only [catchE_error]
      rw [wpE_bind]
      refine wpE_mono (fun r s₃ h₃ => ?_) (wpE_discardFreshReference _ _ h₂)
      cases r with
      | error e' => exact h₃.1
      | ok u => exact h₃.1

/-- The reference step of the streaming path: a heal, or the spooled body as
baseline where `has_reference` said there is none. -/
theorem wpE_spooledReference (cfg : EngineConfig) (ds : String) (objKey : ObjectKey)
    (body : List UInt8) (size : Nat) (sha256 md5 : String) (contentType : Option String)
    {s : EngineState} (h : RefInv inst s) :
    wpE codec inst .atomic (spooledReference cfg ds objKey body size sha256 md5 contentType
      (s.objects ds).reference.isSome) (fun _ s' => RefInv inst s') s := by
  unfold spooledReference
  cases hr : (s.objects ds).reference with
  | some o =>
    rw [Option.isSome_some, if_pos rfl, wpE_bind]
    refine wpE_storageCall_any (by trivial) fun r => ?_
    cases r with
    | error e => exact h
    | ok m =>
      simp only [thenE_ok]
      rw [wpE_discardE]
      exact wpE_healReferenceIfCorrupt cfg ds m h
  | none =>
    have h₁ : RefInv inst { s with clock := s.clock + 1 } := h.of_shrinks (Shrinks.of_eq rfl rfl)
    rw [Option.isSome_none, if_neg Bool.false_ne_true, wpE_bind, wpE_now]
    simp only [thenE_ok]
    rw [wpE_bind, wpE_storageCall_putReferenceFromFile]
    refine ⟨?_, fun _ => h₁⟩
    simp only [thenE_ok]
    exact (safeE_localCall (by trivial)).stable (stable_refInv inst) (h₁.freshReference hr _)

/-- `commit_streamed_delta` writes its delta against the bytes it was
encoded with. -/
theorem wpE_commitStreamedDelta (ds : String) (objKey : ObjectKey) (reference delta : List UInt8)
    (size : Nat) (sha256 md5 : String) (contentType : Option String) (userMetadata : UserMeta)
    (multipartEtag : Option String) {s : EngineState} (h : RefInv inst s)
    (href : ∃ o, (s.objects ds).reference = some o ∧ o.data = reference) :
    wpE codec inst .atomic (commitStreamedDelta ds objKey reference delta size sha256 md5 contentType
      userMetadata multipartEtag) (fun _ s' => RefInv inst s') s := by
  obtain ⟨o, ho, rfl⟩ := href
  have h₁ : RefInv inst { s with clock := s.clock + 1 } := h.of_shrinks (Shrinks.of_eq rfl rfl)
  unfold commitStreamedDelta
  rw [wpE_bind]
  refine wpE_storageCall_any (by trivial) fun r => ?_
  cases r with
  | error e => exact h
  | ok refMeta =>
    simp only [thenE_ok]
    rw [wpE_bind, wpE_now]
    simp only [thenE_ok]
    rw [wpE_bind, wpE_storageCall_putDelta]
    refine ⟨?_, fun _ => h₁⟩
    simp only [thenE_ok]
    exact (safeE_bind (safeE_bestEffort (safeE_deletePassthroughIdempotent _ _)) fun _ =>
      safeE_pure _).stable (stable_refInv inst)
      (h₁.putDelta ho rfl (deltaMetadata_isReference _ _ _ _ _ _ _ _ _ _))

/-- The streaming path encodes against the bytes it reads back after the
reference step. -/
theorem keeps_spooledDeltaLocked (cfg : EngineConfig) (ds : String) (objKey : ObjectKey)
    (body : List UInt8) (size : Nat) (sha256 md5 : String) (contentType : Option String)
    (userMetadata : UserMeta) (multipartEtag : Option String) :
    Keeps codec inst .atomic (RefInv inst) (spooledDeltaLocked cfg ds objKey body size sha256 md5
      contentType userMetadata multipartEtag) := by
  intro s h
  unfold spooledDeltaLocked
  rw [wpE_bind]
  refine (wpE_storageCall_read (by trivial) _ s).mpr ⟨?_, fun _ => h⟩
  simp only [StorageCall.perform, Except.mapError, thenE_ok]
  rw [wpE_bind]
  refine wpE_mono (fun r s₁ h₁ => ?_) (wpE_spooledReference cfg ds objKey body size sha256 md5
    contentType h)
  cases r with
  | error e => exact h₁
  | ok u =>
    simp only [thenE_ok]
    refine wpE_codecCall_bind (fun _ => h₁) fun _ => ?_
    rw [wpE_bind]
    refine wpE_storageCall_getReference (fun o ho => ?_) fun _ => h₁
    simp only [thenE_ok]
    refine wpE_codecCall_bind (fun _ => h₁) fun outcome => ?_
    rcases outcome with _ | delta
    · exact h₁
    · refine wpE_codecCall_bind (fun _ => h₁) fun _ => ?_
      rw [wpE_bind]
      refine wpE_mono (fun r s₂ h₂ => ?_) (wpE_commitStreamedDelta ds objKey o.data delta size
        sha256 md5 contentType userMetadata multipartEtag h₁ ⟨o, ho, rfl⟩)
      cases r with
      | error e => exact h₂
      | ok res => exact h₂

theorem keeps_storeInner (cfg : EngineConfig) (key : String) (data : List UInt8)
    (contentType : Option String) (userMetadata : UserMeta) (multipartEtag : Option String) :
    Keeps codec inst .atomic (RefInv inst) (storeInner cfg key data contentType userMetadata multipartEtag) := by
  have hP := stable_refInv inst
  unfold storeInner
  refine keeps_ite ((safeE_throw _).keeps hP) (keeps_liftExcept_bind fun ⟨o, ds⟩ hk => ?_)
  have hf := filename_ne_reserved hk
  refine keeps_ite ?_ ?_
  · exact (safeE_withPrefixLock (safeE_bind (safeE_storePassthrough hf) fun _ =>
      safeE_bind (safeE_bestEffort (safeE_deleteDeltaIdempotent _ _)) fun _ =>
        safeE_pure _)).keeps hP
  · exact keeps_withPrefixLock hP (keeps_withReferenceLock hP fun s h =>
      wpE_storeDeltaLocked cfg _ h hf)

theorem safeE_storePassthroughFileWithMultipartEtag (cfg : EngineConfig) (key : String)
    (body : List UInt8) (totalSize : Nat) (contentType : Option String) (userMetadata : UserMeta)
    (multipartEtag : String) :
    SafeE codec inst faults (storePassthroughFileWithMultipartEtag cfg key body totalSize contentType
      userMetadata multipartEtag) :=
  safeE_storePassthroughSink _ _ _ _ _ _ _ _

theorem keeps_storeSpooledDelta (cfg : EngineConfig) (key : String) (body : List UInt8)
    (size : Nat) (contentType : Option String) (userMetadata : UserMeta)
    (multipartEtag : Option String) :
    Keeps codec inst .atomic (RefInv inst) (storeSpooledDelta cfg key body size contentType userMetadata
      multipartEtag) := by
  have hP := stable_refInv inst
  unfold storeSpooledDelta
  refine keeps_liftExcept_bind fun ⟨o, ds⟩ _ => ?_
  refine keeps_ite ((safeE_throw _).keeps hP) ?_
  refine keeps_bind ((safeE_codecCall _).keeps hP) fun _ => ?_
  refine keeps_ite ((safeE_throw _).keeps hP) ?_
  unfold spooledStore
  refine keeps_ite ((safeE_storePassthroughFileWithMultipartEtag _ _ _ _ _ _ _).keeps hP) ?_
  refine keeps_bind (keeps_withPrefixLock hP (keeps_withReferenceLock hP
    (keeps_spooledDeltaLocked _ _ _ _ _ _ _ _ _ _))) fun outcome => ?_
  rcases outcome with _ | result
  · exact (safeE_storePassthroughFileWithMultipartEtag _ _ _ _ _ _ _).keeps hP
  · exact (safeE_pure _).keeps hP

/-! ### Deletes and reads -/

/-- The reclaim deletes the reference only after a scan that listed no
object, hence no delta. -/
theorem keeps_reclaimIfEmpty (ds : String) : Keeps codec inst .atomic (RefInv inst) (reclaimIfEmpty ds) := by
  intro s h
  unfold reclaimIfEmpty
  rw [wpE_bind]
  refine (wpE_storageCall_read (by trivial) _ s).mpr ⟨?_, fun _ => h⟩
  simp only [StorageCall.perform, Except.mapError, thenE_ok]
  split
  · exact h
  · next hempty =>
    have hnd := h.noDeltas_of_scan (by simpa using hempty)
    rw [wpE_bind]
    refine (wpE_storageCall_read (by trivial) _ s).mpr ⟨?_, fun _ => h⟩
    simp only [StorageCall.perform, Except.mapError, thenE_ok]
    split
    · rw [wpE_bind]
      refine wpE_storageCall_deleteReference ?_ fun _ => h
      simp only [thenE_ok]
      rw [wpE_cacheInvalidate]
      -- the reference goes, then its cache entry
      exact (h.of_shrinks (shrinks_localStep (.cacheInvalidate ds s) trivial)).dropReference hnd
        (by simp [EngineState.setCache])
    · exact h

theorem safeE_deleteResolvedVariant (ds f : String) (m : FileMetadata) :
    SafeE codec inst faults (deleteResolvedVariant ds f m) := by
  unfold deleteResolvedVariant
  split
  · exact safeE_bind (safeE_storageCall trivial) fun _ => safeE_deleteSiblingVariantBestEffort _ _ _
  · exact safeE_bind (safeE_storageCall trivial) fun _ => safeE_deleteSiblingVariantBestEffort _ _ _
  · exact safeE_throw _

theorem keeps_deleteInner (key : String) (reclaimReference : Bool) :
    Keeps codec inst .atomic (RefInv inst) (deleteInner key reclaimReference) := by
  have hP := stable_refInv inst
  unfold deleteInner
  refine keeps_liftExcept_bind fun ⟨o, ds⟩ _ => keeps_withPrefixLock hP ?_
  refine keeps_bind ((safeE_resolveObjectMetadata _ _).keeps hP) fun _ => ?_
  refine keeps_liftExcept_bind fun m _ => ?_
  refine keeps_bind ((safeE_deleteResolvedVariant _ _ _).keeps hP) fun _ => ?_
  exact keeps_bind (keeps_ite (keeps_reclaimIfEmpty ds) ((safeE_pure _).keeps hP)) fun _ =>
    (safeE_pure _).keeps hP

/-- The read fallback finds no passthrough `reference.bin`, so it caches
nothing. -/
theorem keeps_referenceOrFallback (ds : String) (r : Except EngineError (List UInt8 × Bool)) :
    Keeps codec inst .atomic (RefInv inst) (referenceOrFallback ds r) := by
  intro s h
  unfold referenceOrFallback
  split
  · exact h
  · rw [wpE_bind]
    refine wpE_storageTry_getPassthrough_absent (h.noReservedPassthrough ds) fun _ => ?_
    exact h
  · exact h

theorem keeps_reconstructDelta (cfg : EngineConfig) (ds : String) (objKey : ObjectKey)
    (m : FileMetadata) : Keeps codec inst .atomic (RefInv inst) (reconstructDelta cfg ds objKey m) := by
  have hP := stable_refInv inst
  intro s h
  unfold reconstructDelta
  rw [wpE_bind, wpE_liftRun]
  refine wpE_mono (fun r s₁ h₁ => ?_) (wpE_getReferenceCached cfg ds h)
  simp only [thenE_ok]
  refine (keeps_bind ?_ fun _ => keeps_bind (keeps_referenceOrFallback ds r) fun _ => ?_) s₁ h₁.1
  · exact (safeE_storageTry (by trivial)).keeps hP
  · exact keeps_liftExcept_bind fun _ _ =>
      keeps_ite ((safeE_throw _).keeps hP) ((safeE_codecCall _).keeps hP)

theorem keeps_retrieve (cfg : EngineConfig) (key : String) :
    Keeps codec inst .atomic (RefInv inst) (retrieve cfg key) := by
  have hP := stable_refInv inst
  unfold retrieve
  refine keeps_liftExcept_bind fun ⟨o, ds⟩ _ => ?_
  refine keeps_bind ((safeE_resolveObjectMetadata _ _).keeps hP) fun resolved => ?_
  rcases resolved with _ | m
  · exact (safeE_tryUnmanagedPassthrough _ _).keeps hP
  · dsimp only
    unfold retrieveWithMetadata
    split
    · exact (safeE_bind (safeE_storageCall (by trivial)) fun _ => safeE_pure _).keeps hP
    · refine keeps_bind ?_ fun _ => (safeE_pure _).keeps hP
      unfold retrieveBuffered readStored
      refine keeps_bind ?_ fun _ => keeps_ite ((safeE_bind (safeE_localCall (by trivial)) fun _ =>
        safeE_throw _).keeps hP) ((safeE_pure _).keeps hP)
      split
      · exact (safeE_storageCall (by trivial)).keeps hP
      · exact keeps_reconstructDelta cfg ds o m
      · exact (safeE_storageCall (by trivial)).keeps hP

/-- Every request keeps the invariant, whichever of its calls fail. -/
theorem keeps_request (cfg : EngineConfig) (req : Request) :
    Keeps codec inst .atomic (RefInv inst) (req.run cfg) := by
  have hP := stable_refInv inst
  cases req with
  | store key data ct um => exact keeps_discardE (keeps_storeInner cfg key data ct um none)
  | storeWithMultipartEtag key data ct um mpe =>
    exact keeps_discardE (keeps_storeInner cfg key data ct um (some mpe))
  | storeSpooledDelta key body size ct um mpe =>
    exact keeps_discardE (keeps_storeSpooledDelta cfg key body size ct um mpe)
  | storePassthroughChunked key chunks n ct um =>
    exact (safeE_discardE (safeE_storePassthroughSink _ _ _ _ _ _ _ _)).keeps hP
  | storePassthroughChunkedWithMultipartEtag key chunks n ct um mpe =>
    exact (safeE_discardE (safeE_storePassthroughSink _ _ _ _ _ _ _ _)).keeps hP
  | storePassthroughRelayedParts key parts n ct um mpe =>
    exact (safeE_discardE (safeE_storePassthroughSink _ _ _ _ _ _ _ _)).keeps hP
  | storePassthroughFile key body n ct um mpe =>
    exact (safeE_discardE (safeE_storePassthroughFileWithMultipartEtag _ _ _ _ _ _ _)).keeps hP
  | passthroughMultipart key parts n ct um sha md5 mpe =>
    exact (safeE_discardE (safeE_finishPassthroughMultipart _ _ _ _ _ _ _ _ _)).keeps hP
  | delete key => exact keeps_discardE (keeps_deleteInner key true)
  | deleteInSweep key => exact keeps_discardE (keeps_deleteInner key false)
  | reclaimEmptyDeltaspace ds => exact keeps_withPrefixLock hP (keeps_reclaimIfEmpty ds)
  | retrieve key => exact keeps_discardE (keeps_retrieve cfg key)
  | head key => exact (safeE_discardE (safeE_head key)).keeps hP

end Specs

/-- In every state one instance reaches by serving requests one at a time,
whichever of their calls fail, provided a failed storage call changes
nothing, every delta was encoded against the bytes its deltaspace's
`reference.bin` holds. -/
theorem reachable_deltasMatchReference {codec : DeltaCodec} {inst : Nat} {s : EngineState}
    (h : Reachable codec inst .atomic s) : DeltasMatchReference s.objects :=
  (@Reachable.induction codec inst .atomic (RefInv inst) (RefInv.init inst)
    (fun cfg req s hs => keeps_request cfg req s hs) s h).deltasMatch

end DeltaGlider.Engine
