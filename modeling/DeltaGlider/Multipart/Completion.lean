import DeltaGlider.Multipart.Store
import DeltaGlider.Lib.Trace

/-!
# The CompleteMultipartUpload registry

`begin_complete`, `publish_completion` and `clear_completion_slot` of
`src/multipart.rs`: per upload id, a slot that is `InFlight` while one
request (the `Owner`) runs the completion and `Done` once it stored the
object.  The owner holds a `CompletionPublisher`; publishing `Ok` leaves a
`Done` tombstone, publishing `Err` or dropping the publisher unpublished
clears the slot.

The registry runs with the publishers alive at each moment
(`CompletionWorld`).  `completion_fingerprint` is a hash of the part list;
every result holds for any such hash.  Without `prune_completion_tombstones`:

    registryInv_run          every reachable world keeps `RegistryInv`: one publisher per
                             upload id, and a slot is `InFlight` exactly for a live
                             publisher's id and fingerprint, `Done` only after a
                             matching publisher published `Ok`
    completion_registry_safe an Owner is answered only from a free slot, which it takes;
                             two Owner answers for one id have the first Owner's
                             publish or drop between them; `Join` only while an
                             Owner of the same fingerprint answered before has
                             neither published nor been dropped; `AlreadyDone` only
                             after a matching `Ok`; after an `Err` or an unpublished
                             drop, the next `begin_complete` for the id is the Owner
-/

namespace DeltaGlider.Multipart

open Trace

/-! ## The registry -/

/-- The outcome a completion shares with its retries. -/
abbrev CompletionResult := Except String String

/-- `CompletionSlot`, without its watch receiver and timestamps. -/
inductive CompletionSlot where
  | inFlight (fingerprint : UInt64)
  | done (fingerprint : UInt64) (etag bucket key : String)
  deriving DecidableEq, Repr

/-- `CompletionPublisher`, without its store handle and watch sender. -/
structure CompletionPublisher where
  uploadId : String
  fingerprint : UInt64
  bucket : String
  key : String
  deriving DecidableEq, Repr

/-- `BeginComplete`; a joiner's receiver is not modelled. -/
inductive BeginComplete where
  | owner (publisher : CompletionPublisher)
  | join
  | alreadyDone (etag : String)
  deriving DecidableEq, Repr

/-- The registry `completions` and the publishers alive: each is held by the
task of the request that became its Owner, until it publishes or is dropped. -/
structure CompletionWorld where
  completions : String → Option CompletionSlot
  publishers : List CompletionPublisher

/-- No slot and no publisher. -/
def CompletionWorld.empty : CompletionWorld := ⟨fun _ => none, []⟩

section Registry

variable (completionFingerprint : List (Nat × String) → UInt64)

/-- `begin_complete`: a `Done` slot of the same parts, bucket and key answers
its etag; an `InFlight` slot of the same parts is joined; a free slot makes
the caller the Owner. -/
def beginComplete (w : CompletionWorld) (uploadId bucket key : String)
    (requestedParts : List (Nat × String)) : Except S3Error BeginComplete × CompletionWorld :=
  let fingerprint := completionFingerprint requestedParts
  match w.completions uploadId with
  | some (.done f etag b k) =>
    if f = fingerprint ∧ b = bucket ∧ k = key then (.ok (.alreadyDone etag), w)
    else
      (.error (.invalidPart
        "CompleteMultipartUpload retried with a different part list than the completed upload"), w)
  | some (.inFlight f) =>
    if f = fingerprint then (.ok .join, w)
    else (.error (.invalidRequest "another CompleteMultipartUpload with a different part list is in flight"), w)
  | none =>
    let publisher : CompletionPublisher := ⟨uploadId, fingerprint, bucket, key⟩
    (.ok (.owner publisher),
      ⟨Function.update w.completions uploadId (some (.inFlight fingerprint)), publisher :: w.publishers⟩)

end Registry

/-- `publish_completion`: `Ok` leaves a `Done` tombstone, `Err` clears the
slot. -/
def publishCompletion (completions : String → Option CompletionSlot) (uploadId : String)
    (fingerprint : UInt64) (bucket key : String) (result : CompletionResult) :
    String → Option CompletionSlot :=
  match result with
  | .ok etag => Function.update completions uploadId (some (.done fingerprint etag bucket key))
  | .error _ => Function.update completions uploadId none

/-- `CompletionPublisher::publish`: the publisher is consumed, and its drop
finds it published. -/
def CompletionWorld.publish (w : CompletionWorld) (p : CompletionPublisher) (result : CompletionResult) :
    CompletionWorld :=
  ⟨publishCompletion w.completions p.uploadId p.fingerprint p.bucket p.key result, w.publishers.erase p⟩

/-- The `Drop` of an unpublished publisher: `clear_completion_slot`. -/
def CompletionWorld.dropPublisher (w : CompletionWorld) (p : CompletionPublisher) : CompletionWorld :=
  ⟨Function.update w.completions p.uploadId none, w.publishers.erase p⟩

/-- The calls on the registry, with what `begin_complete` answered. -/
inductive RegistryEvent where
  | beginComplete (uploadId bucket key : String) (requestedParts : List (Nat × String))
      (outcome : Except S3Error BeginComplete)
  | publish (publisher : CompletionPublisher) (result : CompletionResult)
  | dropPublisher (publisher : CompletionPublisher)

/-- One call: `begin_complete` from any request, or a live publisher
publishing or being dropped. -/
inductive RegistryStep (completionFingerprint : List (Nat × String) → UInt64) :
    CompletionWorld → RegistryEvent → CompletionWorld → Prop
  | beginComplete {w : CompletionWorld} (uploadId bucket key : String) (requestedParts : List (Nat × String)) :
      RegistryStep completionFingerprint w
        (.beginComplete uploadId bucket key requestedParts
          (beginComplete completionFingerprint w uploadId bucket key requestedParts).1)
        (beginComplete completionFingerprint w uploadId bucket key requestedParts).2
  | publish {w : CompletionWorld} {p : CompletionPublisher} (result : CompletionResult) (hp : p ∈ w.publishers) :
      RegistryStep completionFingerprint w (.publish p result) (w.publish p result)
  | dropPublisher {w : CompletionWorld} {p : CompletionPublisher} (hp : p ∈ w.publishers) :
      RegistryStep completionFingerprint w (.dropPublisher p) (w.dropPublisher p)

/-! ## What `begin_complete` answers -/

section Begin

variable {completionFingerprint : List (Nat × String) → UInt64} {w : CompletionWorld}
  {uploadId bucket key : String} {requestedParts : List (Nat × String)}

/-- Everything `begin_complete` can do: leave an occupied registry as it
is, or take a free slot for a new Owner. -/
theorem beginComplete_cases (completionFingerprint : List (Nat × String) → UInt64) (w : CompletionWorld)
    (uploadId bucket key : String) (requestedParts : List (Nat × String)) :
    (w.completions uploadId ≠ none ∧
        (beginComplete completionFingerprint w uploadId bucket key requestedParts).2 = w) ∨
      (w.completions uploadId = none ∧
        beginComplete completionFingerprint w uploadId bucket key requestedParts =
          (.ok (.owner ⟨uploadId, completionFingerprint requestedParts, bucket, key⟩),
            ⟨Function.update w.completions uploadId (some (.inFlight (completionFingerprint requestedParts))),
              ⟨uploadId, completionFingerprint requestedParts, bucket, key⟩ :: w.publishers⟩)) := by
  unfold beginComplete
  dsimp only
  split
  · next hslot => exact .inl ⟨by simp [hslot], by split <;> rfl⟩
  · next hslot => exact .inl ⟨by simp [hslot], by split <;> rfl⟩
  · next hslot => exact .inr ⟨hslot, rfl⟩

theorem beginComplete_of_none (h : w.completions uploadId = none) :
    (beginComplete completionFingerprint w uploadId bucket key requestedParts).1 =
      .ok (.owner ⟨uploadId, completionFingerprint requestedParts, bucket, key⟩) := by
  simp [beginComplete, h]

/-- A `Join` is answered from an `InFlight` slot of the same fingerprint. -/
theorem completions_of_join (h : (beginComplete completionFingerprint w uploadId bucket key requestedParts).1 = .ok .join) :
    w.completions uploadId = some (.inFlight (completionFingerprint requestedParts)) := by
  unfold beginComplete at h
  dsimp only at h
  split at h
  · split at h <;> cases h
  · next f hslot =>
    split at h
    · next hf => rw [hslot, hf]
    · cases h
  · cases h

/-- `AlreadyDone` is answered from a `Done` slot of the same fingerprint,
bucket and key. -/
theorem completions_of_alreadyDone {etag : String}
    (h : (beginComplete completionFingerprint w uploadId bucket key requestedParts).1 = .ok (.alreadyDone etag)) :
    w.completions uploadId = some (.done (completionFingerprint requestedParts) etag bucket key) := by
  unfold beginComplete at h
  dsimp only at h
  split at h
  · next f etag' b k hslot =>
    split at h
    · next hmatch =>
      obtain ⟨rfl, rfl, rfl⟩ := hmatch
      cases h
      exact hslot
    · cases h
  · split at h <;> cases h
  · cases h

end Begin

/-! ## The invariant -/

/-- The registry's invariant, over the events so far: one live publisher per
upload id; a live publisher's slot is `InFlight` with its fingerprint, and an
`InFlight` slot belongs to a live publisher; a `Done` slot was left by a
publisher of its fingerprint, bucket and key that published `Ok` with its
etag. -/
structure RegistryInv (history : List RegistryEvent) (w : CompletionWorld) : Prop where
  nodup : (w.publishers.map CompletionPublisher.uploadId).Nodup
  live : ∀ p ∈ w.publishers, w.completions p.uploadId = some (.inFlight p.fingerprint)
  owned : ∀ uploadId f, w.completions uploadId = some (.inFlight f) →
    ∃ p ∈ w.publishers, p.uploadId = uploadId ∧ p.fingerprint = f
  published : ∀ uploadId f etag bucket key, w.completions uploadId = some (.done f etag bucket key) →
    ∃ p, .publish p (.ok etag) ∈ history ∧ p.uploadId = uploadId ∧ p.fingerprint = f ∧ p.bucket = bucket ∧
      p.key = key

theorem registryInv_empty : RegistryInv [] CompletionWorld.empty :=
  ⟨List.nodup_nil, by simp [CompletionWorld.empty], by simp [CompletionWorld.empty],
    by simp [CompletionWorld.empty]⟩

section Inv

variable {hist hist' : List RegistryEvent} {w : CompletionWorld} {p q : CompletionPublisher}

theorem RegistryInv.mono (h : RegistryInv hist w) (hsub : hist ⊆ hist') : RegistryInv hist' w := by
  refine ⟨h.nodup, h.live, h.owned, fun uploadId f etag bucket key hslot => ?_⟩
  obtain ⟨p, hp, hrest⟩ := h.published uploadId f etag bucket key hslot
  exact ⟨p, hsub hp, hrest⟩

/-- Two live publishers of one upload id are one. -/
theorem RegistryInv.uploadId_ne_of_mem_erase (h : RegistryInv hist w) (hp : p ∈ w.publishers)
    (hq : q ∈ w.publishers.erase p) : q.uploadId ≠ p.uploadId := by
  have hnodup := List.Nodup.of_map _ h.nodup
  obtain ⟨hne, hq⟩ := (hnodup.mem_erase_iff).mp hq
  exact fun hid => hne (List.inj_on_of_nodup_map h.nodup hq hp hid)

/-- A publisher that leaves takes its slot with it: the slot becomes `v`,
which is no `InFlight`, and a `Done` it leaves is backed by the history. -/
theorem RegistryInv.release {v : Option CompletionSlot} (h : RegistryInv hist w) (hp : p ∈ w.publishers)
    (hsub : hist ⊆ hist') (hv : ∀ f, v ≠ some (.inFlight f))
    (hdone : ∀ f etag bucket key, v = some (.done f etag bucket key) →
      ∃ q, .publish q (.ok etag) ∈ hist' ∧ q.uploadId = p.uploadId ∧ q.fingerprint = f ∧ q.bucket = bucket ∧
        q.key = key) :
    RegistryInv hist' ⟨Function.update w.completions p.uploadId v, w.publishers.erase p⟩ := by
  refine ⟨h.nodup.sublist (List.erase_sublist.map _), fun q hq => ?_, fun uploadId f hslot => ?_,
    fun uploadId f etag bucket key hslot => ?_⟩
  · -- the other publishers keep their slots
    dsimp only at hq ⊢
    rw [Function.update_of_ne (h.uploadId_ne_of_mem_erase hp hq)]
    exact h.live q (List.mem_of_mem_erase hq)
  · dsimp only at hslot ⊢
    by_cases hid : uploadId = p.uploadId
    · subst hid
      rw [Function.update_self] at hslot
      exact absurd hslot (hv f)
    · rw [Function.update_of_ne hid] at hslot
      obtain ⟨q, hq, rfl, rfl⟩ := h.owned _ f hslot
      exact ⟨q, (List.mem_erase_of_ne (fun e => hid (congrArg CompletionPublisher.uploadId e))).mpr hq, rfl, rfl⟩
  · dsimp only at hslot
    by_cases hid : uploadId = p.uploadId
    · subst hid
      rw [Function.update_self] at hslot
      exact hdone f etag bucket key hslot
    · rw [Function.update_of_ne hid] at hslot
      obtain ⟨q, hq, hrest⟩ := h.published uploadId f etag bucket key hslot
      exact ⟨q, hsub hq, hrest⟩

/-- A new Owner takes the free slot of its upload id. -/
theorem RegistryInv.claim {uploadId bucket key : String} {f : UInt64} (h : RegistryInv hist w)
    (hfree : w.completions uploadId = none) (hsub : hist ⊆ hist') :
    RegistryInv hist' ⟨Function.update w.completions uploadId (some (.inFlight f)),
      ⟨uploadId, f, bucket, key⟩ :: w.publishers⟩ := by
  -- no live publisher has this id, since its slot is free
  have hfresh : ∀ q ∈ w.publishers, q.uploadId ≠ uploadId := fun q hq hid => by
    have := h.live q hq
    rw [hid, hfree] at this
    cases this
  refine ⟨?_, fun q hq => ?_, fun uploadId' f' hslot => ?_, fun uploadId' f' etag bucket' key' hslot => ?_⟩
  · dsimp only
    rw [List.map_cons, List.nodup_cons]
    refine ⟨fun hmem => ?_, h.nodup⟩
    obtain ⟨q, hq, hid⟩ := List.mem_map.mp hmem
    exact hfresh q hq hid
  · dsimp only at hq ⊢
    rcases List.mem_cons.mp hq with rfl | hq
    · exact Function.update_self ..
    · rw [Function.update_of_ne (hfresh q hq)]
      exact h.live q hq
  · dsimp only at hslot ⊢
    by_cases hid : uploadId' = uploadId
    · subst hid
      rw [Function.update_self] at hslot
      cases hslot
      exact ⟨_, List.mem_cons_self, rfl, rfl⟩
    · rw [Function.update_of_ne hid] at hslot
      obtain ⟨q, hq, hrest⟩ := h.owned _ _ hslot
      exact ⟨q, List.mem_cons_of_mem _ hq, hrest⟩
  · dsimp only at hslot
    by_cases hid : uploadId' = uploadId
    · subst hid
      rw [Function.update_self] at hslot
      cases hslot
    · rw [Function.update_of_ne hid] at hslot
      obtain ⟨q, hq, hrest⟩ := h.published _ _ _ _ _ hslot
      exact ⟨q, hsub hq, hrest⟩

/-- Every call keeps the invariant, with the call added to the history. -/
theorem registryStep_inv {completionFingerprint : List (Nat × String) → UInt64} {w' : CompletionWorld}
    {ev : RegistryEvent} (h : RegistryInv hist w) (hstep : RegistryStep completionFingerprint w ev w') :
    RegistryInv (hist ++ [ev]) w' := by
  have hsub : hist ⊆ hist ++ [ev] := List.subset_append_left _ _
  cases hstep with
  | beginComplete uploadId bucket key requestedParts =>
    rcases beginComplete_cases completionFingerprint w uploadId bucket key requestedParts with
      ⟨-, hsame⟩ | ⟨hfree, hbegin⟩
    · rw [hsame]
      exact h.mono hsub
    · rw [congrArg Prod.snd hbegin]
      exact h.claim hfree hsub
  | @publish p result hp =>
    cases result with
    | ok etag =>
      refine h.release hp hsub (fun f => by simp) fun f etag' bucket key hv => ?_
      cases hv
      exact ⟨p, List.mem_append_right _ (List.mem_singleton_self _), rfl, rfl, rfl, rfl⟩
    | error e => exact h.release hp hsub (fun f => by simp) (fun _ _ _ _ hv => by cases hv)
  | @dropPublisher p hp => exact h.release hp hsub (fun f => by simp) (fun _ _ _ _ hv => by cases hv)

/-- Every world a run reaches keeps the invariant over the run's events. -/
theorem registryInv_run {completionFingerprint : List (Nat × String) → UInt64} {evs : List RegistryEvent}
    (hrun : Trace.Run (RegistryStep completionFingerprint) CompletionWorld.empty evs w) : RegistryInv evs w := by
  simpa using hrun.history (fun _ _ _ _ hI hs => registryStep_inv hI hs) [] registryInv_empty

end Inv

/-! ## Free slots -/

/-- The event is a `begin_complete` for `uploadId`. -/
def RegistryEvent.BeginsFor (uploadId : String) : RegistryEvent → Prop
  | .beginComplete id .. => id = uploadId
  | _ => False

/-- `p` leaves without a tombstone: it publishes an `Err` or is dropped
unpublished. -/
def RegistryEvent.Releases (p : CompletionPublisher) : RegistryEvent → Prop
  | .publish q (.error _) => q = p
  | .dropPublisher q => q = p
  | _ => False

section Free

variable {completionFingerprint : List (Nat × String) → UInt64} {hist : List RegistryEvent}
  {w w' : CompletionWorld} {ev : RegistryEvent} {uploadId : String}

theorem publishCompletion_of_ne {completions : String → Option CompletionSlot} {id : String} {f : UInt64}
    {bucket key : String} (result : CompletionResult) (hne : uploadId ≠ id) :
    publishCompletion completions id f bucket key result uploadId = completions uploadId := by
  cases result <;> simp [publishCompletion, Function.update_of_ne hne]

/-- A publisher that leaves without a tombstone frees its slot. -/
theorem completions_of_releases {p : CompletionPublisher} (hstep : RegistryStep completionFingerprint w ev w')
    (hrel : ev.Releases p) : w'.completions p.uploadId = none := by
  cases hstep with
  | beginComplete => cases hrel
  | publish result hp =>
    cases result with
    | ok etag => cases hrel
    | error e =>
      cases hrel
      simp [CompletionWorld.publish, publishCompletion]
  | dropPublisher hp =>
    cases hrel
    simp [CompletionWorld.dropPublisher]

/-- A free slot stays free under every call but a `begin_complete` for its
id: a live publisher never has a free slot's id. -/
theorem registryStep_free (h : RegistryInv hist w) (hfree : w.completions uploadId = none)
    (hstep : RegistryStep completionFingerprint w ev w') (hquiet : ¬ev.BeginsFor uploadId) :
    w'.completions uploadId = none := by
  have hother : ∀ p ∈ w.publishers, uploadId ≠ p.uploadId := fun p hp hid => by
    have hlive := h.live p hp
    rw [← hid, hfree] at hlive
    cases hlive
  cases hstep with
  | beginComplete id bucket key requestedParts =>
    have hne : uploadId ≠ id := fun e => hquiet e.symm
    rcases beginComplete_cases completionFingerprint w id bucket key requestedParts with
      ⟨-, hsame⟩ | ⟨-, hbegin⟩
    · rw [hsame]
      exact hfree
    · rw [congrArg Prod.snd hbegin]
      dsimp only
      rw [Function.update_of_ne hne]
      exact hfree
  | @publish p result hp =>
    show publishCompletion _ _ _ _ _ result uploadId = none
    rw [publishCompletion_of_ne result (hother p hp)]
    exact hfree
  | @dropPublisher p hp =>
    show Function.update w.completions p.uploadId none uploadId = none
    rw [Function.update_of_ne (hother p hp)]
    exact hfree

theorem registryRun_free {evs : List RegistryEvent} (h : RegistryInv hist w) (hfree : w.completions uploadId = none)
    (hrun : Trace.Run (RegistryStep completionFingerprint) w evs w') (hquiet : ∀ ev ∈ evs, ¬ev.BeginsFor uploadId) :
    w'.completions uploadId = none := by
  induction hrun generalizing hist with
  | nil => exact hfree
  | cons hs _ ih =>
    exact ih (registryStep_inv h hs) (registryStep_free h hfree hs (hquiet _ List.mem_cons_self))
      (fun ev hev => hquiet ev (List.mem_cons_of_mem _ hev))

end Free

/-! ## Owners -/

/-- The event ends `p`'s completion: `p` publishes, or is dropped. -/
def RegistryEvent.Settles (p : CompletionPublisher) : RegistryEvent → Prop
  | .publish q _ => q = p
  | .dropPublisher q => q = p
  | _ => False

/-- `p` was answered as the Owner by a `begin_complete` of the history, and
has neither published nor been dropped since. -/
def Issued (hist : List RegistryEvent) (p : CompletionPublisher) : Prop :=
  ∃ pre mid requestedParts,
    hist = pre ++ .beginComplete p.uploadId p.bucket p.key requestedParts (.ok (.owner p)) :: mid ∧
      ∀ ev ∈ mid, ¬ev.Settles p

section Owners

variable {completionFingerprint : List (Nat × String) → UInt64} {hist : List RegistryEvent}
  {w w' : CompletionWorld} {ev : RegistryEvent} {p : CompletionPublisher}

theorem Issued.snoc (h : Issued hist p) (hev : ¬ev.Settles p) : Issued (hist ++ [ev]) p := by
  obtain ⟨pre, mid, requestedParts, rfl, hmid⟩ := h
  refine ⟨pre, mid ++ [ev], requestedParts, by simp, fun ev' hev' => ?_⟩
  rcases List.mem_append.mp hev' with h | h
  · exact hmid ev' h
  · rw [List.mem_singleton.mp h]
    exact hev

/-- An Owner is answered from a free slot, and is the publisher of the call. -/
theorem completions_of_owner {uploadId bucket key : String} {requestedParts : List (Nat × String)}
    (h : (beginComplete completionFingerprint w uploadId bucket key requestedParts).1 = .ok (.owner p)) :
    w.completions uploadId = none ∧ p = ⟨uploadId, completionFingerprint requestedParts, bucket, key⟩ := by
  unfold beginComplete at h
  dsimp only at h
  split at h
  · split at h <;> cases h
  · split at h <;> cases h
  · next hslot =>
    cases h
    exact ⟨hslot, rfl⟩

/-- A `begin_complete` step is the call's answer and world. -/
theorem registryStep_beginComplete {uploadId bucket key : String} {requestedParts : List (Nat × String)}
    {outcome : Except S3Error BeginComplete}
    (hstep : RegistryStep completionFingerprint w (.beginComplete uploadId bucket key requestedParts outcome) w') :
    outcome = (beginComplete completionFingerprint w uploadId bucket key requestedParts).1 ∧
      w' = (beginComplete completionFingerprint w uploadId bucket key requestedParts).2 := by
  cases hstep
  exact ⟨rfl, rfl⟩

/-- A publisher stays live until it publishes or is dropped. -/
theorem mem_publishers_step (hstep : RegistryStep completionFingerprint w ev w') (hp : p ∈ w.publishers)
    (hev : ¬ev.Settles p) : p ∈ w'.publishers := by
  cases hstep with
  | beginComplete uploadId bucket key requestedParts =>
    rcases beginComplete_cases completionFingerprint w uploadId bucket key requestedParts with
      ⟨-, hsame⟩ | ⟨-, hbegin⟩
    · rw [hsame]
      exact hp
    · rw [congrArg Prod.snd hbegin]
      exact List.mem_cons_of_mem _ hp
  | @publish q result hq => exact (List.mem_erase_of_ne fun e => hev e.symm).mpr hp
  | @dropPublisher q hq => exact (List.mem_erase_of_ne fun e => hev e.symm).mpr hp

theorem mem_publishers_run {evs : List RegistryEvent} (hrun : Trace.Run (RegistryStep completionFingerprint) w evs w')
    (hp : p ∈ w.publishers) (hquiet : ∀ ev ∈ evs, ¬ev.Settles p) : p ∈ w'.publishers := by
  induction hrun with
  | nil => exact hp
  | cons hs _ ih =>
    exact ih (mem_publishers_step hs hp (hquiet _ List.mem_cons_self))
      (fun ev hev => hquiet ev (List.mem_cons_of_mem _ hev))

/-- Every live publisher was issued by an Owner answer of the history, and has
not been settled since. -/
theorem issued_step (h : RegistryInv hist w) (hI : ∀ q ∈ w.publishers, Issued hist q)
    (hstep : RegistryStep completionFingerprint w ev w') : ∀ q ∈ w'.publishers, Issued (hist ++ [ev]) q := by
  intro q hq
  have hnodup := List.Nodup.of_map _ h.nodup
  cases hstep with
  | beginComplete uploadId bucket key requestedParts =>
    rcases beginComplete_cases completionFingerprint w uploadId bucket key requestedParts with
      ⟨-, hsame⟩ | ⟨-, hbegin⟩
    · rw [hsame] at hq
      exact (hI q hq).snoc id
    · rw [congrArg Prod.snd hbegin] at hq
      rcases List.mem_cons.mp hq with rfl | hq
      · -- the Owner this call answers
        refine ⟨hist, [], requestedParts, ?_, by simp⟩
        rw [congrArg Prod.fst hbegin]
      · exact (hI q hq).snoc id
  | @publish p result hp =>
    obtain ⟨hne, hq⟩ := hnodup.mem_erase_iff.mp hq
    exact (hI q hq).snoc fun e => hne e.symm
  | @dropPublisher p hp =>
    obtain ⟨hne, hq⟩ := hnodup.mem_erase_iff.mp hq
    exact (hI q hq).snoc fun e => hne e.symm

theorem issued_run {evs : List RegistryEvent}
    (hrun : Trace.Run (RegistryStep completionFingerprint) CompletionWorld.empty evs w) :
    ∀ p ∈ w.publishers, Issued evs p := by
  have h := @Trace.Run.history CompletionWorld RegistryEvent (RegistryStep completionFingerprint)
    (fun hist s => RegistryInv hist s ∧ ∀ p ∈ s.publishers, Issued hist p)
    (fun _ _ _ _ hI hs => ⟨registryStep_inv hI.1 hs, issued_step hI.1 hI.2 hs⟩) _ _ _ hrun []
    ⟨registryInv_empty, by simp [CompletionWorld.empty]⟩
  simpa using h.2

end Owners

/-! ## The registry over every run -/

/-- Over every run of `begin_complete` calls, publications and drops: an
Owner is answered only from a free slot, which it takes `InFlight`; of two
Owner answers for one upload id the first Owner publishes or is dropped in
between; `Join` is answered only while an Owner of the same fingerprint,
answered before, has neither published nor been dropped; `AlreadyDone` only
after an Owner of the same fingerprint, bucket and key published `Ok` with that
etag; and after an Owner publishes `Err` or is dropped unpublished, the next
`begin_complete` for its id makes the caller the Owner. -/
theorem completion_registry_safe (completionFingerprint : List (Nat × String) → UInt64) :
    (∀ (w : CompletionWorld) (uploadId bucket key : String) (requestedParts : List (Nat × String))
        (p : CompletionPublisher),
      (beginComplete completionFingerprint w uploadId bucket key requestedParts).1 = .ok (.owner p) →
      w.completions uploadId = none ∧
        (beginComplete completionFingerprint w uploadId bucket key requestedParts).2.completions uploadId =
          some (.inFlight p.fingerprint)) ∧
    (∀ (pre : List RegistryEvent) (uploadId bucket₁ key₁ : String) (parts₁ : List (Nat × String))
        (p₁ : CompletionPublisher) (mid : List RegistryEvent) (bucket₂ key₂ : String)
        (parts₂ : List (Nat × String)) (p₂ : CompletionPublisher) (post : List RegistryEvent)
        (w : CompletionWorld),
      Trace.Run (RegistryStep completionFingerprint) .empty
        (pre ++ .beginComplete uploadId bucket₁ key₁ parts₁ (.ok (.owner p₁)) ::
          (mid ++ .beginComplete uploadId bucket₂ key₂ parts₂ (.ok (.owner p₂)) :: post)) w →
      ∃ ev ∈ mid, ev.Settles p₁) ∧
    (∀ (evs : List RegistryEvent) (w : CompletionWorld) (uploadId bucket key : String)
        (requestedParts : List (Nat × String)),
      Trace.Run (RegistryStep completionFingerprint) .empty evs w →
      (beginComplete completionFingerprint w uploadId bucket key requestedParts).1 = .ok .join →
      ∃ pre mid bucket' key' parts' p,
        evs = pre ++ .beginComplete uploadId bucket' key' parts' (.ok (.owner p)) :: mid ∧
          p.fingerprint = completionFingerprint requestedParts ∧ ∀ ev ∈ mid, ¬ev.Settles p) ∧
    (∀ (evs : List RegistryEvent) (w : CompletionWorld) (uploadId bucket key : String)
        (requestedParts : List (Nat × String)) (etag : String),
      Trace.Run (RegistryStep completionFingerprint) .empty evs w →
      (beginComplete completionFingerprint w uploadId bucket key requestedParts).1 = .ok (.alreadyDone etag) →
      ∃ p, .publish p (.ok etag) ∈ evs ∧ p.uploadId = uploadId ∧
        p.fingerprint = completionFingerprint requestedParts ∧ p.bucket = bucket ∧ p.key = key) ∧
    (∀ (pre : List RegistryEvent) (ev : RegistryEvent) (post : List RegistryEvent) (w : CompletionWorld)
        (p : CompletionPublisher) (bucket key : String) (requestedParts : List (Nat × String)),
      Trace.Run (RegistryStep completionFingerprint) .empty (pre ++ ev :: post) w →
      ev.Releases p → (∀ ev' ∈ post, ¬ev'.BeginsFor p.uploadId) →
      (beginComplete completionFingerprint w p.uploadId bucket key requestedParts).1 =
        .ok (.owner ⟨p.uploadId, completionFingerprint requestedParts, bucket, key⟩)) := by
  refine ⟨?_, ?_, ?_, ?_, ?_⟩
  · intro w uploadId bucket key requestedParts p hout
    obtain ⟨hfree, rfl⟩ := completions_of_owner hout
    refine ⟨hfree, ?_⟩
    simp [beginComplete, hfree]
  · intro pre uploadId bucket₁ key₁ parts₁ p₁ mid bucket₂ key₂ parts₂ p₂ post w hrun
    -- cut the run at the two Owner answers
    obtain ⟨w₀, hpre, hrest⟩ := hrun.split
    obtain ⟨w₁, hstep₁, hrest⟩ := hrest.uncons
    obtain ⟨w₂, hmid, hrest⟩ := hrest.split
    obtain ⟨w₃, hstep₂, -⟩ := hrest.uncons
    obtain ⟨hout₁, hw₁⟩ := registryStep_beginComplete hstep₁
    obtain ⟨hout₂, -⟩ := registryStep_beginComplete hstep₂
    obtain ⟨hfree, rfl⟩ := completions_of_owner hout₁.symm
    by_contra hquiet
    simp only [not_exists, not_and] at hquiet
    -- the first Owner is still live when the second call comes, so its slot is taken
    have hlive₁ : ⟨uploadId, completionFingerprint parts₁, bucket₁, key₁⟩ ∈ w₁.publishers := by
      rcases beginComplete_cases completionFingerprint w₀ uploadId bucket₁ key₁ parts₁ with
        ⟨hne, -⟩ | ⟨-, hbegin⟩
      · exact absurd hfree hne
      · rw [hw₁, congrArg Prod.snd hbegin]
        exact List.mem_cons_self
    have hinv₂ := registryInv_run (hpre.append (.cons hstep₁ hmid))
    have hslot := hinv₂.live _ (mem_publishers_run hmid hlive₁ hquiet)
    rw [(completions_of_owner hout₂.symm).1] at hslot
    cases hslot
  · intro evs w uploadId bucket key requestedParts hrun hjoin
    obtain ⟨p, hp, rfl, hfp⟩ := (registryInv_run hrun).owned _ _ (completions_of_join hjoin)
    obtain ⟨pre, mid, parts, heq, hmid⟩ := issued_run hrun p hp
    exact ⟨pre, mid, p.bucket, p.key, parts, p, heq, hfp, hmid⟩
  · intro evs w uploadId bucket key requestedParts etag hrun hdone
    exact (registryInv_run hrun).published _ _ _ _ _ (completions_of_alreadyDone hdone)
  · intro pre ev post w p bucket key requestedParts hrun hrel hquiet
    -- cut the run at the release, whose slot then stays free
    obtain ⟨w₁, hpre, hrest⟩ := hrun.split
    obtain ⟨w₂, hstep, hpost⟩ := hrest.uncons
    have hinv₂ := registryStep_inv (registryInv_run hpre) hstep
    exact beginComplete_of_none (registryRun_free hinv₂ (completions_of_releases hstep hrel) hpost hquiet)

end DeltaGlider.Multipart
