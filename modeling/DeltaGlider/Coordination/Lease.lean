import DeltaGlider.Lib.RustStd
import DeltaGlider.Lib.CasLease

/-!
# Leader leases and reference locks over conditional writes

`coordination/s3_lease.rs` (`S3Lease`, the cross-instance leader lease of a
replication or lifecycle rule) and `coordination/reference_lock.rs`
(`S3ReferenceLock`, the cross-instance mutex around a deltaspace's reference
write) each keep one JSON object per key in the coordination bucket and
change it only by conditional writes: `If-None-Match: *` to create it,
`If-Match: <etag>` to steal or renew it, a delete with `If-Match` to release
it.  The two `try_acquire`s and the two `release`s are the same code over a
different key and TTL, so each pair is one definition here
(`tryAcquireObject`, `releaseObject`) that the four methods apply.

The bucket answers each request atomically; the transport may lose a
request (`Net`), and then the bucket never saw it.  `leaseView` reads the
object at each key as the register of `CasLease`: its owner, node and expiry.

Each call has one lemma saying everything it can do to the bucket:

* `tryAcquireObject_cases`: it returned something other than `Ok(true)` and
  left the bucket alone, or it returned `Ok(true)` after writing the
  caller's lease over an object that was absent, expired (`expires_at < now`)
  or written from the caller's own node (self-reclaim);
* `renewAttempts_cases`: the same, the object being the caller's own and
  not lapsed (`expires_at >= now`);
* `releaseObject_cases`: the bucket is unchanged, or the object named the
  releasing owner and is gone.

`planAcquire_steal_foreign_iff_lost` is the tiling the lease contract
(`coordination/lease.rs`) documents: a lease written from another node is
stealable at exactly the instants its owner can no longer renew it.
-/

namespace DeltaGlider.Coordination

open RustStd

/-! ## Lease bodies and the two planning kernels -/

/-- Which job subsystem a lease belongs to. -/
inductive LeaseSubsystem
  | replication
  | lifecycle
deriving DecidableEq, Repr

/-- The slug in the lease object key. -/
def LeaseSubsystem.slug : LeaseSubsystem → String
  | .replication => "replication"
  | .lifecycle => "lifecycle"

/-- The lease object body (`epoch` is a `u64`, `expires_at` an `i64`). -/
structure Lease where
  owner : String
  nodeId : String
  epoch : Nat
  expiresAt : Int
deriving DecidableEq, Repr

/-- The reference-lock body has the lease's fields and JSON layout. -/
abbrev RefLock := Lease

/-- An object's ETag; the bucket gives every write a fresh one. -/
abbrev ETag := Nat

/-- What `try_acquire` does given the current lease object. -/
inductive AcquireAction
  | create
  | steal (etag : ETag) (nextEpoch : Nat)
  | blocked
deriving DecidableEq, Repr

abbrev LockAction := AcquireAction

/-- `plan_acquire`: create a missing lease; steal one that has expired
(strictly) or that this node wrote; otherwise blocked. -/
def planAcquire (current : Option (Lease × ETag)) (now : Int) (myNodeId : String) :
    AcquireAction :=
  match current with
  | none => .create
  | some (lease, etag) =>
    let expired := decide (lease.expiresAt < now)
    let mine := lease.nodeId == myNodeId
    if expired || mine then .steal etag (u64SaturatingAdd lease.epoch 1) else .blocked

/-- `plan_lock_acquire`, the reference lock's copy of `plan_acquire`. -/
def planLockAcquire (current : Option (RefLock × ETag)) (now : Int) (myNodeId : String) :
    LockAction :=
  planAcquire current now myNodeId

/-- What `renew` does given the current lease object. -/
inductive RenewAction
  | renew (etag : ETag) (epoch : Nat)
  | lost
deriving DecidableEq, Repr

/-- `plan_renew`: extend a lease this owner holds and that has not lapsed
(`expires_at >= now`); anything else is lost. -/
def planRenew (current : Option (Lease × ETag)) (now : Int) (owner : String) : RenewAction :=
  match current with
  | some (lease, etag) =>
    if lease.owner = owner ∧ lease.expiresAt ≥ now then .renew etag lease.epoch else .lost
  | none => .lost

/-! ## The coordination bucket -/

/-- The object at a key: its body when the bytes parse as a lease, and its ETag. -/
structure StoredObject where
  body : Option Lease
  etag : ETag

/-- The lease and ETag a read returns: a body that does not parse reads as
no lease. -/
def StoredObject.lease (obj : StoredObject) : Option (Lease × ETag) :=
  obj.body.map fun lease => (lease, obj.etag)

/-- The coordination bucket: the object at each key, and the ETag of the
next write. -/
structure CoordBucket where
  objects : String → Option StoredObject
  nextEtag : ETag

namespace CoordBucket

/-- The bucket with no objects. -/
def empty : CoordBucket := ⟨fun _ => none, 0⟩

/-- The precondition of a conditional request: `If-None-Match: *` (no etag)
holds when there is no object, `If-Match: etag` when the object's ETag is
`etag`. -/
def admits (bucket : CoordBucket) (key : String) : Option ETag → Bool
  | none => (bucket.objects key).isNone
  | some etag => (bucket.objects key).any (·.etag == etag)

/-- The bucket after a PUT of `body` at `key`. -/
def write (bucket : CoordBucket) (key : String) (body : Lease) : CoordBucket :=
  { objects := Function.update bucket.objects key (some ⟨some body, bucket.nextEtag⟩)
    nextEtag := bucket.nextEtag + 1 }

/-- The bucket after a DELETE of the object at `key`. -/
def erase (bucket : CoordBucket) (key : String) : CoordBucket :=
  { bucket with objects := Function.update bucket.objects key none }

end CoordBucket

/-- The transport to the bucket: for each request in turn, the SDK error
that lost it, or `none` when it reached the bucket (requests past the end of
the list all do). -/
abbrev Net := List (Option String)

def Net.next : Net → Option String × Net
  | [] => (none, [])
  | r :: rest => (r, rest)

/-- What the object at each key says about its holder. -/
def leaseView (bucket : CoordBucket) (key : String) : Option (CasLease.Entry String String) :=
  ((bucket.objects key).bind StoredObject.body).map fun lease =>
    ⟨lease.owner, lease.nodeId, lease.expiresAt⟩

/-! ## Requests -/

/-- `read_lease` / `read_lock`: the lease and its ETag; `Ok(None)` for a
missing object or one that is not a lease body; `Err` when the request was
lost. -/
def readObject (net : Net) (bucket : CoordBucket) (key : String) :
    Except String (Option (Lease × ETag)) × Net :=
  match net.next with
  | (some err, net) => (.error err, net)
  | (none, net) => (.ok ((bucket.objects key).bind StoredObject.lease), net)

/-- `body_for`: the body this node writes for `owner`. -/
def bodyFor (nodeId owner : String) (epoch : Nat) (expiresAt : Int) : Lease :=
  ⟨owner, nodeId, epoch, expiresAt⟩

/-- `put_lease` / `put_lock`: `Ok(true)` when the write took, `Ok(false)` on a
412 (a peer won the race), `Err` when the request was lost. -/
def putObject (net : Net) (bucket : CoordBucket) (key : String) (body : Lease)
    (precondition : Option ETag) : Except String Bool × CoordBucket × Net :=
  match net.next with
  | (some err, net) => (.error err, bucket, net)
  | (none, net) =>
    if bucket.admits key precondition then (.ok true, bucket.write key body, net)
    else (.ok false, bucket, net)

/-- The `delete_object().if_match(etag)` of a release; its outcome is ignored. -/
def deleteObject (net : Net) (bucket : CoordBucket) (key : String) (etag : ETag) :
    CoordBucket :=
  match net.next with
  | (some _, _) => bucket
  | (none, _) => if bucket.admits key (some etag) then bucket.erase key else bucket

/-- Whether a call returned `Ok(true)`. -/
def returnedTrue : Except String Bool → Bool
  | .ok b => b
  | .error _ => false

/-! ## The calls -/

/-- `try_acquire` of `S3Lease` and of `S3ReferenceLock`: read the object,
plan, and write the caller's lease under the plan's precondition. -/
def tryAcquireObject (nodeId key owner : String) (now ttlSecs : Int) (net : Net)
    (bucket : CoordBucket) : Except String Bool × CoordBucket :=
  match readObject net bucket key with
  | (.error err, _) => (.error err, bucket)
  | (.ok current, net) =>
    let expiresAt := i64SaturatingAdd now (max ttlSecs 1)
    match planAcquire current now nodeId with
    | .blocked => (.ok false, bucket)
    | .create =>
      let put := putObject net bucket key (bodyFor nodeId owner 1 expiresAt) none
      (put.1, put.2.1)
    | .steal etag nextEpoch =>
      let put := putObject net bucket key (bodyFor nodeId owner nextEpoch expiresAt) (some etag)
      (put.1, put.2.1)

/-- `RENEW_MAX_ATTEMPTS`. -/
def renewMaxAttempts : Nat := 3

/-- The retry loop of `S3Lease::renew`, `attempts` passes left, `lastErr` the
last transient error.  A lost read or write is retried, and so is a 412; a
lost or lapsed lease is final.  The call is one atomic step, so no time
passes between passes and `effective_now` is `now`. -/
def renewAttempts (nodeId key owner : String) (now ttlSecs : Int) :
    Nat → Option String → Net → CoordBucket → Except String Bool × CoordBucket
  | 0, lastErr, _, bucket => (.error (lastErr.getD "lease renew exhausted retries"), bucket)
  | attempts + 1, lastErr, net, bucket =>
    let effectiveNow := now
    let expiresAt := i64SaturatingAdd effectiveNow (max ttlSecs 1)
    match readObject net bucket key with
    | (.error err, net) => renewAttempts nodeId key owner now ttlSecs attempts (some err) net bucket
    | (.ok current, net) =>
      match planRenew current effectiveNow owner with
      | .lost => (.ok false, bucket)
      | .renew etag epoch =>
        match putObject net bucket key (bodyFor nodeId owner epoch expiresAt) (some etag) with
        | (.ok true, bucket', _) => (.ok true, bucket')
        | (.ok false, _, net) => renewAttempts nodeId key owner now ttlSecs attempts lastErr net bucket
        | (.error err, _, net) =>
          renewAttempts nodeId key owner now ttlSecs attempts (some err) net bucket

/-- `release` of both primitives: delete the object only if it names
`owner`. -/
def releaseObject (key owner : String) (net : Net) (bucket : CoordBucket) :
    Except String Unit × CoordBucket :=
  match readObject net bucket key with
  | (.error err, _) => (.error err, bucket)
  | (.ok none, _) => (.ok (), bucket)
  | (.ok (some (lease, etag)), net) =>
    if lease.owner = owner then (.ok (), deleteObject net bucket key etag) else (.ok (), bucket)

/-- The cross-instance leader lease of one node. -/
structure S3Lease where
  /-- Durable node identity, for self-reclaim. -/
  nodeId : String

namespace S3Lease

/-- `_dgp/leases/<slug>/<rule>.json`. -/
def objectKey (subsystem : LeaseSubsystem) (rule : String) : String :=
  "_dgp/leases/" ++ subsystem.slug ++ "/" ++ rule ++ ".json"

def tryAcquire (self : S3Lease) (subsystem : LeaseSubsystem) (rule owner : String)
    (now ttlSecs : Int) (net : Net) (bucket : CoordBucket) : Except String Bool × CoordBucket :=
  tryAcquireObject self.nodeId (objectKey subsystem rule) owner now ttlSecs net bucket

def renew (self : S3Lease) (subsystem : LeaseSubsystem) (rule owner : String)
    (now ttlSecs : Int) (net : Net) (bucket : CoordBucket) : Except String Bool × CoordBucket :=
  renewAttempts self.nodeId (objectKey subsystem rule) owner now ttlSecs renewMaxAttempts none
    net bucket

def release (subsystem : LeaseSubsystem) (rule owner : String) (net : Net)
    (bucket : CoordBucket) : Except String Unit × CoordBucket :=
  releaseObject (objectKey subsystem rule) owner net bucket

/-- `is_held`: the lease object exists and has not lapsed. -/
def isHeld (subsystem : LeaseSubsystem) (rule : String) (now : Int) (net : Net)
    (bucket : CoordBucket) : Except String Bool :=
  (readObject net bucket (objectKey subsystem rule)).1.map fun current =>
    (current.map fun (lease, _) => decide (lease.expiresAt ≥ now)).getD false

end S3Lease

/-- `DEFAULT_LOCK_TTL_SECS`. -/
def defaultLockTtlSecs : Int := 120

/-- The cross-instance reference lock of one node. -/
structure S3ReferenceLock where
  nodeId : String
  ttlSecs : Int

namespace S3ReferenceLock

def new (nodeId : String) : S3ReferenceLock := ⟨nodeId, defaultLockTtlSecs⟩

/-- `with_tunables`, on the TTL. -/
def withTunables (self : S3ReferenceLock) (ttlSecs : Int) : S3ReferenceLock :=
  { self with ttlSecs := max ttlSecs 1 }

def tryAcquire (self : S3ReferenceLock) (key owner : String) (now : Int) (net : Net)
    (bucket : CoordBucket) : Except String Bool × CoordBucket :=
  tryAcquireObject self.nodeId key owner now self.ttlSecs net bucket

def release (key owner : String) (net : Net) (bucket : CoordBucket) :
    Except String Unit × CoordBucket :=
  releaseObject key owner net bucket

end S3ReferenceLock

/-! ## The planning kernels -/

/-- Everything `plan_acquire` can answer. -/
theorem planAcquire_cases (current : Option (Lease × ETag)) (now : Int) (nodeId : String) :
    (current = none ∧ planAcquire current now nodeId = .create) ∨
    (∃ lease etag, current = some (lease, etag) ∧ (lease.expiresAt < now ∨ lease.nodeId = nodeId) ∧
      planAcquire current now nodeId = .steal etag (u64SaturatingAdd lease.epoch 1)) ∨
    planAcquire current now nodeId = .blocked := by
  rcases current with _ | ⟨lease, etag⟩
  · exact .inl ⟨rfl, rfl⟩
  · by_cases h : lease.expiresAt < now ∨ lease.nodeId = nodeId
    · refine .inr (.inl ⟨lease, etag, rfl, h, ?_⟩)
      simp [planAcquire, h]
    · refine .inr (.inr ?_)
      simp only [not_or] at h
      simp [planAcquire, h.1, h.2]

/-- Everything `plan_renew` can answer. -/
theorem planRenew_cases (current : Option (Lease × ETag)) (now : Int) (owner : String) :
    (∃ lease etag, current = some (lease, etag) ∧ lease.owner = owner ∧ now ≤ lease.expiresAt ∧
      planRenew current now owner = .renew etag lease.epoch) ∨
    planRenew current now owner = .lost := by
  rcases current with _ | ⟨lease, etag⟩
  · exact .inr rfl
  · by_cases h : lease.owner = owner ∧ lease.expiresAt ≥ now
    · exact .inl ⟨lease, etag, rfl, h.1, h.2, if_pos h⟩
    · exact .inr (if_neg h)

/-- The strict steal test and the non-strict renew test tile the timeline:
a lease written from another node is stealable at exactly the instants its
owner can no longer renew it. -/
theorem planAcquire_steal_foreign_iff_lost {lease : Lease} {etag : ETag} {now : Int}
    {nodeId : String} (hnode : lease.nodeId ≠ nodeId) :
    planAcquire (some (lease, etag)) now nodeId ≠ .blocked ↔
      planRenew (some (lease, etag)) now lease.owner = .lost := by
  by_cases hexp : lease.expiresAt < now
  · simp [planAcquire, planRenew, hexp]
  · simp [planAcquire, planRenew, hexp, hnode]

/-! ## What each request and call can do -/

@[simp] theorem leaseView_empty (key : String) : leaseView CoordBucket.empty key = none := rfl

/-- A write of a lease body puts its owner, node and expiry in the view. -/
theorem leaseView_write (bucket : CoordBucket) (key nodeId owner : String) (epoch : Nat)
    (start expiresAt : Int) :
    leaseView (bucket.write key (bodyFor nodeId owner epoch expiresAt)) =
      CasLease.write (leaseView bucket) ⟨key, owner, nodeId, start, expiresAt⟩ := by
  funext k
  by_cases hk : k = key
  · subst hk
    simp [leaseView, CoordBucket.write, CasLease.write, bodyFor]
  · simp [leaseView, CoordBucket.write, CasLease.write, Function.update_of_ne hk]

theorem leaseView_erase (bucket : CoordBucket) (key : String) :
    leaseView (bucket.erase key) = Function.update (leaseView bucket) key none := by
  funext k
  by_cases hk : k = key
  · subst hk
    simp [leaseView, CoordBucket.erase]
  · simp [leaseView, CoordBucket.erase, Function.update_of_ne hk]

/-- A lease a read found is what the view says, and its ETag is the one a
conditional request must name. -/
theorem view_of_read {bucket : CoordBucket} {key : String} {lease : Lease} {etag : ETag}
    (h : (bucket.objects key).bind StoredObject.lease = some (lease, etag)) :
    leaseView bucket key = some ⟨lease.owner, lease.nodeId, lease.expiresAt⟩ ∧
      bucket.admits key (some etag) = true := by
  cases hobj : bucket.objects key with
  | none => simp [hobj] at h
  | some obj =>
    obtain ⟨body, etag'⟩ := obj
    cases body with
    | none => simp [hobj, StoredObject.lease] at h
    | some lease' =>
      simp only [hobj, Option.bind_some, StoredObject.lease, Option.map_some,
        Option.some.injEq, Prod.mk.injEq] at h
      obtain ⟨rfl, rfl⟩ := h
      simp [leaseView, CoordBucket.admits, hobj]

theorem readObject_cases (net : Net) (bucket : CoordBucket) (key : String) :
    (∃ err net', readObject net bucket key = (.error err, net')) ∨
    ∃ net', readObject net bucket key = (.ok ((bucket.objects key).bind StoredObject.lease), net') := by
  unfold readObject
  rcases net.next with ⟨_ | err, net'⟩
  · exact .inr ⟨net', rfl⟩
  · exact .inl ⟨err, net', rfl⟩

theorem putObject_cases {net net' : Net} {bucket bucket' : CoordBucket} {key : String}
    {body : Lease} {precondition : Option ETag} {r : Except String Bool}
    (h : putObject net bucket key body precondition = (r, bucket', net')) :
    (returnedTrue r = false ∧ bucket' = bucket) ∨
    (r = .ok true ∧ bucket.admits key precondition = true ∧ bucket' = bucket.write key body) := by
  unfold putObject at h
  rcases hn : net.next with ⟨_ | err, _⟩ <;> rw [hn] at h <;> dsimp only at h
  · by_cases hadm : bucket.admits key precondition
    · rw [if_pos hadm] at h
      cases h
      exact .inr ⟨rfl, hadm, rfl⟩
    · rw [if_neg hadm] at h
      cases h
      exact .inl ⟨rfl, rfl⟩
  · cases h
    exact .inl ⟨rfl, rfl⟩

/-- **What `try_acquire` can do**: nothing, or return `Ok(true)` after
writing the caller's lease over an object that was missing, expired, or
written from the caller's node. -/
theorem tryAcquireObject_cases {nodeId key owner : String} {now ttlSecs : Int} {net : Net}
    {bucket bucket' : CoordBucket} {r : Except String Bool}
    (h : tryAcquireObject nodeId key owner now ttlSecs net bucket = (r, bucket')) :
    (returnedTrue r = false ∧ bucket' = bucket) ∨
    (returnedTrue r = true ∧
      (∀ e, leaseView bucket key = some e → e.expiresAt < now ∨ e.node = nodeId) ∧
      ∃ epoch, bucket' = bucket.write key
        (bodyFor nodeId owner epoch (i64SaturatingAdd now (max ttlSecs 1)))) := by
  unfold tryAcquireObject at h
  rcases readObject_cases net bucket key with ⟨err, net', hread⟩ | ⟨net', hread⟩ <;>
    rw [hread] at h
  · cases h
    exact .inl ⟨rfl, rfl⟩
  dsimp only at h
  rcases planAcquire_cases ((bucket.objects key).bind StoredObject.lease) now nodeId with
    ⟨hnone, hplan⟩ | ⟨lease, etag, hcur, hsteal, hplan⟩ | hplan <;> rw [hplan] at h <;>
    dsimp only at h
  · -- create: a granted `If-None-Match` write found no object at all
    rcases hput : putObject net' bucket key
        (bodyFor nodeId owner 1 (i64SaturatingAdd now (max ttlSecs 1))) none with ⟨res, b, n⟩
    rw [hput] at h
    cases h
    rcases putObject_cases hput with ⟨hr, rfl⟩ | ⟨rfl, hadm, rfl⟩
    · exact .inl ⟨hr, rfl⟩
    · refine .inr ⟨rfl, fun e he => ?_, 1, rfl⟩
      have hobj : bucket.objects key = none := by simpa [CoordBucket.admits] using hadm
      simp [leaseView, hobj] at he
  · -- steal: the view shows the lease the plan judged expired or this node's
    rcases hput : putObject net' bucket key (bodyFor nodeId owner (u64SaturatingAdd lease.epoch 1)
        (i64SaturatingAdd now (max ttlSecs 1))) (some etag) with ⟨res, b, n⟩
    rw [hput] at h
    cases h
    rcases putObject_cases hput with ⟨hr, rfl⟩ | ⟨rfl, -, rfl⟩
    · exact .inl ⟨hr, rfl⟩
    · refine .inr ⟨rfl, fun e he => ?_, _, rfl⟩
      rw [(view_of_read hcur).1, Option.some.injEq] at he
      subst he
      exact hsteal
  · cases h
    exact .inl ⟨rfl, rfl⟩

/-- **What `renew` can do**: nothing, or return `Ok(true)` after writing the
caller's lease over the caller's own lease that had not lapsed. -/
theorem renewAttempts_cases {nodeId key owner : String} {now ttlSecs : Int} :
    ∀ {attempts : Nat} {lastErr : Option String} {net : Net} {bucket bucket' : CoordBucket}
      {r : Except String Bool},
    renewAttempts nodeId key owner now ttlSecs attempts lastErr net bucket = (r, bucket') →
    (returnedTrue r = false ∧ bucket' = bucket) ∨
    (returnedTrue r = true ∧
      (∃ e, leaseView bucket key = some e ∧ e.holder = owner ∧ now ≤ e.expiresAt) ∧
      ∃ epoch, bucket' = bucket.write key
        (bodyFor nodeId owner epoch (i64SaturatingAdd now (max ttlSecs 1)))) := by
  intro attempts
  -- induction on the passes left; a retried pass sees the same bucket
  induction attempts with
  | zero =>
    intro lastErr net bucket bucket' r h
    cases h
    exact .inl ⟨rfl, rfl⟩
  | succ attempts ih =>
    intro lastErr net bucket bucket' r h
    unfold renewAttempts at h
    rcases readObject_cases net bucket key with ⟨err, net', hread⟩ | ⟨net', hread⟩ <;>
      rw [hread] at h
    · exact ih h
    dsimp only at h
    rcases planRenew_cases ((bucket.objects key).bind StoredObject.lease) now owner with
      ⟨lease, etag, hcur, howner, hlive, hplan⟩ | hplan <;> rw [hplan] at h <;> dsimp only at h
    · rcases hput : putObject net' bucket key (bodyFor nodeId owner lease.epoch
          (i64SaturatingAdd now (max ttlSecs 1))) (some etag) with ⟨res, bucket'', net''⟩
      rw [hput] at h
      rcases res with err | _ | _
      · exact ih h
      · exact ih h
      · -- the write took: the view showed the caller's live lease
        cases h
        rcases putObject_cases hput with ⟨hr, -⟩ | ⟨-, -, rfl⟩
        · exact absurd hr (by decide)
        · refine .inr ⟨rfl, ⟨_, (view_of_read hcur).1, howner, hlive⟩, _, rfl⟩
    · cases h
      exact .inl ⟨rfl, rfl⟩

/-- **What `release` can do**: nothing, or delete an object that named the
releasing owner. -/
theorem releaseObject_cases {key owner : String} {net : Net} {bucket bucket' : CoordBucket}
    {r : Except String Unit} (h : releaseObject key owner net bucket = (r, bucket')) :
    bucket' = bucket ∨
    ((∃ e, leaseView bucket key = some e ∧ e.holder = owner) ∧ bucket' = bucket.erase key) := by
  unfold releaseObject at h
  rcases readObject_cases net bucket key with ⟨err, net', hread⟩ | ⟨net', hread⟩ <;>
    rw [hread] at h
  · cases h
    exact .inl rfl
  cases hcur : (bucket.objects key).bind StoredObject.lease with
  | none =>
    rw [hcur] at h
    cases h
    exact .inl rfl
  | some p =>
    obtain ⟨lease, etag⟩ := p
    rw [hcur] at h
    dsimp only at h
    by_cases howner : lease.owner = owner
    · rw [if_pos howner] at h
      cases h
      obtain ⟨hview, hadm⟩ := view_of_read hcur
      -- the delete names the ETag just read, so only a lost request keeps the object
      unfold deleteObject
      rcases net'.next with ⟨_ | _, _⟩
      · exact .inr ⟨⟨_, hview, howner⟩, if_pos hadm⟩
      · exact .inl rfl
    · rw [if_neg howner] at h
      cases h
      exact .inl rfl

end DeltaGlider.Coordination
