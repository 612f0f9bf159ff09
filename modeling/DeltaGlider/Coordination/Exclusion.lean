import DeltaGlider.Coordination.Lease
import DeltaGlider.Lib.Trace

/-!
# Mutual exclusion of leases and reference locks over every interleaving

Any number of callers, each an `S3Lease` or `S3ReferenceLock` of some node
and an owner token, call `try_acquire`, `renew` and `release` in any order
against one coordination bucket, while a shared clock only moves forward.
Each call reads and conditionally writes atomically at the current clock
(`Step`); a `Run` is any serial order of calls.

A call that returns `Ok(true)` grants its owner the term
`[now, now.saturating_add(ttl.max(1))]` of its key, replacing the owner's
earlier term of that key; a `release` ends the owner's term, whatever the
bucket did (`CoordEvent.holds`, `holdsAfter`).

* `self_reclaim_overlap`: two owners on one node.  The second
  `try_acquire` finds the first owner's live lease written from its own node
  and takes it (self-reclaim), and both now hold overlapping terms.
* `coordination_lease_exclusion`: when each node lets one owner at a time
  take a key (`NodeTurns`: the engine's in-process lock around a reference
  write, or one owner per node for the rule schedulers), the terms of
  distinct owners of one key never overlap, in every run; and in every run,
  once another owner was granted a key, a `renew` by an owner fails until
  that owner's next successful `try_acquire` of the key: a lapsed owner never
  renews a lease a peer took.

The invariant behind the first is `Guarded`: the object at each key names
the owner, node and an expiry no earlier than that of every live term
(`CasLease.Covered`), and `Guarded.step` is one case per call, each an
application of `CasLease`'s grant and drop lemmas to the call's `_cases`
lemma.
-/

namespace DeltaGlider.Coordination

open RustStd

/-! ## Calls, events and runs -/

/-- The shared state: the clock every call reads, and the bucket. -/
structure CoordState where
  clock : Int
  bucket : CoordBucket

/-- One call by one caller. -/
inductive CoordOp
  | leaseTryAcquire (lease : S3Lease) (subsystem : LeaseSubsystem) (rule owner : String)
      (ttlSecs : Int)
  | leaseRenew (lease : S3Lease) (subsystem : LeaseSubsystem) (rule owner : String)
      (ttlSecs : Int)
  | leaseRelease (subsystem : LeaseSubsystem) (rule owner : String)
  | lockTryAcquire (lock : S3ReferenceLock) (key owner : String)
  | lockRelease (key owner : String)
  /-- The clock moves on. -/
  | tick (secs : Nat)

/-- A call at the current clock, over a transport that loses the requests
`net` says: whether it returned `Ok(true)`, and the state after it. -/
def CoordOp.run (net : Net) (st : CoordState) : CoordOp → Bool × CoordState
  | .leaseTryAcquire lease subsystem rule owner ttlSecs =>
    let call := lease.tryAcquire subsystem rule owner st.clock ttlSecs net st.bucket
    (returnedTrue call.1, { st with bucket := call.2 })
  | .leaseRenew lease subsystem rule owner ttlSecs =>
    let call := lease.renew subsystem rule owner st.clock ttlSecs net st.bucket
    (returnedTrue call.1, { st with bucket := call.2 })
  | .leaseRelease subsystem rule owner =>
    (false, { st with bucket := (S3Lease.release subsystem rule owner net st.bucket).2 })
  | .lockTryAcquire lock key owner =>
    let call := lock.tryAcquire key owner st.clock net st.bucket
    (returnedTrue call.1, { st with bucket := call.2 })
  | .lockRelease key owner =>
    (false, { st with bucket := (S3ReferenceLock.release key owner net st.bucket).2 })
  | .tick secs => (false, { st with clock := st.clock + secs })

/-- A call as a run records it: the clock it ran at, the call, and whether
it returned `Ok(true)`. -/
structure CoordEvent where
  now : Int
  op : CoordOp
  granted : Bool

/-- One call, atomic at the current clock. -/
inductive Step : CoordState → CoordEvent → CoordState → Prop
  | call (st : CoordState) (op : CoordOp) (net : Net) :
      Step st ⟨st.clock, op, (op.run net st).1⟩ (op.run net st).2

abbrev Run := Trace.Run Step

/-! ## Terms -/

/-- A term of a key's lease: key, owner, the caller's node, start and expiry. -/
abbrev Term := CasLease.Term String String String

/-- The term a call asks for: its key and owner, the caller's node, and
`[now, now.saturating_add(ttl.max(1))]`. -/
def CoordOp.term (now : Int) : CoordOp → Option Term
  | .leaseTryAcquire lease subsystem rule owner ttlSecs =>
    some ⟨S3Lease.objectKey subsystem rule, owner, lease.nodeId, now,
      i64SaturatingAdd now (max ttlSecs 1)⟩
  | .leaseRenew lease subsystem rule owner ttlSecs =>
    some ⟨S3Lease.objectKey subsystem rule, owner, lease.nodeId, now,
      i64SaturatingAdd now (max ttlSecs 1)⟩
  | .lockTryAcquire lock key owner =>
    some ⟨key, owner, lock.nodeId, now, i64SaturatingAdd now (max lock.ttlSecs 1)⟩
  | _ => none

/-- The key and owner a call releases. -/
def CoordOp.releases : CoordOp → Option (String × String)
  | .leaseRelease subsystem rule owner => some (S3Lease.objectKey subsystem rule, owner)
  | .lockRelease key owner => some (key, owner)
  | _ => none

/-- Whether a call is a `try_acquire`. -/
def CoordOp.isAcquire : CoordOp → Bool
  | .leaseTryAcquire .. | .lockTryAcquire .. => true
  | _ => false

/-- The terms held after an event. -/
def CoordEvent.holds (ts : List Term) (ev : CoordEvent) : List Term :=
  match ev.op.term ev.now, ev.op.releases with
  | some t, _ => if ev.granted then CasLease.grant ts t else ts
  | none, some (key, owner) => CasLease.drop ts key owner
  | none, none => ts

/-- The terms held after a run's events. -/
def holdsAfter (evs : List CoordEvent) : List Term :=
  evs.foldl CoordEvent.holds []

/-- Before a `try_acquire`, no other owner on the caller's node holds a
live term of the key. -/
def CoordEvent.NodeTurn (ts : List Term) (ev : CoordEvent) : Prop :=
  ev.op.isAcquire = true →
    ∀ t ∈ (ev.op.term ev.now).toList, CasLease.Turn ev.now ts t.key t.node t.holder

instance (ts : List Term) (ev : CoordEvent) : Decidable (ev.NodeTurn ts) :=
  inferInstanceAs (Decidable (ev.op.isAcquire = true →
    ∀ t ∈ (ev.op.term ev.now).toList, CasLease.Turn ev.now ts t.key t.node t.holder))

/-- Each node lets one owner at a time take a key, all along a run. -/
def NodeTurns (evs : List CoordEvent) : Prop :=
  Trace.Along CoordEvent.holds (fun ts ev => ev.NodeTurn ts) [] evs

instance (evs : List CoordEvent) : Decidable (NodeTurns evs) :=
  Trace.decidableAlong _ _ [] evs

/-- The term a successful `try_acquire` granted. -/
def CoordEvent.acquired (ev : CoordEvent) : Option Term :=
  if ev.granted && ev.op.isAcquire then ev.op.term ev.now else none

theorem holds_of_term {ev : CoordEvent} {t : Term} (ts : List Term)
    (hterm : ev.op.term ev.now = some t) :
    ev.holds ts = if ev.granted then CasLease.grant ts t else ts := by
  simp [CoordEvent.holds, hterm]

theorem holds_of_releases {ev : CoordEvent} {key owner : String} (ts : List Term)
    (hterm : ev.op.term ev.now = none) (hrel : ev.op.releases = some (key, owner)) :
    ev.holds ts = CasLease.drop ts key owner := by
  simp [CoordEvent.holds, hterm, hrel]

theorem holds_of_none {ev : CoordEvent} (ts : List Term) (hterm : ev.op.term ev.now = none)
    (hrel : ev.op.releases = none) : ev.holds ts = ts := by
  simp [CoordEvent.holds, hterm, hrel]

/-! ## What one call can do -/

/-- The effect of one call on the state. -/
inductive StepEffect (st : CoordState) (ev : CoordEvent) : CoordState → Prop
  /-- `try_acquire` or `renew` returned `Ok(true)` after writing the term's
  lease: a `try_acquire` over an object that was absent, expired or written
  from the caller's node, a `renew` over the caller's own lease. -/
  | granted (t : Term) (epoch : Nat) (hterm : ev.op.term ev.now = some t)
      (hgranted : ev.granted = true) (hstart : t.start = st.clock)
      (hsteal : ev.op.isAcquire = true →
        ∀ e, leaseView st.bucket t.key = some e → e.expiresAt < st.clock ∨ e.node = t.node)
      (hrenew : ev.op.isAcquire = false →
        ∃ e, leaseView st.bucket t.key = some e ∧ e.holder = t.holder) :
      StepEffect st ev ⟨st.clock, st.bucket.write t.key (bodyFor t.node t.holder epoch t.expiresAt)⟩
  /-- `try_acquire` or `renew` returned anything else and wrote nothing. -/
  | refused (t : Term) (hterm : ev.op.term ev.now = some t) (hgranted : ev.granted = false) :
      StepEffect st ev st
  /-- A `release` that left the object alone. -/
  | kept (key owner : String) (hterm : ev.op.term ev.now = none)
      (hrel : ev.op.releases = some (key, owner)) : StepEffect st ev st
  /-- A `release` that deleted the object, which named the releasing owner. -/
  | deleted (key owner : String) (hterm : ev.op.term ev.now = none)
      (hrel : ev.op.releases = some (key, owner))
      (hname : ∃ e, leaseView st.bucket key = some e ∧ e.holder = owner) :
      StepEffect st ev ⟨st.clock, st.bucket.erase key⟩
  /-- The clock moved on. -/
  | ticked (secs : Nat) (hterm : ev.op.term ev.now = none) (hrel : ev.op.releases = none) :
      StepEffect st ev ⟨st.clock + secs, st.bucket⟩

/-- A `try_acquire` call's effect, from `tryAcquireObject_cases`. -/
theorem stepEffect_tryAcquire {st : CoordState} {op : CoordOp} {net : Net} {t : Term}
    {ttlSecs : Int} (hterm : op.term st.clock = some t) (hacq : op.isAcquire = true)
    (hexp : t.expiresAt = i64SaturatingAdd st.clock (max ttlSecs 1))
    (hrun : op.run net st =
      (returnedTrue (tryAcquireObject t.node t.key t.holder st.clock ttlSecs net st.bucket).1,
        { st with bucket := (tryAcquireObject t.node t.key t.holder st.clock ttlSecs net st.bucket).2 }))
    (hstart : t.start = st.clock) :
    StepEffect st ⟨st.clock, op, (op.run net st).1⟩ (op.run net st).2 := by
  obtain ⟨r, b', hcall⟩ : ∃ r b',
      tryAcquireObject t.node t.key t.holder st.clock ttlSecs net st.bucket = (r, b') := ⟨_, _, rfl⟩
  rw [hrun, hcall]
  rcases tryAcquireObject_cases hcall with ⟨hr, rfl⟩ | ⟨hr, hplan, epoch, rfl⟩
  · rw [hr]
    exact .refused t hterm rfl
  · rw [hr, ← hexp]
    exact .granted t epoch hterm rfl hstart (fun _ => hplan) (fun h => absurd hacq (by simp [h]))

/-- **What one call can do.** -/
theorem step_effect {st st' : CoordState} {ev : CoordEvent} (hs : Step st ev st') :
    ev.now = st.clock ∧ StepEffect st ev st' := by
  cases hs with
  | call op net =>
    refine ⟨rfl, ?_⟩
    cases op with
    | leaseTryAcquire lease subsystem rule owner ttlSecs =>
      exact stepEffect_tryAcquire rfl rfl rfl rfl rfl
    | lockTryAcquire lock key owner =>
      exact stepEffect_tryAcquire rfl rfl rfl rfl rfl
    | leaseRenew lease subsystem rule owner ttlSecs =>
      obtain ⟨r, b', hcall⟩ : ∃ r b', lease.renew subsystem rule owner st.clock ttlSecs net st.bucket
          = (r, b') := ⟨_, _, rfl⟩
      simp only [CoordOp.run, hcall]
      rcases renewAttempts_cases hcall with ⟨hr, rfl⟩ | ⟨hr, ⟨e, he, howner, -⟩, epoch, rfl⟩
      · rw [hr]
        exact .refused _ rfl rfl
      · rw [hr]
        refine .granted ⟨S3Lease.objectKey subsystem rule, owner, lease.nodeId, st.clock,
          i64SaturatingAdd st.clock (max ttlSecs 1)⟩ epoch rfl rfl rfl ?_ fun _ => ⟨e, he, howner⟩
        intro h
        cases h
    | leaseRelease subsystem rule owner =>
      obtain ⟨r, b', hcall⟩ : ∃ r b', S3Lease.release subsystem rule owner net st.bucket
          = (r, b') := ⟨_, _, rfl⟩
      simp only [CoordOp.run, hcall]
      rcases releaseObject_cases hcall with rfl | ⟨hname, rfl⟩
      · exact .kept _ _ rfl rfl
      · exact .deleted _ _ rfl rfl hname
    | lockRelease key owner =>
      obtain ⟨r, b', hcall⟩ : ∃ r b', S3ReferenceLock.release key owner net st.bucket
          = (r, b') := ⟨_, _, rfl⟩
      simp only [CoordOp.run, hcall]
      rcases releaseObject_cases hcall with rfl | ⟨hname, rfl⟩
      · exact .kept _ _ rfl rfl
      · exact .deleted _ _ rfl rfl hname
    | tick secs => exact .ticked secs rfl rfl

/-! ## Exclusion under node turns -/

/-- The object at each key covers the live terms, no term starts in the
future, and terms of distinct owners of one key do not overlap. -/
structure Guarded (ts : List Term) (st : CoordState) : Prop where
  covered : CasLease.Covered (leaseView st.bucket) st.clock ts
  started : CasLease.Started st.clock ts
  exclusive : CasLease.Exclusive ts

theorem guarded_nil (st : CoordState) : Guarded [] st where
  covered _ h := absurd h List.not_mem_nil
  started _ h := absurd h List.not_mem_nil
  exclusive _ h := absurd h List.not_mem_nil

variable {ts : List Term} {st : CoordState}

/-- A grant that wrote the term's lease, once every other owner's term of
the key has lapsed. -/
theorem Guarded.grant {t : Term} (h : Guarded ts st) (epoch : Nat) (hstart : t.start = st.clock)
    (hlap : CasLease.Lapsed st.clock ts t.key t.holder) :
    Guarded (CasLease.grant ts t)
      ⟨st.clock, st.bucket.write t.key (bodyFor t.node t.holder epoch t.expiresAt)⟩ where
  covered := by
    show CasLease.Covered (leaseView (st.bucket.write _ _)) _ _
    rw [leaseView_write _ _ _ _ _ t.start]
    exact h.covered.grant hlap
  started := h.started.grant hstart
  exclusive := CasLease.grant_exclusive h.exclusive hlap hstart

theorem Guarded.drop (h : Guarded ts st) (key owner : String) :
    Guarded (CasLease.drop ts key owner) st :=
  ⟨h.covered.drop, h.started.drop, h.exclusive.drop⟩

/-- A release that deleted the object, which named the releasing owner. -/
theorem Guarded.erase {key owner : String} (h : Guarded ts st)
    (hname : ∃ e, leaseView st.bucket key = some e ∧ e.holder = owner) :
    Guarded (CasLease.drop ts key owner) ⟨st.clock, st.bucket.erase key⟩ where
  covered := by
    show CasLease.Covered (leaseView (st.bucket.erase key)) _ _
    rw [leaseView_erase]
    obtain ⟨e, he, howner⟩ := hname
    exact h.covered.erase fun e' he' => by
      rw [he, Option.some.injEq] at he'
      exact he' ▸ howner
  started := h.started.drop
  exclusive := h.exclusive.drop

theorem Guarded.tick (h : Guarded ts st) (secs : Nat) :
    Guarded ts ⟨st.clock + secs, st.bucket⟩ :=
  have hle : st.clock ≤ st.clock + secs := by omega
  ⟨h.covered.mono hle, h.started.mono hle, h.exclusive⟩

/-- **One call keeps the invariant**, provided a `try_acquire` is its node's
turn. -/
theorem Guarded.step {ev : CoordEvent} {st' : CoordState} (h : Guarded ts st)
    (hturn : ev.NodeTurn ts) (hs : Step st ev st') : Guarded (ev.holds ts) st' := by
  obtain ⟨hnow, heff⟩ := step_effect hs
  cases heff with
  | granted t epoch hterm hgranted hstart hsteal hrenew =>
    rw [holds_of_term ts hterm, if_pos hgranted]
    -- which test let the write through decides why the other owners' terms lapsed
    have hlap : CasLease.Lapsed st.clock ts t.key t.holder := by
      cases hacq : ev.op.isAcquire
      · obtain ⟨e, he, howner⟩ := hrenew hacq
        exact h.covered.lapsed_of_holder fun e' he' => by
          rw [he, Option.some.injEq] at he'
          exact he' ▸ howner
      · have hturn' := hturn hacq t (by simp [hterm])
        rw [hnow] at hturn'
        exact h.covered.lapsed_of_reclaimable (hsteal hacq) hturn'
    exact h.grant epoch hstart hlap
  | refused t hterm hgranted =>
    rw [holds_of_term ts hterm, if_neg (by simp [hgranted])]
    exact h
  | kept key owner hterm hrel =>
    rw [holds_of_releases ts hterm hrel]
    exact h.drop key owner
  | deleted key owner hterm hrel hname =>
    rw [holds_of_releases ts hterm hrel]
    exact h.erase hname
  | ticked secs hterm hrel =>
    rw [holds_of_none ts hterm hrel]
    exact h.tick secs

/-- Over a run along which each `try_acquire` is its node's turn. -/
theorem Guarded.run {evs : List CoordEvent} {st' : CoordState} (h : Guarded ts st)
    (hrun : Run st evs st')
    (hturns : Trace.Along CoordEvent.holds (fun ts ev => ev.NodeTurn ts) ts evs) :
    Guarded (evs.foldl CoordEvent.holds ts) st' :=
  Trace.Run.fold CoordEvent.holds _ (fun _ _ _ _ hI hP hs => hI.step hP hs) hrun ts hturns h

/-! ## No renewal after a peer's grant -/

/-- The object at `key` does not name `owner`. -/
def NotNamed (key owner : String) (st : CoordState) : Prop :=
  ∀ e, leaseView st.bucket key = some e → e.holder ≠ owner

/-- A call that acquires nothing for `owner` at `key` keeps the object at
`key` off `owner`: a renewal there is by the owner the object names. -/
theorem NotNamed.step {key owner : String} {ev : CoordEvent} {st' : CoordState}
    (h : NotNamed key owner st) (hacq : ∀ t ∈ ev.acquired, ¬(t.key = key ∧ t.holder = owner))
    (hs : Step st ev st') : NotNamed key owner st' := by
  obtain ⟨-, heff⟩ := step_effect hs
  cases heff with
  | granted t epoch hterm hgranted hstart hsteal hrenew =>
    intro e he
    change leaseView (st.bucket.write _ _) key = some e at he
    rw [leaseView_write _ _ _ _ _ t.start, CasLease.write] at he
    by_cases hk : key = t.key
    · subst hk
      rw [Function.update_self, Option.some.injEq] at he
      subst he
      cases hA : ev.op.isAcquire
      · -- a renewal: the object already named the renewing owner
        obtain ⟨e', he', howner⟩ := hrenew hA
        exact howner ▸ h e' he'
      · exact fun hh => hacq t (by simp [CoordEvent.acquired, hgranted, hA, hterm]) ⟨rfl, hh⟩
    · rw [Function.update_of_ne hk] at he
      exact h e he
  | refused => exact h
  | kept => exact h
  | deleted key' owner' hterm hrel hname =>
    intro e he
    change leaseView (st.bucket.erase key') key = some e at he
    rw [leaseView_erase] at he
    by_cases hk : key = key'
    · subst hk
      rw [Function.update_self] at he
      cases he
    · rw [Function.update_of_ne hk] at he
      exact h e he
  | ticked => exact h

/-- After a grant, the object at the key names the grantee. -/
theorem view_of_granted {st' : CoordState} {ev : CoordEvent} {t : Term} (hs : Step st ev st')
    (hgranted : ev.granted = true) (hterm : ev.op.term ev.now = some t) :
    leaseView st'.bucket t.key = some ⟨t.holder, t.node, t.expiresAt⟩ := by
  obtain ⟨-, heff⟩ := step_effect hs
  cases heff with
  | granted t' epoch hterm' =>
    rw [hterm, Option.some.injEq] at hterm'
    subst hterm'
    change leaseView (st.bucket.write _ _) t.key = _
    rw [leaseView_write _ _ _ _ _ t.start, CasLease.write, Function.update_self]
  | refused _ _ hgranted' => simp [hgranted] at hgranted'
  | kept _ _ hterm' => simp [hterm] at hterm'
  | deleted _ _ hterm' => simp [hterm] at hterm'
  | ticked _ hterm' => simp [hterm] at hterm'

theorem NotNamed.run {key owner : String} {evs : List CoordEvent} {st' : CoordState}
    (h : NotNamed key owner st) (hrun : Run st evs st')
    (hacq : ∀ ev ∈ evs, ∀ t ∈ ev.acquired, ¬(t.key = key ∧ t.holder = owner)) :
    NotNamed key owner st' :=
  Trace.Run.preserve _ (fun s ev s' (hI : NotNamed key owner s) hQ (hs : Step s ev s') =>
    hI.step hQ hs) hrun hacq h

/-- A `renew` is refused where the object does not name its owner. -/
theorem renew_refused {st' : CoordState} {ev : CoordEvent} {t : Term} (hs : Step st ev st')
    (h : NotNamed t.key t.holder st) (hrenew : ev.op.isAcquire = false)
    (hterm : ev.op.term ev.now = some t) : ev.granted = false := by
  obtain ⟨-, heff⟩ := step_effect hs
  cases heff with
  | granted t' epoch hterm' hgranted hstart hsteal hrenew' =>
    rw [hterm, Option.some.injEq] at hterm'
    subst hterm'
    obtain ⟨e, he, howner⟩ := hrenew' hrenew
    exact absurd howner (h e he)
  | refused _ _ hgranted => exact hgranted
  | kept _ _ hterm' => simp [hterm] at hterm'
  | deleted _ _ hterm' => simp [hterm] at hterm'
  | ticked _ hterm' => simp [hterm] at hterm'

/-! ## The two results -/

/-- A call recorded at the current clock with what it returned. -/
theorem Step.of_run {op : CoordOp} (net : Net) {now : Int} {granted : Bool}
    (hnow : now = st.clock) (hgranted : (op.run net st).1 = granted) :
    Step st ⟨now, op, granted⟩ (op.run net st).2 := by
  subst hnow hgranted
  exact .call st op net

/-- `task-a` and then `task-b`, both on `node-1`, take the replication lease
of `rule` with a 60 s TTL, ten seconds apart. -/
def selfReclaimRun : List CoordEvent :=
  [⟨0, .leaseTryAcquire ⟨"node-1"⟩ .replication "rule" "task-a" 60, true⟩,
   ⟨0, .tick 10, false⟩,
   ⟨10, .leaseTryAcquire ⟨"node-1"⟩ .replication "rule" "task-b" 60, true⟩]

/-- **Self-reclaim takes a live lease from another owner of the same
node**: both `try_acquire`s return `Ok(true)`, neither owner releases, and
their terms `[0, 60]` and `[10, 70]` overlap. -/
theorem self_reclaim_overlap :
    (∃ st, Run ⟨0, CoordBucket.empty⟩ selfReclaimRun st) ∧
    holdsAfter selfReclaimRun =
      [⟨"_dgp/leases/replication/rule.json", "task-b", "node-1", 10, 70⟩,
       ⟨"_dgp/leases/replication/rule.json", "task-a", "node-1", 0, 60⟩] ∧
    ¬ CasLease.Exclusive (holdsAfter selfReclaimRun) := by
  have hholds : holdsAfter selfReclaimRun =
      [⟨"_dgp/leases/replication/rule.json", "task-b", "node-1", 10, 70⟩,
       ⟨"_dgp/leases/replication/rule.json", "task-a", "node-1", 0, 60⟩] := by decide
  refine ⟨⟨_, .cons (Step.of_run [] rfl (by decide)) (.cons (Step.of_run [] rfl (by decide))
    (.cons (Step.of_run [] (by decide) (by decide)) (.nil _)))⟩, hholds, ?_⟩
  rw [hholds]
  intro hex
  have hdisj := hex _ List.mem_cons_self _ (List.mem_cons_of_mem _ List.mem_cons_self) rfl
    (by decide)
  simp only [CasLease.Term.Disjoint] at hdisj
  omega

/-- Mutual exclusion of the coordination leases and reference locks. -/
structure LeaseExclusion : Prop where
  /-- When each `try_acquire` is its node's turn, terms of distinct owners
  of one key never overlap. -/
  exclusive : ∀ {st st' : CoordState} {evs : List CoordEvent}, Run st evs st' →
    NodeTurns evs → CasLease.Exclusive (holdsAfter evs)
  /-- Once `evB` granted a key to another owner, a `renew` of the key fails
  until its owner next acquires the key. -/
  noResurrection : ∀ {st st' : CoordState} {pre mid post : List CoordEvent}
    {evB evA : CoordEvent} {tB tA : Term},
    Run st (pre ++ evB :: (mid ++ evA :: post)) st' →
    evB.granted = true → evB.op.term evB.now = some tB →
    evA.op.isAcquire = false → evA.op.term evA.now = some tA →
    tA.key = tB.key → tA.holder ≠ tB.holder →
    (∀ ev ∈ mid, ∀ t ∈ ev.acquired, ¬(t.key = tA.key ∧ t.holder = tA.holder)) →
    evA.granted = false

/-- **Leases and reference locks exclude each other** across nodes, and a
lapsed owner never renews a lease a peer took. -/
theorem coordination_lease_exclusion : LeaseExclusion where
  exclusive hrun hturns := ((guarded_nil _).run hrun hturns).exclusive
  noResurrection := by
    intro st st' pre mid post evB evA tB tA hrun hgranted htermB hrenew htermA hkey hne hmid
    obtain ⟨s₁, -, hrest⟩ := Trace.Run.split hrun
    obtain ⟨s₂, hsB, hrest⟩ := Trace.Run.uncons hrest
    obtain ⟨s₃, hmidrun, hlast⟩ := Trace.Run.split hrest
    obtain ⟨s₄, hsA, -⟩ := Trace.Run.uncons hlast
    -- right after `evB` the object names `tB`'s owner, which is not `tA`'s
    have hB : NotNamed tA.key tA.holder s₂ := by
      intro e he
      rw [hkey, view_of_granted hsB hgranted htermB, Option.some.injEq] at he
      rw [← he]
      exact Ne.symm hne
    exact renew_refused hsA (hB.run hmidrun hmid) hrenew htermA

/-- `task-a` on `node-1` takes the lease with a 60 s TTL; it lapses, and
`task-b` on `node-2` takes it at 61; `task-a`'s renewal at 61 is refused. -/
def handoverRun : List CoordEvent :=
  [⟨0, .leaseTryAcquire ⟨"node-1"⟩ .replication "rule" "task-a" 60, true⟩,
   ⟨0, .tick 61, false⟩,
   ⟨61, .leaseTryAcquire ⟨"node-2"⟩ .replication "rule" "task-b" 60, true⟩,
   ⟨61, .leaseRenew ⟨"node-1"⟩ .replication "rule" "task-a" 60, false⟩]

theorem coordination_lease_exclusion_handover :
    NodeTurns handoverRun ∧ CasLease.Exclusive (holdsAfter handoverRun) := by
  obtain ⟨st, hrun⟩ : ∃ st, Run ⟨0, CoordBucket.empty⟩ handoverRun st :=
    ⟨_, .cons (Step.of_run [] rfl (by decide)) (.cons (Step.of_run [] rfl (by decide))
      (.cons (Step.of_run [] (by decide) (by decide))
        (.cons (Step.of_run [] (by decide) (by decide)) (.nil _))))⟩
  exact ⟨by decide, coordination_lease_exclusion.exclusive hrun (by decide)⟩

end DeltaGlider.Coordination
