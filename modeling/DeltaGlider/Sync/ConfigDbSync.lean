import Mathlib.Order.MinMax
import DeltaGlider.Lib.Trace

/-!
# Config-DB sync between instances

Each instance keeps its IAM tables and its `session_revocations` in a local
config DB and shares them through one S3 object (`src/config_db_sync.rs`):

* the periodic poll of `spawn_config_sync_poll` runs `download_if_newer` —
  HEAD, compare the ETag with `last_etag`, GET under that ETag — then
  `reopen_and_rebuild_iam`, which merges the download into the live DB
  (`ConfigDb::merge_iam_from`: the IAM tables are replaced, the revocations
  MAX-merged) and the merged revocations into the `SessionStore`, and after a
  successful merge `commit_downloaded_etag`;
* `upload_with_reconcile`, under the instance's `upload_lock`, makes up to
  `MAX_UPLOAD_ATTEMPTS` attempts of `upload` — read the local DB file, take
  `last_etag`, PUT with `If-Match` (or `If-None-Match: *`), record the new
  ETag — and after a 412 forgets `last_etag` and runs the same download and
  merge before the next attempt.

Every `.await` between these steps lets another task of the instance, or
another instance, run: `step` is one such step of one task, and a
`Trace.Run` of steps is any interleaving.  HEAD, GET and PUT are atomic on
the object.

    revocations_grow_run     no node's DB or session store ever loses a revocation, and
                             each session store enforces every revocation of its DB
    fetchStep_merge          a merge brings a node's DB and sessions up to the download
    stale_push_drops_revocation   a peer's push, which reads its file before its ETag,
                             removes a pushed revocation from the object
    lone_writer_change_reverted   a lone writer's poll, HEADing its own upload before the
                             new ETag is recorded, reverts a later IAM change, locally
                             and then remotely

Left out: the passphrase check of a download (its failure is a failed
fetch), the schema-version gate of the merge (likewise), the jitter sleeps,
and the queued flush of an exhausted upload, which is one more
`uploadStart`.
-/

namespace DeltaGlider.Sync

variable {C : Type}

/-! ## Contents, tasks and instances -/

/-- What sync carries of a config DB: the IAM tables, as the changes applied
to them in order, and `session_revocations` (`revoked_since` per identity,
`0` for none). -/
structure DbContent (C : Type) where
  iam : List C
  revocations : String → Nat

/-- The MAX-upsert of `session_revocations` and of
`SessionStore::set_revocations`. -/
def maxMerge (mine theirs : String → Nat) : String → Nat :=
  fun identity => max (mine identity) (theirs identity)

/-- The single row `revoke_identity_sessions(identity, now)` upserts. -/
def revokedAt (identity : String) (now : Nat) : String → Nat :=
  fun id => if id = identity then now else 0

/-- `ConfigDb::merge_iam_from`: the IAM tables replaced by the download's,
the revocations MAX-merged. -/
def mergeIamFrom (live downloaded : DbContent C) : DbContent C :=
  { iam := downloaded.iam, revocations := maxMerge live.revocations downloaded.revocations }

/-- The S3 object: its content and its ETag. -/
abbrev Remote (C : Type) := Option (DbContent C × Nat)

/-- A `download_if_newer` and the merge after it, between two steps. -/
inductive Fetch (C : Type) where
  | start
  /-- HEAD saw this ETag, other than `last_etag`. -/
  | headed (etag : Nat)
  /-- GET returned this content under the same ETag. -/
  | fetched (content : DbContent C) (etag : Nat)
  /-- Merged into the live DB; `commit_downloaded_etag` is next. -/
  | merged (etag : Nat)

/-- An `upload_with_reconcile` between two steps; `n` is the attempt. -/
inductive Upload (C : Type) where
  | idle
  | attempt (n : Nat)
  /-- The local DB file is read; the `last_etag` snapshot is next. -/
  | read (n : Nat) (data : DbContent C)
  | put (n : Nat) (data : DbContent C) (expected : Option Nat)
  /-- The PUT succeeded with this ETag; recording it is next. -/
  | stored (etag : Nat)
  /-- After a 412: the download and merge of the peer's version. -/
  | reconcile (n : Nat) (fetch : Fetch C)
  | returned (ok : Bool)

/-- One instance: its live DB, `last_etag`, the `SessionStore` revocations,
and where its poll and its upload are. -/
structure Node (C : Type) where
  db : DbContent C
  lastEtag : Option Nat
  sessions : String → Nat
  poll : Option (Fetch C)
  upload : Upload C

structure World (C : Type) where
  remote : Remote C
  nextEtag : Nat
  nodes : Nat → Node C

def World.setNode (w : World C) (i : Nat) (node : Node C) : World C :=
  { w with nodes := Function.update w.nodes i node }

/-! ## Steps -/

/-- HEAD and the comparison with `last_etag`: the ETag to GET, or `none`
when the object is absent or unchanged (`Ok(None)`). -/
def headEtag (remote : Remote C) (lastEtag : Option Nat) : Option Nat :=
  match remote with
  | none => none
  | some (_, etag) => if lastEtag = some etag then none else some etag

/-- GET: the body, when the object still has the ETag HEAD saw (otherwise
"Config DB changed during download"). -/
def getUnder (remote : Remote C) (etag : Nat) : Option (DbContent C) :=
  match remote with
  | some (content, e) => if e = etag then some content else none
  | none => none

/-- One step of a download and merge: the fetch after it (`none` once it has
ended) and the node after it. -/
def fetchStep (remote : Remote C) (node : Node C) : Fetch C → Option (Fetch C) × Node C
  | .start => ((headEtag remote node.lastEtag).map .headed, node)
  | .headed etag => ((getUnder remote etag).map (Fetch.fetched · etag), node)
  | .fetched content etag =>
    let db := mergeIamFrom node.db content
    (some (.merged etag), { node with db := db, sessions := maxMerge node.sessions db.revocations })
  | .merged etag => (none, { node with lastEtag := some etag })

/-- The precondition of `upload`'s PUT: `If-Match` the expected ETag, or
`If-None-Match: *` without one. -/
def putAllowed (remote : Remote C) : Option Nat → Bool
  | some etag =>
    match remote with
    | some (_, e) => e == etag
    | none => false
  | none => remote.isNone

def maxUploadAttempts : Nat := 3

/-- After a failed attempt: the next one, or `Err` once they are spent. -/
def nextAttempt (n : Nat) : Upload C :=
  if n < maxUploadAttempts then .attempt (n + 1) else .returned false

/-- The next step of node `i`'s poll: the tick that starts a download, or a
step of the download in progress. -/
def pollStep (w : World C) (i : Nat) : World C :=
  let node := w.nodes i
  match node.poll with
  | none => w.setNode i { node with poll := some .start }
  | some fetch =>
    let r := fetchStep w.remote node fetch
    w.setNode i { r.2 with poll := r.1 }

/-- The next step of node `i`'s upload. -/
def uploadStep (w : World C) (i : Nat) : Option (World C) :=
  let node := w.nodes i
  match node.upload with
  | .idle | .returned _ => none
  | .attempt n => some (w.setNode i { node with upload := .read n node.db })
  | .read n data => some (w.setNode i { node with upload := .put n data node.lastEtag })
  | .put n data expected =>
    if putAllowed w.remote expected then
      some { remote := some (data, w.nextEtag), nextEtag := w.nextEtag + 1,
             nodes := Function.update w.nodes i { node with upload := .stored w.nextEtag } }
    else
      -- a 412: forget the ETag, then reconcile
      some (w.setNode i { node with lastEtag := none, upload := .reconcile n .start })
  | .stored etag => some (w.setNode i { node with lastEtag := some etag, upload := .returned true })
  | .reconcile n fetch =>
    let r := fetchStep w.remote node fetch
    some (w.setNode i { r.2 with
      upload := match r.1 with
        | some fetch' => .reconcile n fetch'
        | none => nextAttempt n })

/-- What a node's tasks do, one step at a time. -/
inductive SyncEvent (C : Type) where
  /-- An admin IAM change, committed to the live DB. -/
  | mutateIam (node : Nat) (change : C)
  /-- The local part of `revoke_identities_everywhere`. -/
  | revoke (node : Nat) (identity : String) (now : Nat)
  | pollStep (node : Nat)
  /-- The poll's HEAD, GET, validation or merge fails. -/
  | pollFail (node : Nat)
  /-- `upload_with_reconcile` takes the `upload_lock`. -/
  | uploadStart (node : Nat)
  | uploadStep (node : Nat)
  /-- The file read or the PUT fails otherwise than 412, or the reconcile
  download or merge fails. -/
  | uploadFail (node : Nat)

def step (w : World C) : SyncEvent C → Option (World C)
  | .mutateIam i change =>
    let node := w.nodes i
    some (w.setNode i { node with db := { node.db with iam := node.db.iam ++ [change] } })
  | .revoke i identity now =>
    let node := w.nodes i
    some (w.setNode i { node with
      db := { node.db with revocations := maxMerge node.db.revocations (revokedAt identity now) },
      sessions := maxMerge node.sessions (revokedAt identity now) })
  | .pollStep i => some (pollStep w i)
  | .pollFail i =>
    let node := w.nodes i
    match node.poll with
    | some .start | some (.headed _) | some (.fetched _ _) => some (w.setNode i { node with poll := none })
    | _ => none
  | .uploadStart i =>
    let node := w.nodes i
    match node.upload with
    | .idle | .returned _ => some (w.setNode i { node with upload := .attempt 1 })
    | _ => none
  | .uploadStep i => uploadStep w i
  | .uploadFail i =>
    let node := w.nodes i
    match node.upload with
    | .attempt n | .put n _ _ | .reconcile n .start | .reconcile n (.headed _)
    | .reconcile n (.fetched _ _) => some (w.setNode i { node with upload := nextAttempt n })
    | _ => none

/-- One step of one task. -/
def Step (w : World C) (ev : SyncEvent C) (w' : World C) : Prop := step w ev = some w'

/-- A node synced to the object with this content and ETag. -/
def Node.synced (content : DbContent C) (etag : Nat) : Node C :=
  { db := content, lastEtag := some etag, sessions := content.revocations, poll := none,
    upload := .idle }

/-- Every instance synced to the object, after startup. -/
def World.init (content : DbContent C) : World C :=
  { remote := some (content, 0), nextEtag := 1, nodes := fun _ => Node.synced content 0 }

/-- The node whose task takes the step. -/
def SyncEvent.node : SyncEvent C → Nat
  | .mutateIam i _ | .revoke i _ _ | .pollStep i | .pollFail i | .uploadStart i | .uploadStep i
  | .uploadFail i => i

/-- Whether an upload returned `Ok`. -/
def Upload.isOk : Upload C → Bool
  | .returned ok => ok
  | _ => false

/-- `revoked_since` of an identity in the S3 object. -/
def remoteRevokedSince (w : World C) (identity : String) : Nat :=
  match w.remote with
  | some (content, _) => content.revocations identity
  | none => 0

/-- The IAM changes in the S3 object. -/
def remoteIam (w : World C) : List C :=
  match w.remote with
  | some (content, _) => content.iam
  | none => []

/-- Runs the events one after another while each is enabled. -/
def exec (w : World C) : List (SyncEvent C) → Option (World C)
  | [] => some w
  | ev :: evs => (step w ev).bind (exec · evs)

theorem run_of_exec {w w' : World C} {evs : List (SyncEvent C)} (h : exec w evs = some w') :
    Trace.Run Step w evs w' := by
  induction evs generalizing w with
  | nil =>
    cases h
    exact .nil _
  | cons ev evs ih =>
    rw [exec, Option.bind_eq_some_iff] at h
    obtain ⟨w₁, h₁, h₂⟩ := h
    exact .cons h₁ (ih h₂)

/-! ## Revocations are never lost locally -/

/-- Every revocation in the node's DB is enforced by its session store. -/
def Enforced (node : Node C) : Prop :=
  ∀ identity, node.db.revocations identity ≤ node.sessions identity

/-- `n'` keeps every revocation of `n`, in the DB and in the session store,
and enforces its DB's revocations when `n` did. -/
structure Grows (n n' : Node C) : Prop where
  db : ∀ identity, n.db.revocations identity ≤ n'.db.revocations identity
  sessions : ∀ identity, n.sessions identity ≤ n'.sessions identity
  enforced : Enforced n → Enforced n'

theorem Grows.refl (n : Node C) : Grows n n := ⟨fun _ => le_rfl, fun _ => le_rfl, id⟩

theorem Grows.trans {n₁ n₂ n₃ : Node C} (h₁ : Grows n₁ n₂) (h₂ : Grows n₂ n₃) : Grows n₁ n₃ :=
  ⟨fun id => (h₁.db id).trans (h₂.db id), fun id => (h₁.sessions id).trans (h₂.sessions id),
    fun h => h₂.enforced (h₁.enforced h)⟩

/-- A step that leaves the DB's revocations and the session store alone. -/
theorem Grows.of_eq {n n' : Node C} (hdb : n'.db.revocations = n.db.revocations)
    (hsessions : n'.sessions = n.sessions) : Grows n n' := by
  refine ⟨fun id => by rw [hdb], fun id => by rw [hsessions], fun h id => ?_⟩
  rw [hdb, hsessions]
  exact h id

/-- `Grows` reads the DB and the session store only. -/
theorem Grows.of_fields {n n' n'' : Node C} (h : Grows n n') (hdb : n''.db = n'.db)
    (hsessions : n''.sessions = n'.sessions) : Grows n n'' := by
  refine ⟨fun id => ?_, fun id => ?_, fun he id => ?_⟩
  · rw [hdb]
    exact h.db id
  · rw [hsessions]
    exact h.sessions id
  · rw [hdb, hsessions]
    exact h.enforced he id

theorem le_maxMerge_left (mine theirs : String → Nat) (identity : String) :
    mine identity ≤ maxMerge mine theirs identity := le_max_left _ _

theorem le_maxMerge_right (mine theirs : String → Nat) (identity : String) :
    theirs identity ≤ maxMerge mine theirs identity := le_max_right _ _

/-- `revoke` raises the DB and the session store by the same row. -/
theorem grows_revoke (node : Node C) (rows : String → Nat) :
    Grows node
      { node with
        db := { node.db with revocations := maxMerge node.db.revocations rows }
        sessions := maxMerge node.sessions rows } := by
  refine ⟨le_maxMerge_left _ _, le_maxMerge_left _ _, fun h id => ?_⟩
  exact max_le_max (h id) le_rfl

/-- A merge replaces the node's IAM tables by the download's, and brings its
DB and session store up to the download's revocations. -/
theorem fetchStep_merge (remote : Remote C) (node : Node C) (content : DbContent C) (etag : Nat) :
    (fetchStep remote node (.fetched content etag)).2.db.iam = content.iam ∧
      ∀ identity, content.revocations identity ≤
          (fetchStep remote node (.fetched content etag)).2.db.revocations identity ∧
        content.revocations identity ≤ (fetchStep remote node (.fetched content etag)).2.sessions identity :=
  ⟨rfl, fun _ => ⟨le_maxMerge_right _ _ _, (le_maxMerge_right _ _ _).trans (le_maxMerge_right _ _ _)⟩⟩

theorem fetchStep_grows (remote : Remote C) (node : Node C) (fetch : Fetch C) :
    Grows node (fetchStep remote node fetch).2 := by
  cases fetch with
  | start => exact Grows.refl node
  | headed etag => exact Grows.refl node
  | fetched content etag =>
    -- the merged revocations go to the DB and on to the session store
    exact ⟨le_maxMerge_left _ _, le_maxMerge_left _ _, fun _ _ => le_maxMerge_right _ _ _⟩
  | merged etag => exact Grows.of_eq rfl rfl

/-- A step that changes node `i` only, and keeps its revocations. -/
def GrowsAt (w w' : World C) : Prop :=
  ∃ i node', w'.nodes = Function.update w.nodes i node' ∧ Grows (w.nodes i) node'

theorem growsAt_setNode {w : World C} {i : Nat} {node' : Node C} (h : Grows (w.nodes i) node') :
    GrowsAt w (w.setNode i node') :=
  ⟨i, node', rfl, h⟩

theorem pollStep_growsAt (w : World C) (i : Nat) : GrowsAt w (pollStep w i) := by
  unfold pollStep
  dsimp only
  split
  · exact growsAt_setNode (Grows.of_eq rfl rfl)
  · exact growsAt_setNode ((fetchStep_grows _ _ _).of_fields rfl rfl)

theorem uploadStep_growsAt {w w' : World C} {i : Nat} (h : uploadStep w i = some w') :
    GrowsAt w w' := by
  unfold uploadStep at h
  dsimp only at h
  split at h
  · cases h
  · cases h
  · cases h
    exact growsAt_setNode (Grows.of_eq rfl rfl)
  · cases h
    exact growsAt_setNode (Grows.of_eq rfl rfl)
  · split at h
    · cases h
      exact ⟨i, _, rfl, Grows.of_eq rfl rfl⟩
    · cases h
      exact growsAt_setNode (Grows.of_eq rfl rfl)
  · cases h
    exact growsAt_setNode (Grows.of_eq rfl rfl)
  · cases h
    exact growsAt_setNode ((fetchStep_grows _ _ _).of_fields rfl rfl)

/-- Every step changes one node, which keeps its revocations. -/
theorem step_growsAt {w w' : World C} {ev : SyncEvent C} (h : Step w ev w') : GrowsAt w w' := by
  unfold Step at h
  cases ev with
  | mutateIam i change =>
    cases h
    exact growsAt_setNode (Grows.of_eq rfl rfl)
  | revoke i identity now =>
    cases h
    exact growsAt_setNode (grows_revoke _ _)
  | pollStep i =>
    cases h
    exact pollStep_growsAt w i
  | pollFail i =>
    simp only [step] at h
    split at h
    all_goals first
      | (cases h; exact growsAt_setNode (Grows.of_eq rfl rfl))
      | cases h
  | uploadStart i =>
    simp only [step] at h
    split at h
    all_goals first
      | (cases h; exact growsAt_setNode (Grows.of_eq rfl rfl))
      | cases h
  | uploadStep i => exact uploadStep_growsAt h
  | uploadFail i =>
    simp only [step] at h
    split at h
    all_goals first
      | (cases h; exact growsAt_setNode (Grows.of_eq rfl rfl))
      | cases h

theorem grows_of_step {w w' : World C} {ev : SyncEvent C} (h : Step w ev w') (j : Nat) :
    Grows (w.nodes j) (w'.nodes j) := by
  obtain ⟨i, node', hnodes, hgrows⟩ := step_growsAt h
  rw [hnodes]
  by_cases hji : j = i
  · subst hji
    rw [Function.update_self]
    exact hgrows
  · rw [Function.update_of_ne hji]
    exact Grows.refl _

theorem grows_run {w w' : World C} {evs : List (SyncEvent C)} (h : Trace.Run Step w evs w') (j : Nat) :
    Grows (w.nodes j) (w'.nodes j) := by
  induction h with
  | nil => exact Grows.refl _
  | cons hs _ ih => exact (grows_of_step hs j).trans ih

/-- In every interleaving from startup, each node's session store enforces
every revocation of its DB, and from then on neither loses a revocation. -/
theorem revocations_grow_run {content : DbContent C} {w w' : World C} {evs evs' : List (SyncEvent C)}
    (hreach : Trace.Run Step (World.init content) evs w) (hrun : Trace.Run Step w evs' w') (j : Nat) :
    Enforced (w.nodes j) ∧ Grows (w.nodes j) (w'.nodes j) := by
  have hinit : Enforced ((World.init content).nodes j) := fun _ => le_rfl
  exact ⟨(grows_run hreach j).enforced hinit, grows_run hrun j⟩

/-! ## Two races -/

/-- The object and every instance at startup: no IAM change, no revocation. -/
def emptyContent : DbContent Nat := ⟨[], fun _ => 0⟩

/-- Node 0 revokes `alice` at time 5 and pushes the revocation. -/
def revokeAndPush : List (SyncEvent Nat) :=
  [.revoke 0 "alice" 5, .uploadStart 0, .uploadStep 0, .uploadStep 0, .uploadStep 0, .uploadStep 0]

/-- Node 1 commits an IAM change and its push reads the DB file; its poll
then downloads and merges node 0's upload and commits that ETag; the push
takes the ETag and PUTs the file it read. -/
def stalePush : List (SyncEvent Nat) :=
  [.mutateIam 1 7, .uploadStart 1, .uploadStep 1,
   .pollStep 1, .pollStep 1, .pollStep 1, .pollStep 1, .pollStep 1,
   .uploadStep 1, .uploadStep 1, .uploadStep 1]

/-- After node 0's push returned `Ok` with the revocation, node 1's push
replaces the object by a file without it. -/
theorem stale_push_drops_revocation :
    ∃ w₁ w₂, Trace.Run Step (World.init emptyContent) revokeAndPush w₁ ∧
      (w₁.nodes 0).upload.isOk = true ∧ remoteRevokedSince w₁ "alice" = 5 ∧
      Trace.Run Step w₁ stalePush w₂ ∧ (w₂.nodes 1).upload.isOk = true ∧
      remoteRevokedSince w₂ "alice" = 0 :=
  ⟨_, _, run_of_exec rfl, rfl, rfl, run_of_exec rfl, rfl, rfl⟩

/-- Node 0 alone commits change 1 and pushes it; its poll HEADs the object
after the PUT but before the push records the new ETag, and GETs its own
upload; node 0 commits change 2; the poll merges the download. -/
def selfRevert : List (SyncEvent Nat) :=
  [.mutateIam 0 1, .uploadStart 0, .uploadStep 0, .uploadStep 0, .uploadStep 0,
   .pollStep 0, .pollStep 0, .pollStep 0,
   .uploadStep 0,
   .mutateIam 0 2,
   .pollStep 0, .pollStep 0]

/-- Node 0's next push. -/
def pushAgain : List (SyncEvent Nat) :=
  [.uploadStart 0, .uploadStep 0, .uploadStep 0, .uploadStep 0, .uploadStep 0]

/-- A lone writer loses its own committed change 2: from its DB, and then
from the object after its next successful push. -/
theorem lone_writer_change_reverted :
    (∀ ev ∈ selfRevert ++ pushAgain, ev.node = 0) ∧
    ∃ w₁ w₂, Trace.Run Step (World.init emptyContent) selfRevert w₁ ∧ 2 ∉ (w₁.nodes 0).db.iam ∧
      Trace.Run Step w₁ pushAgain w₂ ∧ (w₂.nodes 0).upload.isOk = true ∧ 2 ∉ remoteIam w₂ :=
  ⟨by decide, _, _, run_of_exec rfl, by decide, run_of_exec rfl, rfl, by decide⟩

end DeltaGlider.Sync
