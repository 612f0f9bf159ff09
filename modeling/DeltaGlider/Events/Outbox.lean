import Mathlib.Data.List.Sort
import DeltaGlider.Lib.RustStd

/-!
# The event outbox table and its listener cursors

The `event_outbox` and `listener_cursors` tables of `src/event_outbox.rs`
and every statement the delivery dispatcher and the listeners run on them:
inserting events, claiming due rows, marking them delivered or failed,
advancing a listener cursor, reading the active-listener floor, and the four
prunes.  Each function is one SQLite statement (or one transaction), run
under the `ConfigDb` mutex, so each is atomic.

A prune deletes the first `limit` rows of its `SELECT ... ORDER BY ... LIMIT`
subquery; all that matters for safety is that every deleted row meets the
subquery's `WHERE`:

    a delivered prune deletes only delivered rows with id ≤ min_keep_id
                                  (deletedBy_pruneDeliveredBefore, deletedBy_pruneDeliveredOverCount)
    the failed prune deletes only failed rows with id ≤ min_keep_id
                                                  (deletedBy_pruneFailedBefore)
    the floor prune deletes only rows with id ≤ min_keep_id, and nothing when
    min_keep_id is the "no listener" sentinel    (deletedBy_pruneBelowFloor)
    inserts, claims and marks delete nothing and keep ids unique
                    (deletedBy_eventOutboxInsertMany, Updates.deletedBy_eq_nil, WellFormed.*)
    no listener's last_event_id ever moves back  (cursorsGrow_listenerCursorAdvance)
    the active-listener floor is at or below every active cursor
                                                  (minActiveListenerCursor_le)
-/

namespace DeltaGlider.Outbox

open RustStd

/-! ## Algorithm -/

/-- The `status` column. -/
inductive Status where
  | pending
  | inProgress
  | delivered
  | failed
  deriving DecidableEq, Repr

/-- `EventKind`: what happened to an object. -/
inductive EventKind where
  | objectCreated
  | objectDeleted
  | objectCopied
  | replicationObjectCopied
  | lifecycleExpired
  | lifecycleTransitioned
  deriving DecidableEq, Repr

/-- `EventKind::as_str`, the text the `kind` column stores. -/
def EventKind.asStr : EventKind → String
  | .objectCreated => "ObjectCreated"
  | .objectDeleted => "ObjectDeleted"
  | .objectCopied => "ObjectCopied"
  | .replicationObjectCopied => "ReplicationObjectCopied"
  | .lifecycleExpired => "LifecycleExpired"
  | .lifecycleTransitioned => "LifecycleTransitioned"

/-- `NewEvent`, with the fields the outbox statements store and read. -/
structure NewEvent where
  kind : EventKind
  bucket : String
  key : String
  occurredAt : Int
  deriving DecidableEq, Repr

/-- An `event_outbox` row, with the columns the modelled statements read or
write.  `kind` is text: a row written by another build may carry a kind this
one does not know. -/
structure OutboxRow where
  id : Int
  kind : String
  bucket : String
  key : String
  occurredAt : Int
  status : Status
  attempts : Int
  nextAttemptAt : Option Int
  claimedAt : Option Int
  deliveredAt : Option Int
  deriving DecidableEq, Repr

/-- `ListenerCursor`: a listener's high-water `last_event_id`. -/
structure ListenerCursor where
  listenerName : String
  lastEventId : Int
  updatedAt : Int
  deriving DecidableEq, Repr

/-- The two tables, with the `AUTOINCREMENT` counter of `event_outbox`. -/
structure ConfigDb where
  rows : List OutboxRow
  cursors : List ListenerCursor
  nextId : Int
  deriving DecidableEq, Repr

namespace ConfigDb

/-- `DELETE FROM event_outbox WHERE id IN (...)`. -/
def deleteIds (db : ConfigDb) (ids : List Int) : ConfigDb :=
  { db with rows := db.rows.filter fun r => r.id ∉ ids }

/-- `UPDATE event_outbox SET ... WHERE id = ?`. -/
def updateRow (db : ConfigDb) (id : Int) (f : OutboxRow → OutboxRow) : ConfigDb :=
  { db with rows := db.rows.map fun r => if r.id = id then f r else r }

/-- The first `limit` ids of a subquery's rows in its `ORDER BY` order. -/
def firstIds (le : OutboxRow → OutboxRow → Prop) [DecidableRel le] (selected : List OutboxRow)
    (limit : Nat) : List Int :=
  ((selected.insertionSort le).take limit).map (·.id)

/-- An ascending two-column `ORDER BY`. -/
def keyLe (key : OutboxRow → Int × Int) (a b : OutboxRow) : Prop :=
  (key a).1 < (key b).1 ∨ ((key a).1 = (key b).1 ∧ (key a).2 ≤ (key b).2)

instance (key : OutboxRow → Int × Int) : DecidableRel (keyLe key) := fun a b =>
  inferInstanceAs (Decidable ((key a).1 < (key b).1 ∨ ((key a).1 = (key b).1 ∧ (key a).2 ≤ (key b).2)))

/-- The row the `INSERT` of `event_outbox_insert_many` adds: the event's
fields, the column defaults, status `pending`. -/
def pendingRow (id : Int) (event : NewEvent) : OutboxRow :=
  { id, kind := event.kind.asStr, bucket := event.bucket, key := event.key,
    occurredAt := event.occurredAt, status := .pending, attempts := 0, nextAttemptAt := none,
    claimedAt := none, deliveredAt := none }

/-- `event_outbox_insert_many`: one pending row per event, ids from the
counter, in one transaction. -/
def eventOutboxInsertMany (db : ConfigDb) : List NewEvent → ConfigDb × List Int
  | [] => (db, [])
  | event :: rest =>
    let (db', ids) := eventOutboxInsertMany
      { db with rows := db.rows ++ [pendingRow db.nextId event], nextId := db.nextId + 1 } rest
    (db', db.nextId :: ids)

/-- `event_outbox_since`, the listeners' drain query: the first `limit` rows
with an id above `after_id`, in id order. -/
def eventOutboxSince (db : ConfigDb) (afterId : Int) (limit : Nat) : List OutboxRow :=
  ((db.rows.filter fun r => decide (afterId < r.id)).insertionSort (keyLe fun r => (r.id, 0))).take
    limit

/-- The `WHERE` of `event_outbox_claim_due`: pending and due, or claimed
before the stale cutoff. -/
def isClaimable (now staleClaimedAt : Int) (r : OutboxRow) : Bool :=
  (r.status = .pending && r.nextAttemptAt.all (· ≤ now)) ||
    (r.status = .inProgress && r.claimedAt.any (· ≤ staleClaimedAt))

/-- The claiming `UPDATE` of one id, re-checking the `WHERE`; the loaded row
when it matched. -/
def claimOne (now staleClaimedAt : Int) (acc : ConfigDb × List OutboxRow) (id : Int) :
    ConfigDb × List OutboxRow :=
  match acc.1.rows.find? fun r => r.id = id && isClaimable now staleClaimedAt r with
  | none => acc
  | some r =>
    let claimed := { r with status := .inProgress, attempts := r.attempts + 1, claimedAt := some now }
    (acc.1.updateRow id fun _ => claimed, acc.2 ++ [claimed])

/-- `event_outbox_claim_due`: the due rows in `(occurred_at, id)` order, up
to `limit`, each claimed by its own `UPDATE`. -/
def eventOutboxClaimDue (db : ConfigDb) (now staleAfterSecs : Int) (limit : Nat) :
    ConfigDb × List OutboxRow :=
  if limit = 0 then (db, [])
  else
    let staleClaimedAt := i64SaturatingSub now (max staleAfterSecs 1)
    let ids := firstIds (keyLe fun r => (r.occurredAt, r.id))
      (db.rows.filter (isClaimable now staleClaimedAt)) limit
    ids.foldl (claimOne now staleClaimedAt) (db, [])

/-- `event_outbox_mark_delivered`. -/
def eventOutboxMarkDelivered (db : ConfigDb) (id now : Int) : ConfigDb :=
  db.updateRow id fun r =>
    { r with status := .delivered, deliveredAt := some now, claimedAt := none, nextAttemptAt := none }

/-- `event_outbox_mark_failed`: back to pending when a retry is scheduled,
else terminally failed. -/
def eventOutboxMarkFailed (db : ConfigDb) (id : Int) (nextAttemptAt : Option Int) : ConfigDb :=
  db.updateRow id fun r =>
    { r with status := if nextAttemptAt.isSome then .pending else .failed, nextAttemptAt,
             claimedAt := none }

/-- `listener_cursor_advance`: insert, or raise `last_event_id` to the
maximum and bump `updated_at` only when it rises. -/
def listenerCursorAdvance (db : ConfigDb) (listener : String) (newId now : Int) : ConfigDb :=
  if db.cursors.any (·.listenerName = listener) then
    { db with cursors := db.cursors.map fun c =>
        if c.listenerName = listener then
          { c with updatedAt := if newId > c.lastEventId then now else c.updatedAt,
                   lastEventId := max c.lastEventId newId }
        else c }
  else { db with cursors := db.cursors ++ [⟨listener, newId, now⟩] }

/-- `listener_cursor_load_full`. -/
def listenerCursorLoadFull (db : ConfigDb) (listener : String) : Option ListenerCursor :=
  db.cursors.find? (·.listenerName = listener)

/-- Whether a cursor counts as active: advanced at or after
`now.saturating_sub(max_age_secs)`. -/
def isActive (now maxAgeSecs : Int) (c : ListenerCursor) : Bool :=
  decide (i64SaturatingSub now maxAgeSecs ≤ c.updatedAt)

/-- `event_outbox_min_active_listener_cursor`. -/
def minActiveListenerCursor (db : ConfigDb) (now maxAgeSecs : Int) : Option Int :=
  ((db.cursors.filter (isActive now maxAgeSecs)).map (·.lastEventId)).min?

/-- `event_outbox_prune_delivered_before`: delivered before `before`, at or
below the floor, oldest first. -/
def eventOutboxPruneDeliveredBefore (db : ConfigDb) (before : Int) (limit : Nat)
    (minKeepId : Int) : ConfigDb × Nat :=
  if limit = 0 then (db, 0)
  else
    let ids := firstIds (keyLe fun r => (r.deliveredAt.getD 0, r.id))
      (db.rows.filter fun r => r.status = .delivered && r.deliveredAt.any (· < before) &&
        decide (r.id ≤ minKeepId)) limit
    (db.deleteIds ids, ids.length)

/-- `event_outbox_prune_delivered_over_count`: the delivered rows at or
below the floor beyond the newest `max_delivered_rows`, lowest ids first. -/
def eventOutboxPruneDeliveredOverCount (db : ConfigDb) (maxDeliveredRows limit : Nat)
    (minKeepId : Int) : ConfigDb × Nat :=
  if limit = 0 then (db, 0)
  else
    let newestFirst := (db.rows.filter fun r => r.status = .delivered && decide (r.id ≤ minKeepId))
      |>.insertionSort (fun a b => keyLe (fun r => ((r.deliveredAt.getD r.occurredAt), r.id)) b a)
    let ids := firstIds (keyLe fun r => (r.id, 0)) (newestFirst.drop maxDeliveredRows) limit
    (db.deleteIds ids, ids.length)

/-- `event_outbox_prune_failed_before`: failed rows that occurred before
`before`, at or below the floor, oldest first. -/
def eventOutboxPruneFailedBefore (db : ConfigDb) (before : Int) (limit : Nat) (minKeepId : Int) :
    ConfigDb × Nat :=
  if limit = 0 then (db, 0)
  else
    let ids := firstIds (keyLe fun r => (r.occurredAt, r.id))
      (db.rows.filter fun r => r.status = .failed && decide (r.occurredAt < before) &&
        decide (r.id ≤ minKeepId)) limit
    (db.deleteIds ids, ids.length)

/-- `event_outbox_prune_below_floor`: any row at or below the floor, lowest
ids first; nothing for a zero limit, a floor at or below 0, or the
`i64::MAX` "no active listener" sentinel. -/
def eventOutboxPruneBelowFloor (db : ConfigDb) (minKeepId : Int) (limit : Nat) : ConfigDb × Nat :=
  if limit = 0 ∨ minKeepId ≤ 0 ∨ minKeepId = i64Max then (db, 0)
  else
    let ids := firstIds (keyLe fun r => (r.id, 0)) (db.rows.filter fun r => decide (r.id ≤ minKeepId))
      limit
    (db.deleteIds ids, ids.length)

/-- The rows of `db` whose id is gone from `db'`. -/
def deletedBy (db db' : ConfigDb) : List OutboxRow :=
  db.rows.filter fun r => r.id ∉ db'.rows.map (·.id)

/-- What the schema keeps true of the tables: row ids are unique and below
the `AUTOINCREMENT` counter, and listener names are unique (the primary
key of `listener_cursors`). -/
structure WellFormed (db : ConfigDb) : Prop where
  nodup : (db.rows.map (·.id)).Nodup
  lt_nextId : ∀ r ∈ db.rows, r.id < db.nextId
  cursors_nodup : (db.cursors.map (·.listenerName)).Nodup

/-- `db'` differs from `db` only in the contents of its rows: what the
`UPDATE` statements do. -/
structure Updates (db db' : ConfigDb) : Prop where
  ids : db'.rows.map (·.id) = db.rows.map (·.id)
  cursors : db'.cursors = db.cursors
  nextId : db'.nextId = db.nextId

end ConfigDb

/-- Every listener of `cs` is still in `cs'`, at the same or a higher
`last_event_id`. -/
def CursorsGrow (cs cs' : List ListenerCursor) : Prop :=
  ∀ c ∈ cs, ∃ c' ∈ cs', c'.listenerName = c.listenerName ∧ c.lastEventId ≤ c'.lastEventId

/-! ## Lemmas -/

theorem CursorsGrow.refl (cs : List ListenerCursor) : CursorsGrow cs cs :=
  fun c hc => ⟨c, hc, rfl, le_rfl⟩

theorem CursorsGrow.trans {cs cs' cs'' : List ListenerCursor} (h₁ : CursorsGrow cs cs')
    (h₂ : CursorsGrow cs' cs'') : CursorsGrow cs cs'' := by
  intro c hc
  obtain ⟨c', hc', hname', hle'⟩ := h₁ c hc
  obtain ⟨c'', hc'', hname'', hle''⟩ := h₂ c' hc'
  exact ⟨c'', hc'', hname''.trans hname', hle'.trans hle''⟩

namespace ConfigDb

variable {db db' db'' : ConfigDb} {r : OutboxRow}

@[simp] theorem deleteIds_cursors (db : ConfigDb) (ids : List Int) :
    (db.deleteIds ids).cursors = db.cursors := rfl

@[simp] theorem deleteIds_nextId (db : ConfigDb) (ids : List Int) :
    (db.deleteIds ids).nextId = db.nextId := rfl

@[simp] theorem deleteIds_nil (db : ConfigDb) : db.deleteIds [] = db := by
  simp [deleteIds]

@[simp] theorem listenerCursorAdvance_rows (db : ConfigDb) (listener : String) (newId now : Int) :
    (db.listenerCursorAdvance listener newId now).rows = db.rows := by
  unfold listenerCursorAdvance
  split <;> rfl

@[simp] theorem listenerCursorAdvance_nextId (db : ConfigDb) (listener : String) (newId now : Int) :
    (db.listenerCursorAdvance listener newId now).nextId = db.nextId := by
  unfold listenerCursorAdvance
  split <;> rfl

/-! ### Deletions -/

/-- A row a `DELETE ... WHERE id IN ids` removes had its id in `ids`. -/
theorem id_mem_of_mem_deletedBy_deleteIds {ids : List Int}
    (hr : r ∈ deletedBy db (db.deleteIds ids)) : r.id ∈ ids := by
  simp only [deletedBy, List.mem_filter, decide_eq_true_eq] at hr
  obtain ⟨hmem, hgone⟩ := hr
  by_contra hkeep
  exact hgone (List.mem_map.mpr ⟨r, by simp [deleteIds, hmem, hkeep], rfl⟩)

theorem mem_firstIds {le : OutboxRow → OutboxRow → Prop} [DecidableRel le]
    {selected : List OutboxRow} {limit : Nat} {i : Int} (h : i ∈ firstIds le selected limit) :
    ∃ r ∈ selected, r.id = i := by
  obtain ⟨r, hr, rfl⟩ := List.mem_map.mp h
  exact ⟨r, (List.mem_insertionSort le).mp (List.mem_of_mem_take hr), rfl⟩

/-- Nothing is deleted when every id of `db` is still in `db'`. -/
theorem deletedBy_eq_nil (h : ∀ i ∈ db.rows.map (·.id), i ∈ db'.rows.map (·.id)) :
    deletedBy db db' = [] := by
  rw [deletedBy, List.filter_eq_nil_iff]
  intro r hr
  simpa using h r.id (List.mem_map_of_mem hr)

theorem WellFormed.eq_of_id_eq (hwf : db.WellFormed) {r' : OutboxRow} (hr : r ∈ db.rows)
    (hr' : r' ∈ db.rows) (h : r.id = r'.id) : r = r' :=
  List.inj_on_of_nodup_map hwf.nodup hr hr' h

/-- The subquery form of every prune: deleting the first ids of rows that
meet `p` deletes only rows that meet `p`.  Ids are unique, so the deleted
row is the selected one. -/
theorem deletedBy_firstIds (hwf : db.WellFormed) {p : OutboxRow → Bool}
    {le : OutboxRow → OutboxRow → Prop} [DecidableRel le] {selected : List OutboxRow} {limit : Nat}
    (hsel : ∀ r ∈ selected, r ∈ db.rows.filter p)
    (hr : r ∈ deletedBy db (db.deleteIds (firstIds le selected limit))) : p r = true := by
  obtain ⟨r', hr', hid⟩ := mem_firstIds (id_mem_of_mem_deletedBy_deleteIds hr)
  obtain ⟨hmem', hp'⟩ := List.mem_filter.mp (hsel r' hr')
  have hmem : r ∈ db.rows := (List.mem_filter.mp hr).1
  rw [hwf.eq_of_id_eq hmem hmem' hid.symm]
  exact hp'

theorem deletedBy_pruneDeliveredBefore (hwf : db.WellFormed) {before minKeepId : Int}
    {limit : Nat} (hr : r ∈ deletedBy db (db.eventOutboxPruneDeliveredBefore before limit minKeepId).1) :
    r.status = .delivered ∧ r.deliveredAt.any (· < before) ∧ r.id ≤ minKeepId := by
  unfold eventOutboxPruneDeliveredBefore at hr
  split at hr
  · simp [deletedBy_eq_nil] at hr
  · simpa [and_assoc] using deletedBy_firstIds hwf (fun _ h => h) hr

theorem deletedBy_pruneDeliveredOverCount (hwf : db.WellFormed) {maxDeliveredRows limit : Nat}
    {minKeepId : Int}
    (hr : r ∈ deletedBy db (db.eventOutboxPruneDeliveredOverCount maxDeliveredRows limit minKeepId).1) :
    r.status = .delivered ∧ r.id ≤ minKeepId := by
  unfold eventOutboxPruneDeliveredOverCount at hr
  split at hr
  · simp [deletedBy_eq_nil] at hr
  · -- the newest `max_delivered_rows` are dropped from the sorted selection
    simpa using deletedBy_firstIds hwf
      (fun _ h => (List.mem_insertionSort _).mp (List.mem_of_mem_drop h)) hr

theorem deletedBy_pruneFailedBefore (hwf : db.WellFormed) {before minKeepId : Int}
    {limit : Nat} (hr : r ∈ deletedBy db (db.eventOutboxPruneFailedBefore before limit minKeepId).1) :
    r.status = .failed ∧ r.occurredAt < before ∧ r.id ≤ minKeepId := by
  unfold eventOutboxPruneFailedBefore at hr
  split at hr
  · simp [deletedBy_eq_nil] at hr
  · simpa [and_assoc] using deletedBy_firstIds hwf (fun _ h => h) hr

/-- The floor prune deletes rows of any status, but only at or below a real
floor: never under the `i64::MAX` sentinel. -/
theorem deletedBy_pruneBelowFloor (hwf : db.WellFormed) {minKeepId : Int} {limit : Nat}
    (hr : r ∈ deletedBy db (db.eventOutboxPruneBelowFloor minKeepId limit).1) :
    0 < minKeepId ∧ minKeepId ≠ i64Max ∧ r.id ≤ minKeepId := by
  unfold eventOutboxPruneBelowFloor at hr
  split at hr
  · simp [deletedBy_eq_nil] at hr
  · rename_i hguard
    have hid : r.id ≤ minKeepId := by simpa using deletedBy_firstIds hwf (fun _ h => h) hr
    refine ⟨by omega, fun h => hguard (.inr (.inr h)), hid⟩

theorem WellFormed.deleteIds (hwf : db.WellFormed) (ids : List Int) : (db.deleteIds ids).WellFormed where
  nodup := hwf.nodup.sublist (List.filter_sublist.map _)
  lt_nextId r hr := hwf.lt_nextId r (List.mem_filter.mp hr).1
  cursors_nodup := hwf.cursors_nodup

/-! ### Updates -/

theorem Updates.refl (db : ConfigDb) : Updates db db := ⟨rfl, rfl, rfl⟩

theorem Updates.trans (h₁ : Updates db db') (h₂ : Updates db' db'') : Updates db db'' :=
  ⟨h₂.ids.trans h₁.ids, h₂.cursors.trans h₁.cursors, h₂.nextId.trans h₁.nextId⟩

theorem Updates.deletedBy_eq_nil (h : Updates db db') : deletedBy db db' = [] :=
  ConfigDb.deletedBy_eq_nil fun _ hi => h.ids ▸ hi

theorem Updates.wellFormed (h : Updates db db') (hwf : db.WellFormed) : db'.WellFormed where
  nodup := h.ids ▸ hwf.nodup
  lt_nextId r hr := by
    have hmem : r.id ∈ db'.rows.map (·.id) := List.mem_map_of_mem hr
    obtain ⟨r₀, hr₀, hid⟩ := List.mem_map.mp (h.ids ▸ hmem)
    rw [h.nextId, ← hid]
    exact hwf.lt_nextId r₀ hr₀
  cursors_nodup := h.cursors ▸ hwf.cursors_nodup

/-- An `UPDATE ... WHERE id = ?` that keeps the row's id. -/
theorem updates_updateRow (db : ConfigDb) (id : Int) (f : OutboxRow → OutboxRow)
    (hf : ∀ r ∈ db.rows, r.id = id → (f r).id = id) : Updates db (db.updateRow id f) := by
  refine ⟨?_, rfl, rfl⟩
  simp only [updateRow, List.map_map]
  apply List.map_congr_left
  intro r hr
  by_cases h : r.id = id
  · simp [h, hf r hr h]
  · simp [h]

theorem updates_claimOne (now staleClaimedAt : Int) (acc : ConfigDb × List OutboxRow) (id : Int) :
    Updates acc.1 (claimOne now staleClaimedAt acc id).1 := by
  unfold claimOne
  split
  · exact Updates.refl _
  · rename_i r hfind
    -- the found row carries the id the `UPDATE` names
    have hfound : r.id = id ∧ isClaimable now staleClaimedAt r = true := by
      simpa using List.find?_some hfind
    exact updates_updateRow _ _ _ fun _ _ _ => hfound.1

theorem updates_eventOutboxClaimDue (db : ConfigDb) (now staleAfterSecs : Int) (limit : Nat) :
    Updates db (db.eventOutboxClaimDue now staleAfterSecs limit).1 := by
  unfold eventOutboxClaimDue
  split
  · exact Updates.refl _
  · -- the claiming loop: each `UPDATE` only rewrites row contents
    suffices h : ∀ (ids : List Int) (acc : ConfigDb × List OutboxRow), Updates db acc.1 →
        Updates db (ids.foldl (claimOne now (i64SaturatingSub now (max staleAfterSecs 1))) acc).1 from
      h _ _ (Updates.refl db)
    intro ids
    induction ids with
    | nil => exact fun _ h => h
    | cons id ids ih => exact fun acc h => ih _ (h.trans (updates_claimOne _ _ _ _))

theorem updates_eventOutboxMarkDelivered (db : ConfigDb) (id now : Int) :
    Updates db (db.eventOutboxMarkDelivered id now) :=
  updates_updateRow _ _ _ fun _ _ h => h

theorem updates_eventOutboxMarkFailed (db : ConfigDb) (id : Int) (nextAttemptAt : Option Int) :
    Updates db (db.eventOutboxMarkFailed id nextAttemptAt) :=
  updates_updateRow _ _ _ fun _ _ h => h

/-! ### Inserts -/

@[simp] theorem eventOutboxInsertMany_cursors (db : ConfigDb) (events : List NewEvent) :
    (db.eventOutboxInsertMany events).1.cursors = db.cursors := by
  induction events generalizing db with
  | nil => rfl
  | cons event rest ih => exact ih _

/-- `event_outbox_insert_many` only appends rows. -/
theorem eventOutboxInsertMany_rows (db : ConfigDb) (events : List NewEvent) :
    ∃ added, (db.eventOutboxInsertMany events).1.rows = db.rows ++ added := by
  induction events generalizing db with
  | nil => exact ⟨[], by simp [eventOutboxInsertMany]⟩
  | cons event rest ih =>
    obtain ⟨added, hadded⟩ := ih
      { db with rows := db.rows ++ [pendingRow db.nextId event], nextId := db.nextId + 1 }
    exact ⟨pendingRow db.nextId event :: added, by simp [eventOutboxInsertMany, hadded]⟩

theorem deletedBy_eventOutboxInsertMany (db : ConfigDb) (events : List NewEvent) :
    deletedBy db (db.eventOutboxInsertMany events).1 = [] := by
  obtain ⟨added, hadded⟩ := eventOutboxInsertMany_rows db events
  exact deletedBy_eq_nil fun i hi => by simp_all

/-- Each inserted row takes the counter, above every id so far. -/
theorem WellFormed.eventOutboxInsertMany (hwf : db.WellFormed) (events : List NewEvent) :
    (db.eventOutboxInsertMany events).1.WellFormed := by
  induction events generalizing db with
  | nil => exact hwf
  | cons event rest ih =>
    apply ih
    refine ⟨?_, ?_, hwf.cursors_nodup⟩
    · show ((db.rows ++ [pendingRow db.nextId event]).map (·.id)).Nodup
      rw [List.map_append, List.nodup_append]
      refine ⟨hwf.nodup, by simp, ?_⟩
      rintro _ held _ once
      obtain ⟨r, hr, rfl⟩ := List.mem_map.mp held
      simp only [List.map_cons, List.map_nil, List.mem_singleton, pendingRow] at once
      rw [once]
      exact (hwf.lt_nextId r hr).ne
    · intro r hr
      show r.id < db.nextId + 1
      rcases List.mem_append.mp hr with hr | hr
      · have := hwf.lt_nextId r hr
        omega
      · simp [List.mem_singleton.mp hr, pendingRow]

/-! ### The drain query -/

instance (key : OutboxRow → Int × Int) : Std.Total (keyLe key) :=
  ⟨fun a b => by unfold keyLe; omega⟩

instance (key : OutboxRow → Int × Int) : IsTrans OutboxRow (keyLe key) :=
  ⟨fun a b c => by unfold keyLe; omega⟩

theorem mem_eventOutboxSince {afterId : Int} {limit : Nat} {r : OutboxRow}
    (h : r ∈ db.eventOutboxSince afterId limit) : r ∈ db.rows ∧ afterId < r.id := by
  have hsorted := (List.mem_insertionSort _).mp (List.mem_of_mem_take h)
  simpa using List.mem_filter.mp hsorted

/-- The drain query returns its rows in strictly increasing id order. -/
theorem pairwise_eventOutboxSince (hwf : db.WellFormed) (afterId : Int) (limit : Nat) :
    (db.eventOutboxSince afterId limit).Pairwise (fun a b => a.id < b.id) := by
  have hsel : (db.rows.filter fun r => decide (afterId < r.id)).Sublist db.rows := List.filter_sublist
  have hsorted := List.pairwise_insertionSort (keyLe fun r => (r.id, 0))
    (db.rows.filter fun r => decide (afterId < r.id))
  -- ids are unique, so the sorted order is strict
  have hne : (db.rows.filter fun r => decide (afterId < r.id)).Pairwise (fun a b => a.id ≠ b.id) :=
    List.pairwise_map.mp (hwf.nodup.sublist (hsel.map _))
  have hne' := (List.perm_insertionSort (keyLe fun r => (r.id, 0)) _).symm.pairwise hne
    (fun h => Ne.symm h)
  refine ((hsorted.and hne').imp ?_).sublist (List.take_sublist _ _)
  rintro a b ⟨hle, hab⟩
  simp only [keyLe] at hle
  omega

/-! ### Listener cursors -/

/-- `listener_cursor_advance` is monotonic: no listener's high-water mark
ever moves back. -/
theorem cursorsGrow_listenerCursorAdvance (db : ConfigDb) (listener : String) (newId now : Int) :
    CursorsGrow db.cursors (db.listenerCursorAdvance listener newId now).cursors := by
  intro c hc
  unfold listenerCursorAdvance
  split
  · by_cases hname : c.listenerName = listener
    · exact ⟨_, List.mem_map_of_mem hc, by simp [hname], by simp [hname]⟩
    · exact ⟨_, List.mem_map_of_mem hc, by simp [hname], by simp [hname]⟩
  · exact ⟨c, List.mem_append_left _ hc, rfl, le_rfl⟩

theorem WellFormed.listenerCursorAdvance (hwf : db.WellFormed) (listener : String) (newId now : Int) :
    (db.listenerCursorAdvance listener newId now).WellFormed where
  nodup := by simpa using hwf.nodup
  lt_nextId := by simpa using hwf.lt_nextId
  cursors_nodup := by
    unfold ConfigDb.listenerCursorAdvance
    split
    · -- the upsert keeps every name
      have hnames : (db.cursors.map fun c => if c.listenerName = listener then
          { c with updatedAt := if newId > c.lastEventId then now else c.updatedAt,
                   lastEventId := max c.lastEventId newId } else c).map (·.listenerName) =
          db.cursors.map (·.listenerName) := by
        simp only [List.map_map]
        apply List.map_congr_left
        intro c _
        by_cases h : c.listenerName = listener <;> simp [h]
      simpa [hnames] using hwf.cursors_nodup
    · -- the insert adds a name no cursor has
      rename_i hnew
      simp only [List.any_eq_true, decide_eq_true_eq, not_exists, not_and] at hnew
      simpa [List.nodup_append] using ⟨hwf.cursors_nodup, fun c hc h => hnew c hc h⟩

/-- The cursor `listener_cursor_advance` leaves for an existing listener:
its old `last_event_id` and the new one, whichever is larger. -/
theorem listenerCursorLoadFull_advance_of_some {listener : String} {newId now : Int}
    {c : ListenerCursor} (h : db.listenerCursorLoadFull listener = some c) :
    ((db.listenerCursorAdvance listener newId now).listenerCursorLoadFull listener).map
      (·.lastEventId) = some (max c.lastEventId newId) := by
  have hfind : db.cursors.find? (·.listenerName = listener) = some c := h
  have hname : c.listenerName = listener := by simpa using List.find?_some hfind
  have hany : db.cursors.any (·.listenerName = listener) = true :=
    List.any_eq_true.mpr ⟨c, List.mem_of_find?_eq_some hfind, by simp [hname]⟩
  simp only [listenerCursorAdvance, hany, if_true, listenerCursorLoadFull]
  rw [List.find?_map]
  -- the upsert keeps every name, so the search finds the same cursor
  have hsame : ((fun c : ListenerCursor => decide (c.listenerName = listener)) ∘
      fun c : ListenerCursor => if c.listenerName = listener then
        { c with updatedAt := if newId > c.lastEventId then now else c.updatedAt,
                 lastEventId := max c.lastEventId newId } else c) =
      fun c => decide (c.listenerName = listener) := by
    funext c
    by_cases hc : c.listenerName = listener <;> simp [hc]
  rw [hsame, hfind]
  simp [hname]

/-- The first advance of a listener creates its cursor at the new id. -/
theorem listenerCursorLoadFull_advance_of_none {listener : String} {newId now : Int}
    (h : db.listenerCursorLoadFull listener = none) :
    (db.listenerCursorAdvance listener newId now).listenerCursorLoadFull listener =
      some ⟨listener, newId, now⟩ := by
  have hfind : db.cursors.find? (·.listenerName = listener) = none := h
  have hany : db.cursors.any (·.listenerName = listener) = false := by
    rw [List.find?_eq_none] at hfind
    simpa using hfind
  simp [listenerCursorAdvance, hany, listenerCursorLoadFull, List.find?_append, hfind]

/-- The active-listener floor is at or below every active cursor. -/
theorem minActiveListenerCursor_le {c : ListenerCursor} (hc : c ∈ db.cursors) {now maxAgeSecs : Int}
    (hact : isActive now maxAgeSecs c = true) :
    ∃ m, db.minActiveListenerCursor now maxAgeSecs = some m ∧ m ≤ c.lastEventId := by
  have hmem : c.lastEventId ∈ (db.cursors.filter (isActive now maxAgeSecs)).map (·.lastEventId) :=
    List.mem_map_of_mem (List.mem_filter.mpr ⟨hc, hact⟩)
  cases hm : db.minActiveListenerCursor now maxAgeSecs with
  | none =>
    rw [minActiveListenerCursor, List.min?_eq_none_iff] at hm
    simp [hm] at hmem
  | some m => exact ⟨m, rfl, (List.min?_eq_some_iff.mp hm).2 _ hmem⟩

end ConfigDb

end DeltaGlider.Outbox
