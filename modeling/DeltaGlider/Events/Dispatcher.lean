import DeltaGlider.Events.Outbox
import DeltaGlider.Lib.Trace

/-!
# The event-delivery dispatcher and the outbox prunes

`spawn_dispatcher_with_client` of `src/event_delivery.rs` loops: read the
config, sleep a tick, then either, with delivery disabled,
`prune_below_floor` (read the active-listener floor and prune every row at or
below it, under one lock), or `dispatch_once`: claim the due rows, deliver
each and mark it delivered or failed, read the floor, and run the delivered,
failed and delivered-over-count prunes.  Each of these steps takes the
`ConfigDb` mutex on its own.  Between any two of them the request path
inserts events, another dispatcher claims or marks rows, and the replication
consumer advances its listener cursor.  `step` is one locked step of either
kind, and a `Trace.Run` of steps is any interleaving; every call that is
given a time is given one no earlier than the last.

Each database call of the dispatcher may fail (`ok = false`): a failed claim
ends `dispatch_once`, a failed mark or prune leaves the tables, and a failed
floor read reads `i64::MAX` — which the floor prune refuses, while the
delivered and failed prunes read it as "no floor".

    a row that is pending or in progress is deleted only by the floor prune of a
    tick with delivery disabled                   (deleted_pending_only_when_disabled)
    the floor prune keeps every row above a cursor active at its time
                                                  (floorPrune_respects_active_listeners)
    a dispatch prune keeps every row above the cursor of each listener that was
    active when the dispatch read its floor       (dispatchPrune_respects_floor_listeners)
    together, with the floor read succeeding      (outbox_prune_respects_listeners)
    a listener whose cursor turns active between the floor read and a prune
    loses rows above its cursor                   (stale_listener_loses_rows)
    so does an active listener when the floor read fails
                                                  (failed_floor_read_loses_rows)
-/

namespace DeltaGlider.EventDelivery

open Outbox RustStd
open Outbox.ConfigDb (deletedBy)

/-! ## Algorithm -/

/-- `LISTENER_CURSOR_STALE_SECS`. -/
def listenerCursorStaleSecs : Int := 60 * 60

/-- `FAILED_ROW_MAX_AGE_SECS`. -/
def failedRowMaxAgeSecs : Int := 24 * 60 * 60

/-- What the dispatcher reads of `EventDeliveryConfig`: `is_active()`, the
counts, and the durations as the seconds `parse_duration_or` gives. -/
structure EventDeliveryConfig where
  isActive : Bool
  batchSize : Nat
  maxAttempts : Nat
  retryBase : Nat
  retryMax : Nat
  staleClaimAfter : Nat
  deliveredRetention : Nat
  deliveredMaxRows : Nat
  pruneBatch : Nat
  deriving DecidableEq, Repr

/-- The serde defaults: disabled, batches of 50, 8 attempts, retries from 5 s
to 5 min, claims stale after 60 s, delivered rows kept 24 h and at most
10 000 of them, 100 rows per prune. -/
def EventDeliveryConfig.default : EventDeliveryConfig :=
  { isActive := false, batchSize := 50, maxAttempts := 8, retryBase := 5, retryMax := 300,
    staleClaimAfter := 60, deliveredRetention := 24 * 60 * 60, deliveredMaxRows := 10000,
    pruneBatch := 100 }

/-- `next_attempt_after`: no retry once the attempts reach `max_attempts`
(at least one), else `now` plus the base delay doubled per earlier attempt,
capped at `retry_max`.  The exponent is at most 20, so
`2.saturating_pow(exponent)` is exact. -/
def nextAttemptAfter (config : EventDeliveryConfig) (attemptsAfterClaim now : Int) : Option Int :=
  if attemptsAfterClaim ≥ ((max config.maxAttempts 1 : Nat) : Int) then none
  else
    let exponent := (max 0 (min (i64SaturatingSub attemptsAfterClaim 1) 20)).toNat
    let delay := min (u64SaturatingMul config.retryBase (2 ^ exponent)) config.retryMax
    some (i64SaturatingAdd now (u64AsI64 delay))

/-- `stale_claim_after_secs`. -/
def staleClaimAfterSecs (config : EventDeliveryConfig) : Int := u64AsI64 config.staleClaimAfter

/-- `delivered_retention_secs`. -/
def deliveredRetentionSecs (config : EventDeliveryConfig) : Int :=
  u64AsI64 config.deliveredRetention

/-- The prune floor `min_keep_id`: the least active cursor, or `i64::MAX`
when no cursor is active. -/
def minKeepId (db : ConfigDb) (now : Int) : Int :=
  (db.minActiveListenerCursor now listenerCursorStaleSecs).getD i64Max

/-- The floor as `.unwrap_or(None).unwrap_or(i64::MAX)` reads it: a failed
query (`ok = false`) reads `i64::MAX`. -/
def readMinKeepId (db : ConfigDb) (now : Int) (ok : Bool) : Int :=
  if ok then minKeepId db now else i64Max

/-- `prune_below_floor`: the floor read and the prune under one lock; `ok`
is whether the floor query succeeded (a failed delete leaves the tables, as
the refused `i64::MAX` floor does). -/
def pruneBelowFloor (db : ConfigDb) (config : EventDeliveryConfig) (now : Int) (ok : Bool) : ConfigDb :=
  (db.eventOutboxPruneBelowFloor (readMinKeepId db now ok) (max config.pruneBatch 1)).1

/-- The prunes of `dispatch_once`, in the order it runs them. -/
inductive PruneStage where
  | deliveredBefore
  | failedBefore
  | deliveredOverCount
  deriving DecidableEq, Repr

/-- The prune after this one. -/
def PruneStage.next : PruneStage → Option PruneStage
  | .deliveredBefore => some .failedBefore
  | .failedBefore => some .deliveredOverCount
  | .deliveredOverCount => none

/-- One prune of `dispatch_once` at the floor it read; the first is skipped
for a zero retention and the last for a zero prune batch. -/
def pruneStage (config : EventDeliveryConfig) (now minKeepId : Int) (db : ConfigDb) :
    PruneStage → ConfigDb
  | .deliveredBefore =>
    let retention := deliveredRetentionSecs config
    if retention > 0 then
      (db.eventOutboxPruneDeliveredBefore (i64SaturatingSub now retention) config.pruneBatch
        minKeepId).1
    else db
  | .failedBefore =>
    let failedWindow := max (deliveredRetentionSecs config) failedRowMaxAgeSecs
    (db.eventOutboxPruneFailedBefore (i64SaturatingSub now failedWindow) config.pruneBatch
      minKeepId).1
  | .deliveredOverCount =>
    if config.pruneBatch > 0 then
      (db.eventOutboxPruneDeliveredOverCount config.deliveredMaxRows config.pruneBatch minKeepId).1
    else db

/-- Where the dispatcher task is between two acquisitions of the lock. -/
inductive Dispatcher where
  /-- Between two ticks. -/
  | idle
  /-- `dispatch_once` with these claimed rows still to deliver. -/
  | delivering (config : EventDeliveryConfig) (now : Int) (claimed : List OutboxRow)
  /-- `dispatch_once` after reading the floor, before this prune. -/
  | pruning (config : EventDeliveryConfig) (now minKeepId : Int) (stage : PruneStage)
  deriving DecidableEq, Repr

/-- The config DB, the dispatcher task, and the latest time any call has been
given. -/
structure System where
  db : ConfigDb
  dispatcher : Dispatcher
  clock : Int
  deriving DecidableEq, Repr

/-- One locked step: of the dispatcher task, or of another caller.  The
dispatcher's own database calls carry whether they succeeded. -/
inductive Event where
  /-- The loop wakes with this config at this time; `ok` is whether the claim
  (delivery active) or the floor read (delivery disabled) succeeded. -/
  | tick (config : EventDeliveryConfig) (now : Int) (ok : Bool)
  /-- The next claimed row was delivered; it is marked at this time. -/
  | delivered (now : Int) (ok : Bool)
  /-- Delivering the next claimed row failed; it is marked failed. -/
  | deliveryFailed (ok : Bool)
  | readFloor (ok : Bool)
  | prune (ok : Bool)
  | insert (events : List NewEvent)
  | claim (now staleAfterSecs : Int) (limit : Nat)
  | markDelivered (id now : Int)
  | markFailed (id : Int) (nextAttemptAt : Option Int)
  | advance (listener : String) (newId now : Int)
  deriving DecidableEq, Repr

/-- The step of each event, when it is enabled. -/
def step (s : System) : Event → Option System
  | .tick config now ok =>
    match s.dispatcher with
    | .idle =>
      if s.clock ≤ now then
        if config.isActive then
          if ok then
            let claim := s.db.eventOutboxClaimDue now (staleClaimAfterSecs config)
              (max 1 (min config.batchSize 500))
            some { db := claim.1, dispatcher := .delivering config now claim.2, clock := now }
          -- a failed claim returns from `dispatch_once`
          else some { s with clock := now }
        else some { s with db := pruneBelowFloor s.db config now ok, clock := now }
      else none
    | _ => none
  | .delivered t ok =>
    match s.dispatcher with
    | .delivering config now (event :: rest) =>
      if s.clock ≤ t then
        some { db := if ok then s.db.eventOutboxMarkDelivered event.id t else s.db,
               dispatcher := .delivering config now rest, clock := t }
      else none
    | _ => none
  | .deliveryFailed ok =>
    match s.dispatcher with
    | .delivering config now (event :: rest) =>
      some { s with db := if ok then s.db.eventOutboxMarkFailed event.id
                      (nextAttemptAfter config event.attempts now) else s.db,
                    dispatcher := .delivering config now rest }
    | _ => none
  | .readFloor ok =>
    match s.dispatcher with
    | .delivering config now [] =>
      some { s with dispatcher := .pruning config now (readMinKeepId s.db now ok) .deliveredBefore }
    | _ => none
  | .prune ok =>
    match s.dispatcher with
    | .pruning config now floor stage =>
      some { s with
        db := if ok then pruneStage config now floor s.db stage else s.db,
        dispatcher := match stage.next with
          | some stage' => .pruning config now floor stage'
          | none => .idle }
    | _ => none
  | .insert events => some { s with db := (s.db.eventOutboxInsertMany events).1 }
  | .claim now staleAfterSecs limit =>
    if s.clock ≤ now then
      some { s with db := (s.db.eventOutboxClaimDue now staleAfterSecs limit).1, clock := now }
    else none
  | .markDelivered id now =>
    if s.clock ≤ now then some { s with db := s.db.eventOutboxMarkDelivered id now, clock := now }
    else none
  | .markFailed id nextAttemptAt => some { s with db := s.db.eventOutboxMarkFailed id nextAttemptAt }
  | .advance listener newId now =>
    if s.clock ≤ now then
      some { s with db := s.db.listenerCursorAdvance listener newId now, clock := now }
    else none

/-- One locked step. -/
def Step (s : System) (ev : Event) (s' : System) : Prop := step s ev = some s'

/-! ## Lemmas -/

variable {s s' : System} {ev : Event} {r : OutboxRow}

/-- Every prune statement: nothing under its guard, else a `DELETE ... WHERE id IN`. -/
theorem prune_eq_deleteIds {db : ConfigDb} {c : Prop} [Decidable c] {ids : List Int} :
    ∃ ids', (if c then (db, 0) else (db.deleteIds ids, ids.length)).1 = db.deleteIds ids' := by
  split
  · exact ⟨[], (ConfigDb.deleteIds_nil db).symm⟩
  · exact ⟨ids, rfl⟩

theorem pruneBelowFloor_eq_deleteIds (db : ConfigDb) (config : EventDeliveryConfig) (now : Int) (ok : Bool) :
    ∃ ids, pruneBelowFloor db config now ok = db.deleteIds ids := by
  unfold pruneBelowFloor ConfigDb.eventOutboxPruneBelowFloor
  exact prune_eq_deleteIds

theorem pruneStage_eq_deleteIds (config : EventDeliveryConfig) (now floor : Int) (db : ConfigDb)
    (stage : PruneStage) : ∃ ids, pruneStage config now floor db stage = db.deleteIds ids := by
  cases stage with
  | deliveredBefore =>
    simp only [pruneStage]
    split
    · unfold ConfigDb.eventOutboxPruneDeliveredBefore
      exact prune_eq_deleteIds
    · exact ⟨[], (ConfigDb.deleteIds_nil db).symm⟩
  | failedBefore =>
    unfold pruneStage ConfigDb.eventOutboxPruneFailedBefore
    exact prune_eq_deleteIds
  | deliveredOverCount =>
    simp only [pruneStage]
    split
    · unfold ConfigDb.eventOutboxPruneDeliveredOverCount
      exact prune_eq_deleteIds
    · exact ⟨[], (ConfigDb.deleteIds_nil db).symm⟩

/-- A call that may fail leaves the tables when it does. -/
theorem updates_ite {db db' : ConfigDb} (ok : Bool) (h : db.Updates db') :
    db.Updates (if ok then db' else db) := by
  cases ok
  · exact .refl _
  · exact h

/-- What a step does to the tables: an update of row contents, an insert, a
cursor advance, the floor prune of a tick with delivery disabled, or a
successful prune of `dispatch_once` at the floor it read. -/
theorem step_db (h : Step s ev s') :
    s.db.Updates s'.db ∨
    (∃ events, ev = .insert events ∧ s'.db = (s.db.eventOutboxInsertMany events).1) ∨
    (∃ listener newId now, ev = .advance listener newId now ∧
      s'.db = s.db.listenerCursorAdvance listener newId now) ∨
    (∃ config now ok, ev = .tick config now ok ∧ config.isActive = false ∧
      s'.db = pruneBelowFloor s.db config now ok) ∨
    (ev = .prune true ∧ ∃ config now floor stage, s.dispatcher = .pruning config now floor stage ∧
      s'.db = pruneStage config now floor s.db stage) := by
  cases ev with
  | tick config now ok =>
    simp only [Step, step] at h
    split at h
    · split_ifs at h with hclock hactive hok
      · cases h
        exact .inl (ConfigDb.updates_eventOutboxClaimDue _ _ _ _)
      · cases h
        exact .inl (.refl _)
      · cases h
        exact .inr (.inr (.inr (.inl ⟨config, now, ok, rfl, by simpa using hactive, rfl⟩)))
    · cases h
  | delivered t ok =>
    simp only [Step, step] at h
    split at h
    · split_ifs at h <;> cases h
      · exact .inl (ConfigDb.updates_eventOutboxMarkDelivered _ _ _)
      · exact .inl (.refl _)
    · cases h
  | deliveryFailed ok =>
    simp only [Step, step] at h
    split at h
    · cases h
      exact .inl (updates_ite ok (ConfigDb.updates_eventOutboxMarkFailed _ _ _))
    · cases h
  | readFloor ok =>
    simp only [Step, step] at h
    split at h
    · cases h
      exact .inl (.refl _)
    · cases h
  | prune ok =>
    simp only [Step, step] at h
    split at h
    · rename_i config now floor stage hpc
      cases h
      cases ok
      · exact .inl (.refl _)
      · exact .inr (.inr (.inr (.inr ⟨rfl, config, now, floor, stage, hpc, rfl⟩)))
    · cases h
  | insert events =>
    cases h
    exact .inr (.inl ⟨events, rfl, rfl⟩)
  | claim now staleAfterSecs limit =>
    simp only [Step, step] at h
    split_ifs at h
    cases h
    exact .inl (ConfigDb.updates_eventOutboxClaimDue _ _ _ _)
  | markDelivered id now =>
    simp only [Step, step] at h
    split_ifs at h
    cases h
    exact .inl (ConfigDb.updates_eventOutboxMarkDelivered _ _ _)
  | markFailed id nextAttemptAt =>
    cases h
    exact .inl (ConfigDb.updates_eventOutboxMarkFailed _ _ _)
  | advance listener newId now =>
    simp only [Step, step] at h
    split_ifs at h
    cases h
    exact .inr (.inr (.inl ⟨listener, newId, now, rfl, rfl⟩))

theorem step_wellFormed (h : Step s ev s') (hwf : s.db.WellFormed) : s'.db.WellFormed := by
  rcases step_db h with hu | ⟨events, -, hdb⟩ | ⟨listener, newId, now, -, hdb⟩ |
      ⟨config, now, ok, -, -, hdb⟩ | ⟨-, config, now, floor, stage, -, hdb⟩
  · exact hu.wellFormed hwf
  · exact hdb ▸ hwf.eventOutboxInsertMany events
  · exact hdb ▸ hwf.listenerCursorAdvance listener newId now
  · obtain ⟨ids, hids⟩ := pruneBelowFloor_eq_deleteIds s.db config now ok
    exact hdb ▸ hids ▸ hwf.deleteIds ids
  · obtain ⟨ids, hids⟩ := pruneStage_eq_deleteIds config now floor s.db stage
    exact hdb ▸ hids ▸ hwf.deleteIds ids

/-- Only a listener's own advance moves a cursor, and only up. -/
theorem step_cursorsGrow (h : Step s ev s') : CursorsGrow s.db.cursors s'.db.cursors := by
  rcases step_db h with hu | ⟨events, -, hdb⟩ | ⟨listener, newId, now, -, hdb⟩ |
      ⟨config, now, ok, -, -, hdb⟩ | ⟨-, config, now, floor, stage, -, hdb⟩
  · exact hu.cursors ▸ CursorsGrow.refl _
  · rw [hdb, ConfigDb.eventOutboxInsertMany_cursors]
    exact CursorsGrow.refl _
  · exact hdb ▸ ConfigDb.cursorsGrow_listenerCursorAdvance s.db listener newId now
  · obtain ⟨ids, hids⟩ := pruneBelowFloor_eq_deleteIds s.db config now ok
    rw [hdb, hids, ConfigDb.deleteIds_cursors]
    exact CursorsGrow.refl _
  · obtain ⟨ids, hids⟩ := pruneStage_eq_deleteIds config now floor s.db stage
    rw [hdb, hids, ConfigDb.deleteIds_cursors]
    exact CursorsGrow.refl _

/-- A dispatch prune deletes only delivered or failed rows at or below its floor. -/
theorem deletedBy_pruneStage {db : ConfigDb} (hwf : db.WellFormed) {config : EventDeliveryConfig}
    {now floor : Int} {stage : PruneStage}
    (hr : r ∈ deletedBy db (pruneStage config now floor db stage)) :
    (r.status = .delivered ∨ r.status = .failed) ∧ r.id ≤ floor := by
  cases stage with
  | deliveredBefore =>
    simp only [pruneStage] at hr
    split at hr
    · obtain ⟨hstatus, -, hid⟩ := ConfigDb.deletedBy_pruneDeliveredBefore hwf hr
      exact ⟨.inl hstatus, hid⟩
    · simp [ConfigDb.deletedBy_eq_nil] at hr
  | failedBefore =>
    obtain ⟨hstatus, -, hid⟩ := ConfigDb.deletedBy_pruneFailedBefore hwf hr
    exact ⟨.inr hstatus, hid⟩
  | deliveredOverCount =>
    simp only [pruneStage] at hr
    split at hr
    · obtain ⟨hstatus, hid⟩ := ConfigDb.deletedBy_pruneDeliveredOverCount hwf hr
      exact ⟨.inl hstatus, hid⟩
    · simp [ConfigDb.deletedBy_eq_nil] at hr

/-- What a step can delete: rows at or below a real floor, by the floor prune
of a tick with delivery disabled whose floor read succeeded, or delivered and
failed rows at or below the floor the dispatch read, by a dispatch prune. -/
theorem step_deletedBy (hwf : s.db.WellFormed) (h : Step s ev s') (hr : r ∈ deletedBy s.db s'.db) :
    (∃ config now, ev = .tick config now true ∧ config.isActive = false ∧
      r.id ≤ minKeepId s.db now ∧ minKeepId s.db now ≠ i64Max) ∨
    (ev = .prune true ∧ ∃ config now floor stage, s.dispatcher = .pruning config now floor stage ∧
      (r.status = .delivered ∨ r.status = .failed) ∧ r.id ≤ floor) := by
  rcases step_db h with hu | ⟨events, -, hdb⟩ | ⟨listener, newId, now, -, hdb⟩ |
      ⟨config, now, ok, hev, hoff, hdb⟩ | ⟨hev, config, now, floor, stage, hpc, hdb⟩
  · simp [hu.deletedBy_eq_nil] at hr
  · simp [hdb, ConfigDb.deletedBy_eventOutboxInsertMany] at hr
  · simp [hdb, ConfigDb.deletedBy_eq_nil] at hr
  · rw [hdb] at hr
    obtain ⟨-, hmax, hid⟩ := ConfigDb.deletedBy_pruneBelowFloor hwf hr
    -- a failed floor read reads `i64::MAX`, which the floor prune refuses
    cases ok
    · exact absurd rfl hmax
    · exact .inl ⟨config, now, hev, hoff, hid, hmax⟩
  · rw [hdb] at hr
    exact .inr ⟨hev, config, now, floor, stage, hpc, deletedBy_pruneStage hwf hr⟩

/-- The dispatcher reaches a prune only through the floor read: any other
step into `pruning` comes from the same dispatch's previous prune. -/
theorem step_pruning (h : Step s ev s') (hev : ∀ ok, ev ≠ .readFloor ok) {config : EventDeliveryConfig}
    {now floor : Int} {stage : PruneStage} (hpc : s'.dispatcher = .pruning config now floor stage) :
    ∃ stage₀, s.dispatcher = .pruning config now floor stage₀ := by
  cases ev with
  | tick config' now' ok =>
    simp only [Step, step] at h
    split at h
    · split_ifs at h
      · cases h
        cases hpc
      · rename_i hidle _ _ _
        cases h
        simp [hidle] at hpc
      · rename_i hidle _ _
        cases h
        simp [hidle] at hpc
    · cases h
  | delivered t ok =>
    simp only [Step, step] at h
    split at h
    · split_ifs at h <;> cases h <;> cases hpc
    · cases h
  | deliveryFailed ok =>
    simp only [Step, step] at h
    split at h
    · cases h
      cases hpc
    · cases h
  | readFloor ok => exact absurd rfl (hev ok)
  | prune ok =>
    simp only [Step, step] at h
    split at h
    · rename_i config' now' floor' stage' hpc'
      cases h
      -- the next prune of the same dispatch keeps its config, time and floor
      cases hnext : stage'.next <;> simp [hnext] at hpc
      obtain ⟨rfl, rfl, rfl, -⟩ := hpc
      exact ⟨stage', hpc'⟩
    · cases h
  | insert events =>
    cases h
    exact ⟨stage, hpc⟩
  | claim now' staleAfterSecs limit =>
    simp only [Step, step] at h
    split_ifs at h
    cases h
    exact ⟨stage, hpc⟩
  | markDelivered id now' =>
    simp only [Step, step] at h
    split_ifs at h
    cases h
    exact ⟨stage, hpc⟩
  | markFailed id nextAttemptAt =>
    cases h
    exact ⟨stage, hpc⟩
  | advance listener newId now' =>
    simp only [Step, step] at h
    split_ifs at h
    cases h
    exact ⟨stage, hpc⟩


theorem Run.wellFormed {s₀ s : System} {evs : List Event} (hrun : Trace.Run Step s₀ evs s)
    (hwf : s₀.db.WellFormed) : s.db.WellFormed :=
  Trace.Run.preserve (I := fun s : System => s.db.WellFormed) (fun _ => True)
    (fun _ _ _ hwf _ h => step_wellFormed h hwf) hrun (fun _ _ => trivial) hwf

/-- The floor is at or below every cursor active at its time. -/
theorem minKeepId_le {db : ConfigDb} {now : Int} {c : ListenerCursor} (hc : c ∈ db.cursors)
    (hact : ConfigDb.isActive now listenerCursorStaleSecs c = true) :
    minKeepId db now ≤ c.lastEventId := by
  obtain ⟨m, hm, hle⟩ := ConfigDb.minActiveListenerCursor_le hc hact
  simpa [minKeepId, hm] using hle

/-! ## Pruning and the listeners -/

/-- In every run from well-formed tables, a step that deletes a pending or
in-progress row is a tick with delivery disabled: while delivery is active,
no undelivered row is deleted. -/
theorem deleted_pending_only_when_disabled {s₀ : System} {evs : List Event}
    (hwf : s₀.db.WellFormed) (hrun : Trace.Run Step s₀ evs s) (h : Step s ev s')
    (hr : r ∈ deletedBy s.db s'.db) (hpending : r.status = .pending ∨ r.status = .inProgress) :
    ∃ config now, ev = .tick config now true ∧ config.isActive = false := by
  rcases step_deletedBy (Run.wellFormed hrun hwf) h hr with
    ⟨config, now, hev, hoff, -⟩ | ⟨-, -, -, -, -, -, hstatus, -⟩
  · exact ⟨config, now, hev, hoff⟩
  · rcases hpending with hp | hp <;> rcases hstatus with hs | hs <;> simp [hp] at hs

/-- The floor prune reads the cursors and deletes under one lock: it keeps
every row above the cursor of each listener active at its time. -/
theorem floorPrune_respects_active_listeners {config : EventDeliveryConfig} {now : Int}
    {ok : Bool} (hwf : s.db.WellFormed) (h : Step s (.tick config now ok) s') (hr : r ∈ deletedBy s.db s'.db)
    {c : ListenerCursor} (hc : c ∈ s.db.cursors)
    (hact : ConfigDb.isActive now listenerCursorStaleSecs c = true) : r.id ≤ c.lastEventId := by
  rcases step_deletedBy hwf h hr with ⟨config', now', hev, -, hid, -⟩ | ⟨hev, -⟩
  · cases hev
    exact hid.trans (minKeepId_le hc hact)
  · cases hev

/-- What a dispatch keeps true from its floor read on: the cursors have only
grown since, and a pending prune uses the floor read then. -/
def FloorFrom (s₀ : System) (now : Int) (s : System) : Prop :=
  CursorsGrow s₀.db.cursors s.db.cursors ∧
    ∀ config' now' floor stage, s.dispatcher = .pruning config' now' floor stage →
      floor = minKeepId s₀.db now

theorem FloorFrom.step {s₀ : System} {now : Int} (hfloor : FloorFrom s₀ now s) (h : Step s ev s')
    (hev : ∀ ok, ev ≠ .readFloor ok) : FloorFrom s₀ now s' := by
  refine ⟨hfloor.1.trans (step_cursorsGrow h), ?_⟩
  intro config' now' floor stage hpc
  obtain ⟨stage₀, hpc₀⟩ := step_pruning h hev hpc
  exact hfloor.2 _ _ _ _ hpc₀

/-- A prune of `dispatch_once` keeps every row above the cursor of each
listener that was active when that dispatch read its floor, if the read
succeeded: the floor read then bounds the cursors, which only grow. -/
theorem dispatchPrune_respects_floor_listeners {s₀ s₁ : System} {evs : List Event}
    {config : EventDeliveryConfig} {now : Int} {ok : Bool} (hwf : s₀.db.WellFormed)
    (hpc : s₀.dispatcher = .delivering config now []) (hread : Step s₀ (.readFloor true) s₁)
    (hrun : Trace.Run Step s₁ evs s) (hno : ∀ ok', Event.readFloor ok' ∉ evs) (hprune : Step s (.prune ok) s')
    (hr : r ∈ deletedBy s.db s'.db) {c c' : ListenerCursor} (hc : c ∈ s₀.db.cursors)
    (hact : ConfigDb.isActive now listenerCursorStaleSecs c = true) (hc' : c' ∈ s.db.cursors)
    (hname : c'.listenerName = c.listenerName) : r.id ≤ c'.lastEventId := by
  -- the floor read moves the dispatcher to its first prune, at the floor of `s₀`
  have hs₁ : s₁ = { s₀ with dispatcher := .pruning config now (minKeepId s₀.db now) .deliveredBefore } := by
    simp only [Step, step, hpc, Option.some.injEq] at hread
    rw [← hread]
    rfl
  have hfloor₁ : FloorFrom s₀ now s₁ := by
    subst hs₁
    refine ⟨CursorsGrow.refl _, ?_⟩
    intro config' now' floor stage hpc'
    cases hpc'
    rfl
  have hfloor : FloorFrom s₀ now s :=
    Trace.Run.preserve (I := FloorFrom s₀ now) (fun ev => ∀ ok', ev ≠ .readFloor ok')
      (fun _ _ _ hI hev h => hI.step h hev) hrun (fun ev hev ok' heq => hno ok' (heq ▸ hev)) hfloor₁
  have hwfs : s.db.WellFormed := Run.wellFormed hrun (hs₁ ▸ hwf)
  rcases step_deletedBy hwfs hprune hr with ⟨_, _, hev, -⟩ | ⟨-, config', now', floor, stage, hpcs, -, hid⟩
  · cases hev
  obtain ⟨c'', hc'', hname'', hle⟩ := hfloor.1 c hc
  -- listener names are unique, so `c''` is the listener's cursor `c'`
  have hsame : c'' = c' :=
    List.inj_on_of_nodup_map hwfs.cursors_nodup hc'' hc' (hname''.trans hname.symm)
  calc r.id ≤ floor := hid
    _ = minKeepId s₀.db now := hfloor.2 _ _ _ _ hpcs
    _ ≤ c.lastEventId := minKeepId_le hc hact
    _ ≤ c'.lastEventId := hsame ▸ hle

/-- Pruning and the listeners, over every run: while delivery is active no
pending or in-progress row is deleted; the floor prune keeps every row above
the cursor of each listener active at its time; and a dispatch prune keeps
every row above the current cursor of each listener that was active when the
same dispatch read its floor, when that read succeeded. -/
theorem outbox_prune_respects_listeners :
    (∀ (s₀ s s' : System) (evs : List Event) (ev : Event) (r : OutboxRow), s₀.db.WellFormed →
      Trace.Run Step s₀ evs s → Step s ev s' → r ∈ deletedBy s.db s'.db →
      (r.status = .pending ∨ r.status = .inProgress) →
      ∃ config now, ev = .tick config now true ∧ config.isActive = false) ∧
    (∀ (s s' : System) (config : EventDeliveryConfig) (now : Int) (ok : Bool) (r : OutboxRow)
      (c : ListenerCursor), s.db.WellFormed → Step s (.tick config now ok) s' →
      r ∈ deletedBy s.db s'.db → c ∈ s.db.cursors →
      ConfigDb.isActive now listenerCursorStaleSecs c = true → r.id ≤ c.lastEventId) ∧
    (∀ (s₀ s₁ s s' : System) (evs : List Event) (config : EventDeliveryConfig) (now : Int) (ok : Bool)
      (r : OutboxRow) (c c' : ListenerCursor), s₀.db.WellFormed →
      s₀.dispatcher = .delivering config now [] → Step s₀ (.readFloor true) s₁ →
      Trace.Run Step s₁ evs s → (∀ ok', Event.readFloor ok' ∉ evs) → Step s (.prune ok) s' →
      r ∈ deletedBy s.db s'.db → c ∈ s₀.db.cursors →
      ConfigDb.isActive now listenerCursorStaleSecs c = true → c' ∈ s.db.cursors →
      c'.listenerName = c.listenerName → r.id ≤ c'.lastEventId) :=
  ⟨fun _ _ _ _ _ _ hwf hrun h hr hpending => deleted_pending_only_when_disabled hwf hrun h hr hpending,
    fun _ _ _ _ _ _ _ hwf h hr hc hact => floorPrune_respects_active_listeners hwf h hr hc hact,
    fun _ _ _ _ _ _ _ _ _ _ _ hwf hpc hread hrun hno hprune hr hc hact hc' hname =>
      dispatchPrune_respects_floor_listeners hwf hpc hread hrun hno hprune hr hc hact hc' hname⟩

/-- A delivered row above a listener's cursor, and that listener stale. -/
def raceRow : OutboxRow :=
  { id := 10, kind := "ObjectCreated", bucket := "b", key := "k", occurredAt := 0,
    status := .delivered, attempts := 1, nextAttemptAt := none, claimedAt := none,
    deliveredAt := some 0 }

def raceStart : System :=
  { db := { rows := [raceRow], cursors := [⟨"replication", 5, 0⟩], nextId := 11 },
    dispatcher := .idle, clock := 0 }

/-- An active dispatch at time 100 000 claims nothing and reads the floor:
no cursor is active, so the floor is `i64::MAX`; then the replication
consumer advances its cursor to 6. -/
def raceEvents : List Event :=
  [.tick { EventDeliveryConfig.default with isActive := true } 100000 true, .readFloor true,
   .advance "replication" 6 100000]

/-- The delivered prune that follows deletes row 10, above the cursor (6) of
a listener active at that time. -/
theorem stale_listener_loses_rows :
    raceStart.db.WellFormed ∧
    ∃ s s', Trace.Run Step raceStart raceEvents s ∧ Step s (.prune true) s' ∧
      ∃ r ∈ deletedBy s.db s'.db, ∃ c ∈ s.db.cursors,
        ConfigDb.isActive s.clock listenerCursorStaleSecs c = true ∧ c.lastEventId < r.id :=
  ⟨⟨by decide, by decide, by decide⟩, _, _, Trace.Run.of_exec rfl, rfl,
    raceRow, by decide, ⟨"replication", 6, 100000⟩, by decide, by decide, by decide⟩

/-- The replication listener active at time 100 000, its cursor at 5. -/
def failedReadStart : System :=
  { db := { rows := [raceRow], cursors := [⟨"replication", 5, 100000⟩], nextId := 11 },
    dispatcher := .idle, clock := 0 }

/-- An active dispatch at time 100 000 claims nothing, and its floor read
fails. -/
def failedReadEvents : List Event :=
  [.tick { EventDeliveryConfig.default with isActive := true } 100000 true, .readFloor false]

/-- The failed read is taken for "no floor": the delivered prune deletes row
10, above the cursor of the listener active throughout. -/
theorem failed_floor_read_loses_rows :
    failedReadStart.db.WellFormed ∧
    ∃ s s', Trace.Run Step failedReadStart failedReadEvents s ∧ Step s (.prune true) s' ∧
      ∃ r ∈ deletedBy s.db s'.db, ∃ c ∈ s.db.cursors,
        ConfigDb.isActive s.clock listenerCursorStaleSecs c = true ∧ c.lastEventId < r.id :=
  ⟨⟨by decide, by decide, by decide⟩, _, _, Trace.Run.of_exec rfl, rfl,
    raceRow, by decide, ⟨"replication", 5, 100000⟩, by decide, by decide, by decide⟩

end DeltaGlider.EventDelivery
