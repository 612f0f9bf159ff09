import Mathlib.Data.Prod.Lex
import DeltaGlider.Events.Outbox
import DeltaGlider.Replication.Cycles

/-!
# The event-driven replication consumer

`drain_once` of `src/replication/event_consumer.rs` reads the outbox rows
past the replication listener's cursor (`event_outbox_since`, at most
`DRAIN_BATCH`), groups them by `(bucket, key)`, compacts each key's kinds to
one verdict (`compact_key_events`: the last event wins), and applies it to
every rule that matches the key.  A rule whose destination is under
maintenance, whose lease is busy, or whose action fails records the key's
largest id in the window as failed; a failed lease query aborts the drain.
The cursor then moves to the highest id below the first failed one
(`contiguous_watermark`).

What each rule does is given as an outcome per `(bucket, key, rule)`: any
pattern of successes, failures, busy leases, maintenance, vanished rules and
aborts is covered.

    the cursor never moves back, and when a drain moves it from c to w, every key
    whose events in the window end at an id in (c, w] had the verdict of that last
    event applied, with success, for every rule that matched it and had not
    vanished                                        (drainOnce_settles_keys_below_cursor)
    a key with events on both sides of w may have failed: the cursor passes its
    earlier event while its verdict is not applied       (watermark_passes_failed_key)
    a failed cursor query reads as cursor 0, so the drain reads the passed rows
    again; cursors still only move up                    (drainOnceWith_cursorsGrow)
-/

namespace DeltaGlider.Replication

open Outbox RustStd

/-! ## Algorithm -/

/-- `REPLICATION_LISTENER`. -/
def replicationListener : String := "replication"

/-- `DRAIN_BATCH`. -/
def drainBatch : Nat := 500

/-- `KeyAction`: the net effect of a key's events on its destination copy. -/
inductive KeyAction where
  | copy
  | delete
  | noop
  deriving DecidableEq, Repr

/-- `liveness_of_kind`: whether a kind leaves the object present or absent. -/
def livenessOfKind : EventKind → Option KeyAction
  | .objectCreated | .objectCopied | .replicationObjectCopied | .lifecycleTransitioned => some .copy
  | .objectDeleted | .lifecycleExpired => some .delete

/-- `parse_event_kind`: the inverse of `EventKind::as_str`, `None` for a
kind this build does not know. -/
def parseEventKind : String → Option EventKind
  | "ObjectCreated" => some .objectCreated
  | "ObjectDeleted" => some .objectDeleted
  | "ObjectCopied" => some .objectCopied
  | "ReplicationObjectCopied" => some .replicationObjectCopied
  | "LifecycleExpired" => some .lifecycleExpired
  | "LifecycleTransitioned" => some .lifecycleTransitioned
  | _ => none

/-- `is_present_producing`. -/
def isPresentProducing (kind : String) : Bool :=
  (parseEventKind kind).bind livenessOfKind == some .copy

/-- `is_absent_producing`. -/
def isAbsentProducing (kind : String) : Bool :=
  (parseEventKind kind).bind livenessOfKind == some .delete

/-- `compact_key_events`: the last event decides; none, or an unknown last
kind, is `Noop`. -/
def compactKeyEvents (kinds : List String) : KeyAction :=
  match kinds.getLast? with
  | none => .noop
  | some k => if isAbsentProducing k then .delete else if isPresentProducing k then .copy else .noop

/-- `is_user_object_key`: not a directory marker, not a config-sync internal,
not a storage artifact (`reference.bin`, `*.delta`). -/
def isUserObjectKey (key : String) : Bool :=
  if key.toList.getLast? = some '/' then false
  else if ".deltaglider/".toList <+: key.toList ∨ "/.deltaglider/".toList <:+: key.toList then false
  else
    let filename := match rsplitOnce '/' key.toList with
      | some parts => parts.2
      | none => key.toList
    !(filename = "reference.bin".toList ∨ ".delta".toList <:+ filename)

/-- A configured `ReplicationRule` with its `enabled` toggle, which the
cycle checks do not read. -/
structure ConfiguredRule extends ReplicationRule where
  enabled : Bool
  deriving DecidableEq, Repr

/-- `match_rules`: the enabled rules over the key's bucket whose normalised
source prefix the key lies under. -/
def matchRules (rules : List ConfiguredRule) (bucket key : String) : List ConfiguredRule :=
  if !isUserObjectKey key then []
  else
    rules.filter fun rule =>
      rule.enabled && rule.source.bucket == bucket &&
        (let pre := normalizePrefix rule.source.prefixPath
         pre.isEmpty || startsWith key pre)

/-- `contiguous_watermark`: walk the rows in id order and stop at the first
failed id; the last id passed, or the cursor. -/
def contiguousWatermark (rows : List OutboxRow) (failedIds : List Int) (watermark : Int) : Int :=
  match rows with
  | [] => watermark
  | r :: rest => if r.id ∈ failedIds then watermark else contiguousWatermark rest failedIds r.id

/-- The `BTreeMap` order of `(bucket, key)` pairs: lexicographic. -/
def keyLt (a b : String × String) : Prop := toLex a < toLex b

instance : DecidableRel keyLt := fun a b => inferInstanceAs (Decidable (toLex a < toLex b))

/-- `groups.entry((bucket, key)).or_default().push(rec)` on a map kept in key
order. -/
def pushRecord (rec : OutboxRow) :
    List ((String × String) × List OutboxRow) → List ((String × String) × List OutboxRow)
  | [] => [((rec.bucket, rec.key), [rec])]
  | (k, recs) :: rest =>
    if (rec.bucket, rec.key) = k then (k, recs ++ [rec]) :: rest
    else if keyLt (rec.bucket, rec.key) k then ((rec.bucket, rec.key), [rec]) :: (k, recs) :: rest
    else (k, recs) :: pushRecord rec rest

/-- `group_events_by_key`. -/
def groupEventsByKey (records : List OutboxRow) : List ((String × String) × List OutboxRow) :=
  records.foldl (fun groups rec => pushRecord rec groups) []

/-- What happens to one rule of one key in a drain. -/
inductive RuleOutcome where
  /-- `maintenance_gate.is_busy` on the destination bucket. -/
  | maintenance
  /-- `replication_try_acquire_lease` answered `Ok(false)`. -/
  | leaseBusy
  /-- The lease query failed: the drain returns at once. -/
  | leaseError
  /-- The rule left the live config before the action. -/
  | vanished
  /-- `apply_action` ran and succeeded (`true`) or failed. -/
  | applied (ok : Bool)
  deriving DecidableEq, Repr

/-- What a drain has recorded so far: the failed ids, and each successful
`(bucket, key, rule, action)`. -/
structure DrainAcc where
  failedIds : List Int
  applied : List (String × String × String × KeyAction)
  deriving DecidableEq, Repr

/-- One rule of one key; `.error` is the early return. -/
def drainRule (bucket key : String) (action : KeyAction) (maxIdForKey : Int) (acc : DrainAcc)
    (rule : ConfiguredRule) : RuleOutcome → Except DrainAcc DrainAcc
  | .maintenance | .leaseBusy | .applied false =>
    .ok { acc with failedIds := acc.failedIds ++ [maxIdForKey] }
  | .leaseError => .error acc
  | .vanished => .ok acc
  | .applied true => .ok { acc with applied := acc.applied ++ [(bucket, key, rule.name, action)] }

/-- The inner loop over the matched rules. -/
def drainRules (outcome : String → String → ConfiguredRule → RuleOutcome) (bucket key : String)
    (action : KeyAction) (maxIdForKey : Int) : List ConfiguredRule → DrainAcc → Except DrainAcc DrainAcc
  | [], acc => .ok acc
  | rule :: rules, acc => do
    let acc ← drainRule bucket key action maxIdForKey acc rule (outcome bucket key rule)
    drainRules outcome bucket key action maxIdForKey rules acc

/-- One key of the drain: compact, skip a `Noop` or an unmatched key, else
run its rules. -/
def drainGroup (rules : List ConfiguredRule) (outcome : String → String → ConfiguredRule → RuleOutcome)
    (acc : DrainAcc) (group : (String × String) × List OutboxRow) : Except DrainAcc DrainAcc :=
  let bucket := group.1.1
  let key := group.1.2
  let action := compactKeyEvents (group.2.map (·.kind))
  if action = .noop then .ok acc
  else
    let maxIdForKey := ((group.2.map (·.id)).max?).getD 0
    let matched := matchRules rules bucket key
    if matched.isEmpty then .ok acc
    else drainRules outcome bucket key action maxIdForKey matched acc

/-- The outer loop over the groups, in key order. -/
def drainGroups (rules : List ConfiguredRule) (outcome : String → String → ConfiguredRule → RuleOutcome) :
    List ((String × String) × List OutboxRow) → DrainAcc → Except DrainAcc DrainAcc
  | [], acc => .ok acc
  | group :: groups, acc => do
    let acc ← drainGroup rules outcome acc group
    drainGroups rules outcome groups acc

/-- `drain_once` after the cursor load, from the cursor `cursor`: the tables
after it and the successful applications.  `t` is the time of the final
advance; the mid-drain heartbeats re-assert the cursor, which changes
nothing. -/
def drainFrom (db : ConfigDb) (cursor : Int) (rules : List ConfiguredRule)
    (outcome : String → String → ConfiguredRule → RuleOutcome) (t : Int) :
    ConfigDb × List (String × String × String × KeyAction) :=
  let rows := db.eventOutboxSince cursor drainBatch
  if rows.isEmpty then (db, [])
  else
    match drainGroups rules outcome (groupEventsByKey rows) ⟨[], []⟩ with
    | .error acc => (db, acc.applied)
    | .ok acc =>
      let watermark := contiguousWatermark rows acc.failedIds cursor
      if watermark > cursor then (db.listenerCursorAdvance replicationListener watermark t, acc.applied)
      else (db, acc.applied)

/-- `drain_once` given what its cursor query answered (`none` when the
query fails): a loaded cursor is re-asserted and drained from; a missing
cursor or a failed query reads as `0`.  `now` is the drain's time.  A failed
`event_outbox_since` returns as an empty window does. -/
def drainOnceWith (db : ConfigDb) (load : Option (Option ListenerCursor)) (rules : List ConfiguredRule)
    (outcome : String → String → ConfiguredRule → RuleOutcome) (now t : Int) :
    ConfigDb × List (String × String × String × KeyAction) :=
  match load with
  | some (some row) =>
    drainFrom (db.listenerCursorAdvance replicationListener row.lastEventId now) row.lastEventId
      rules outcome t
  | _ => drainFrom db 0 rules outcome t

/-- `drain_once` whose cursor query succeeds. -/
def drainOnce (db : ConfigDb) (rules : List ConfiguredRule)
    (outcome : String → String → ConfiguredRule → RuleOutcome) (now t : Int) :
    ConfigDb × List (String × String × String × KeyAction) :=
  drainOnceWith db (some (db.listenerCursorLoadFull replicationListener)) rules outcome now t

/-- The replication cursor: `listener_cursor_load_full`, `0` when absent. -/
def cursorOf (db : ConfigDb) : Int :=
  ((db.listenerCursorLoadFull replicationListener).map (·.lastEventId)).getD 0

/-! ## Lemmas -/

/-! ### Compaction -/

/-- Last event wins. -/
theorem compactKeyEvents_append_singleton (kinds : List String) (k : String) :
    compactKeyEvents (kinds ++ [k]) = compactKeyEvents [k] := by
  simp [compactKeyEvents]

/-! ### The watermark -/

/-- The watermark passes no failed id: in rows sorted by id above the start,
every row at or below the watermark succeeded. -/
theorem not_failed_of_le_contiguousWatermark {rows : List OutboxRow} {failedIds : List Int}
    {watermark : Int} (hsorted : rows.Pairwise (fun a b => a.id < b.id))
    (habove : ∀ r ∈ rows, watermark < r.id) {r : OutboxRow} (hr : r ∈ rows)
    (hle : r.id ≤ contiguousWatermark rows failedIds watermark) : r.id ∉ failedIds := by
  induction rows generalizing watermark with
  | nil => cases hr
  | cons r₀ rest ih =>
    rw [List.pairwise_cons] at hsorted
    simp only [contiguousWatermark] at hle
    split at hle
    · -- stopped at the first row: the watermark stays below every row
      have := habove r hr
      omega
    · rename_i hfail
      rcases List.mem_cons.mp hr with rfl | hr
      · exact hfail
      · exact ih hsorted.2 hsorted.1 hr hle

/-! ### Grouping -/

theorem keyLt_irrefl (a : String × String) : ¬ keyLt a a := lt_irrefl (toLex a)

theorem keyLt_trans {a b c : String × String} (hab : keyLt a b) (hbc : keyLt b c) : keyLt a c :=
  lt_trans (α := Lex (String × String)) hab hbc

theorem keyLt_of_not {a b : String × String} (hne : a ≠ b) (h : ¬ keyLt a b) : keyLt b a := by
  rcases lt_trichotomy (toLex a) (toLex b) with hlt | heq | hgt
  · exact absurd hlt h
  · exact absurd (toLex.injective heq) hne
  · exact hgt

/-- The records a group map holds under a key. -/
def groupView (groups : List ((String × String) × List OutboxRow)) (k : String × String) :
    List OutboxRow :=
  ((groups.find? (·.1 = k)).map (·.2)).getD []

@[simp] theorem groupView_nil (k : String × String) : groupView [] k = [] := rfl

theorem groupView_cons (g : (String × String) × List OutboxRow) (groups) (k : String × String) :
    groupView (g :: groups) k = if g.1 = k then g.2 else groupView groups k := by
  by_cases h : g.1 = k <;> simp [groupView, h]

/-- The keys of a group map, in increasing order. -/
def KeysSorted (groups : List ((String × String) × List OutboxRow)) : Prop :=
  (groups.map (·.1)).Pairwise keyLt

theorem groupView_eq_nil_of_forall_lt {groups : List ((String × String) × List OutboxRow)}
    {k : String × String} (hlt : ∀ g ∈ groups, keyLt k g.1) : groupView groups k = [] := by
  induction groups with
  | nil => rfl
  | cons g rest ih =>
    have hne : g.1 ≠ k := fun h => keyLt_irrefl k (h ▸ hlt g List.mem_cons_self)
    rw [groupView_cons, if_neg hne]
    exact ih fun g' hg' => hlt g' (List.mem_cons_of_mem _ hg')

theorem keys_pushRecord (rec : OutboxRow) (groups : List ((String × String) × List OutboxRow)) :
    ∀ x ∈ (pushRecord rec groups).map (·.1), x = (rec.bucket, rec.key) ∨ x ∈ groups.map (·.1) := by
  induction groups with
  | nil => simp [pushRecord]
  | cons g rest ih =>
    intro x hx
    simp only [pushRecord] at hx
    split_ifs at hx with heq hlt
    · simp_all
    · simp_all
    · simp only [List.map_cons, List.mem_cons] at hx ⊢
      rcases hx with rfl | hx
      · exact .inr (.inl rfl)
      · rcases ih x hx with h | h
        · exact .inl h
        · exact .inr (.inr h)

theorem KeysSorted.pushRecord {groups : List ((String × String) × List OutboxRow)}
    (hs : KeysSorted groups) (rec : OutboxRow) : KeysSorted (pushRecord rec groups) := by
  induction groups with
  | nil => simp [KeysSorted, Replication.pushRecord]
  | cons g rest ih =>
    obtain ⟨k', recs⟩ := g
    simp only [KeysSorted, List.map_cons, List.pairwise_cons] at hs
    obtain ⟨hhead, hrest⟩ := hs
    simp only [Replication.pushRecord]
    split_ifs with heq hlt
    · exact List.pairwise_cons.mpr ⟨hhead, hrest⟩
    · -- the new key goes first, below the old first key and so below all
      simp only [KeysSorted, List.map_cons, List.pairwise_cons, List.mem_cons]
      refine ⟨?_, hhead, hrest⟩
      rintro x (rfl | hx)
      · exact hlt
      · exact keyLt_trans hlt (hhead x hx)
    · simp only [KeysSorted, List.map_cons, List.pairwise_cons]
      refine ⟨?_, ih hrest⟩
      intro x hx
      rcases keys_pushRecord rec rest x hx with rfl | hx
      · exact keyLt_of_not heq hlt
      · exact hhead x hx

/-- `push` appends the record to its key's group and leaves the others. -/
theorem groupView_pushRecord {groups : List ((String × String) × List OutboxRow)}
    (hs : KeysSorted groups) (rec : OutboxRow) (k : String × String) :
    groupView (pushRecord rec groups) k =
      if (rec.bucket, rec.key) = k then groupView groups k ++ [rec] else groupView groups k := by
  induction groups with
  | nil => by_cases h : (rec.bucket, rec.key) = k <;> simp [pushRecord, groupView_cons, h]
  | cons g rest ih =>
    obtain ⟨k', recs⟩ := g
    simp only [KeysSorted, List.map_cons, List.pairwise_cons] at hs
    obtain ⟨hhead, hrest⟩ := hs
    by_cases heq : (rec.bucket, rec.key) = k'
    · -- the record's key has this group already
      rw [pushRecord, if_pos heq]
      subst heq
      by_cases hk : (rec.bucket, rec.key) = k <;> simp [groupView_cons, hk]
    · by_cases hlt : keyLt (rec.bucket, rec.key) k'
      · -- a new group, below every key so far
        rw [pushRecord, if_neg heq, if_pos hlt]
        have hnil : groupView ((k', recs) :: rest) (rec.bucket, rec.key) = [] := by
          refine groupView_eq_nil_of_forall_lt fun g hg => ?_
          rcases List.mem_cons.mp hg with rfl | hg
          · exact hlt
          · exact keyLt_trans hlt (hhead g.1 (List.mem_map_of_mem hg))
        by_cases hk : (rec.bucket, rec.key) = k
        · subst hk
          simp [groupView_cons, hnil]
        · simp [groupView_cons, hk]
      · rw [pushRecord, if_neg heq, if_neg hlt, groupView_cons, groupView_cons, ih hrest]
        by_cases hk : k' = k
        · have hrk : (rec.bucket, rec.key) ≠ k := hk ▸ heq
          simp [hk, hrk]
        · simp [hk]


/-- The fold of `group_events_by_key` from any sorted map: the keys stay
sorted, and each key's group gains that key's records in order. -/
theorem foldl_pushRecord (records : List OutboxRow) :
    ∀ groups, KeysSorted groups →
      KeysSorted (records.foldl (fun gs r => pushRecord r gs) groups) ∧
      ∀ k, groupView (records.foldl (fun gs r => pushRecord r gs) groups) k =
        groupView groups k ++ records.filter fun r => (r.bucket, r.key) = k := by
  induction records with
  | nil => exact fun groups hs => ⟨hs, by simp⟩
  | cons r rest ih =>
    intro groups hs
    obtain ⟨hsorted, hview⟩ := ih (pushRecord r groups) (hs.pushRecord r)
    refine ⟨hsorted, fun k => ?_⟩
    rw [List.foldl_cons, hview, groupView_pushRecord hs]
    by_cases hk : (r.bucket, r.key) = k <;> simp [hk]

/-- Each group of `group_events_by_key` holds exactly its key's records, in
their order, and every record has a group. -/
theorem mem_groupEventsByKey {records : List OutboxRow} {e : OutboxRow} (he : e ∈ records) :
    ∃ g ∈ groupEventsByKey records, g.1 = (e.bucket, e.key) ∧
      g.2 = records.filter fun r => (r.bucket, r.key) = (e.bucket, e.key) := by
  have hview : groupView (groupEventsByKey records) (e.bucket, e.key) =
      records.filter fun r => (r.bucket, r.key) = (e.bucket, e.key) := by
    have h := (foldl_pushRecord records [] List.Pairwise.nil).2 (e.bucket, e.key)
    rwa [groupView_nil, List.nil_append] at h
  have hmem : e ∈ records.filter fun r => (r.bucket, r.key) = (e.bucket, e.key) :=
    List.mem_filter.mpr ⟨he, by simp⟩
  cases hfind : (groupEventsByKey records).find? (·.1 = (e.bucket, e.key)) with
  | none =>
    have hnil : groupView (groupEventsByKey records) (e.bucket, e.key) = [] := by
      simp [groupView, hfind]
    rw [hnil] at hview
    exact absurd (hview ▸ hmem) List.not_mem_nil
  | some g =>
    have hg : groupView (groupEventsByKey records) (e.bucket, e.key) = g.2 := by
      simp [groupView, hfind]
    have hkey : g.1 = (e.bucket, e.key) := by simpa using List.find?_some hfind
    exact ⟨g, List.mem_of_find?_eq_some hfind, hkey, hg ▸ hview⟩


/-! ### The drain loop -/

/-- What a drain has recorded only grows. -/
structure DrainAcc.Le (acc acc' : DrainAcc) : Prop where
  failedIds : acc.failedIds ⊆ acc'.failedIds
  applied : acc.applied ⊆ acc'.applied

theorem DrainAcc.Le.refl (acc : DrainAcc) : acc.Le acc := ⟨List.Subset.refl _, List.Subset.refl _⟩

theorem DrainAcc.Le.trans {acc acc' acc'' : DrainAcc} (h₁ : acc.Le acc') (h₂ : acc'.Le acc'') :
    acc.Le acc'' :=
  ⟨List.Subset.trans h₁.failedIds h₂.failedIds, List.Subset.trans h₁.applied h₂.applied⟩

theorem ok_of_bind_eq_ok {ε α β : Type} {x : Except ε α} {f : α → Except ε β} {b : β}
    (h : (x >>= f) = .ok b) : ∃ a, x = .ok a ∧ f a = .ok b := by
  cases x with
  | error e => cases h
  | ok a => exact ⟨a, rfl, h⟩

section DrainLoop

variable {bucket key : String} {action : KeyAction} {maxIdForKey : Int} {acc acc' : DrainAcc}
  {outcome : String → String → ConfiguredRule → RuleOutcome}

/-- One rule records the key's failure, or its success, or nothing for a
vanished rule. -/
theorem drainRule_spec {rule : ConfiguredRule} {o : RuleOutcome}
    (h : drainRule bucket key action maxIdForKey acc rule o = .ok acc') :
    acc.Le acc' ∧ (o = .vanished ∨ maxIdForKey ∈ acc'.failedIds ∨
      (bucket, key, rule.name, action) ∈ acc'.applied) := by
  have hfail : acc.Le { acc with failedIds := acc.failedIds ++ [maxIdForKey] } :=
    ⟨List.subset_append_left _ _, List.Subset.refl _⟩
  cases o with
  | maintenance =>
    cases h
    exact ⟨hfail, .inr (.inl (by simp))⟩
  | leaseBusy =>
    cases h
    exact ⟨hfail, .inr (.inl (by simp))⟩
  | leaseError => cases h
  | vanished =>
    cases h
    exact ⟨.refl _, .inl rfl⟩
  | applied ok =>
    cases ok
    · cases h
      exact ⟨hfail, .inr (.inl (by simp))⟩
    · cases h
      exact ⟨⟨List.Subset.refl _, List.subset_append_left _ _⟩, .inr (.inr (by simp))⟩

theorem drainRules_spec {rules : List ConfiguredRule}
    (h : drainRules outcome bucket key action maxIdForKey rules acc = .ok acc') :
    acc.Le acc' ∧ ∀ rule ∈ rules, outcome bucket key rule = .vanished ∨
      maxIdForKey ∈ acc'.failedIds ∨ (bucket, key, rule.name, action) ∈ acc'.applied := by
  induction rules generalizing acc with
  | nil =>
    cases h
    exact ⟨.refl _, by simp⟩
  | cons rule rules ih =>
    rw [drainRules] at h
    obtain ⟨acc₁, h₁, h₂⟩ := ok_of_bind_eq_ok h
    obtain ⟨hle₁, hrule⟩ := drainRule_spec h₁
    obtain ⟨hle₂, hrules⟩ := ih h₂
    refine ⟨hle₁.trans hle₂, fun r hr => ?_⟩
    rcases List.mem_cons.mp hr with rfl | hr
    · rcases hrule with hv | hf | ha
      · exact .inl hv
      · exact .inr (.inl (hle₂.failedIds hf))
      · exact .inr (.inr (hle₂.applied ha))
    · exact hrules r hr

/-- A group with a verdict has, for each matching rule, a vanished rule, its
largest id failed, or the verdict applied. -/
theorem drainGroup_spec {rules : List ConfiguredRule} {g : (String × String) × List OutboxRow}
    (h : drainGroup rules outcome acc g = .ok acc') :
    acc.Le acc' ∧ (compactKeyEvents (g.2.map (·.kind)) ≠ .noop →
      ∀ rule ∈ matchRules rules g.1.1 g.1.2, outcome g.1.1 g.1.2 rule = .vanished ∨
        ((g.2.map (·.id)).max?).getD 0 ∈ acc'.failedIds ∨
        (g.1.1, g.1.2, rule.name, compactKeyEvents (g.2.map (·.kind))) ∈ acc'.applied) := by
  dsimp only [drainGroup] at h
  split_ifs at h with hnoop hempty
  · cases h
    exact ⟨.refl _, fun hne => absurd hnoop hne⟩
  · cases h
    refine ⟨.refl _, fun _ rule hr => ?_⟩
    rw [List.isEmpty_iff] at hempty
    simp [hempty] at hr
  · exact ⟨(drainRules_spec h).1, fun _ => (drainRules_spec h).2⟩

theorem drainGroups_spec {rules : List ConfiguredRule} {groups : List ((String × String) × List OutboxRow)}
    (h : drainGroups rules outcome groups acc = .ok acc') :
    acc.Le acc' ∧ ∀ g ∈ groups, compactKeyEvents (g.2.map (·.kind)) ≠ .noop →
      ∀ rule ∈ matchRules rules g.1.1 g.1.2, outcome g.1.1 g.1.2 rule = .vanished ∨
        ((g.2.map (·.id)).max?).getD 0 ∈ acc'.failedIds ∨
        (g.1.1, g.1.2, rule.name, compactKeyEvents (g.2.map (·.kind))) ∈ acc'.applied := by
  induction groups generalizing acc with
  | nil =>
    cases h
    exact ⟨.refl _, by simp⟩
  | cons g groups ih =>
    rw [drainGroups] at h
    obtain ⟨acc₁, h₁, h₂⟩ := ok_of_bind_eq_ok h
    obtain ⟨hle₁, hgroup⟩ := drainGroup_spec h₁
    obtain ⟨hle₂, hgroups⟩ := ih h₂
    refine ⟨hle₁.trans hle₂, fun g' hg' hne rule hrule => ?_⟩
    rcases List.mem_cons.mp hg' with rfl | hg'
    · rcases hgroup hne rule hrule with hv | hf | ha
      · exact .inl hv
      · exact .inr (.inl (hle₂.failedIds hf))
      · exact .inr (.inr (hle₂.applied ha))
    · exact hgroups g' hg' hne rule hrule

end DrainLoop

/-! ### The cursor -/

theorem cursorOf_advance_of_le {db : ConfigDb} {newId now : Int} (h : cursorOf db ≤ newId) :
    cursorOf (db.listenerCursorAdvance replicationListener newId now) = newId := by
  unfold cursorOf at h ⊢
  cases hload : db.listenerCursorLoadFull replicationListener with
  | none => simp [ConfigDb.listenerCursorLoadFull_advance_of_none hload]
  | some c =>
    simp only [hload, Option.map_some, Option.getD_some] at h
    rw [ConfigDb.listenerCursorLoadFull_advance_of_some hload]
    simp [h]

/-- The cursor load of `drain_once` keeps the rows and the cursor's value,
and only re-asserts the cursor. -/
theorem drainOnce_eq_drainFrom (db : ConfigDb) (rules : List ConfiguredRule)
    (outcome : String → String → ConfiguredRule → RuleOutcome) (now t : Int) :
    ∃ db₁, drainOnce db rules outcome now t = drainFrom db₁ (cursorOf db) rules outcome t ∧
      db₁.rows = db.rows ∧ cursorOf db₁ = cursorOf db ∧ CursorsGrow db.cursors db₁.cursors := by
  cases hload : db.listenerCursorLoadFull replicationListener with
  | none => exact ⟨db, by simp [drainOnce, drainOnceWith, hload, cursorOf], rfl, rfl, CursorsGrow.refl _⟩
  | some row =>
    have hc : cursorOf db = row.lastEventId := by simp [cursorOf, hload]
    refine ⟨db.listenerCursorAdvance replicationListener row.lastEventId now,
      by simp [drainOnce, drainOnceWith, hload, hc], by simp, ?_,
      ConfigDb.cursorsGrow_listenerCursorAdvance _ _ _ _⟩
    rw [hc]
    exact cursorOf_advance_of_le hc.le

theorem drainFrom_cursorsGrow (db : ConfigDb) (cursor : Int) (rules : List ConfiguredRule)
    (outcome : String → String → ConfiguredRule → RuleOutcome) (t : Int) :
    CursorsGrow db.cursors (drainFrom db cursor rules outcome t).1.cursors := by
  dsimp only [drainFrom]
  split
  · exact CursorsGrow.refl _
  · split
    · exact CursorsGrow.refl _
    · split
      · exact ConfigDb.cursorsGrow_listenerCursorAdvance _ _ _ _
      · exact CursorsGrow.refl _

/-- A drain that moves the cursor ran every group to the end, and moved the
cursor to the watermark of what it recorded. -/
theorem drainFrom_moved {db : ConfigDb} {cursor : Int} {rules : List ConfiguredRule}
    {outcome : String → String → ConfiguredRule → RuleOutcome} {t : Int} (h : cursorOf db = cursor)
    (hmove : cursor < cursorOf (drainFrom db cursor rules outcome t).1) :
    ∃ acc, drainGroups rules outcome (groupEventsByKey (db.eventOutboxSince cursor drainBatch))
        ⟨[], []⟩ = .ok acc ∧
      (drainFrom db cursor rules outcome t).2 = acc.applied ∧
      cursorOf (drainFrom db cursor rules outcome t).1 =
        contiguousWatermark (db.eventOutboxSince cursor drainBatch) acc.failedIds cursor := by
  dsimp only [drainFrom] at hmove ⊢
  split at hmove
  · exact absurd (h ▸ hmove) (lt_irrefl _)
  · rename_i hne
    simp only [if_neg hne] at ⊢
    split at hmove
    · exact absurd (h ▸ hmove) (lt_irrefl _)
    · rename_i acc hacc
      simp only [hacc]
      split_ifs at hmove ⊢ with hw
      · exact ⟨acc, rfl, rfl, cursorOf_advance_of_le (h ▸ hw.le)⟩
      · exact absurd (h ▸ hmove) (lt_irrefl _)


/-! ### The last event of a key -/

/-- In rows sorted by id, the row with the largest id is the last. -/
theorem getLast?_eq_of_id_max {l : List OutboxRow} (hsorted : l.Pairwise (fun a b => a.id < b.id))
    {e : OutboxRow} (he : e ∈ l) (hmax : ∀ r ∈ l, r.id ≤ e.id) : l.getLast? = some e := by
  induction l with
  | nil => cases he
  | cons a rest ih =>
    rw [List.pairwise_cons] at hsorted
    cases rest with
    | nil => simpa [eq_comm] using he
    | cons b rest' =>
      -- `e` is not the first row: the next one has a larger id
      have hmem : e ∈ b :: rest' := by
        rcases List.mem_cons.mp he with rfl | he
        · have := hsorted.1 b List.mem_cons_self
          have := hmax b (List.mem_cons_of_mem _ List.mem_cons_self)
          omega
        · exact he
      rw [List.getLast?_cons_cons]
      exact ih hsorted.2 hmem fun r hr => hmax r (List.mem_cons_of_mem _ hr)

theorem max?_ids_of_max {l : List OutboxRow} {e : OutboxRow} (he : e ∈ l)
    (hmax : ∀ r ∈ l, r.id ≤ e.id) : ((l.map (·.id)).max?).getD 0 = e.id := by
  have h : (l.map (·.id)).max? = some e.id :=
    List.max?_eq_some_iff.mpr ⟨List.mem_map_of_mem he, by simpa using hmax⟩
  simp [h]

/-! ## Drains and the cursor -/

/-- A drain never moves the cursor back: it either keeps it or advances it
to a watermark above it. -/
theorem cursorOf_le_drainFrom {db : ConfigDb} {cursor : Int} (rules : List ConfiguredRule)
    (outcome : String → String → ConfiguredRule → RuleOutcome) (t : Int) (h : cursorOf db = cursor) :
    cursor ≤ cursorOf (drainFrom db cursor rules outcome t).1 := by
  dsimp only [drainFrom]
  split
  · exact h.ge
  · split
    · exact h.ge
    · split_ifs with hw
      · exact (cursorOf_advance_of_le (h ▸ hw.le)).ge.trans' hw.le
      · exact h.ge

theorem drainOnce_cursorsGrow (db : ConfigDb) (rules : List ConfiguredRule)
    (outcome : String → String → ConfiguredRule → RuleOutcome) (now t : Int) :
    CursorsGrow db.cursors (drainOnce db rules outcome now t).1.cursors := by
  obtain ⟨db₁, hdrain, -, -, hgrow⟩ := drainOnce_eq_drainFrom db rules outcome now t
  rw [hdrain]
  exact hgrow.trans (drainFrom_cursorsGrow _ _ _ _ _)

/-- Whatever the cursor query answers, a drain only moves cursors up: a
failed query drains from `0` again, re-reading rows the cursor has passed,
and the `MAX` upsert keeps the cursor. -/
theorem drainOnceWith_cursorsGrow (db : ConfigDb) (load : Option (Option ListenerCursor))
    (rules : List ConfiguredRule) (outcome : String → String → ConfiguredRule → RuleOutcome) (now t : Int) :
    CursorsGrow db.cursors (drainOnceWith db load rules outcome now t).1.cursors := by
  unfold drainOnceWith
  split
  · exact (ConfigDb.cursorsGrow_listenerCursorAdvance _ _ _ _).trans (drainFrom_cursorsGrow _ _ _ _ _)
  · exact drainFrom_cursorsGrow _ _ _ _ _

theorem drainOnce_cursor_mono (db : ConfigDb) (rules : List ConfiguredRule)
    (outcome : String → String → ConfiguredRule → RuleOutcome) (now t : Int) :
    cursorOf db ≤ cursorOf (drainOnce db rules outcome now t).1 := by
  obtain ⟨db₁, hdrain, -, hcur, -⟩ := drainOnce_eq_drainFrom db rules outcome now t
  rw [hdrain]
  exact cursorOf_le_drainFrom rules outcome t hcur

/-- A drain writes only the cursor table, so the next drain starts from
well-formed tables again: the results below hold at every drain of a
sequence. -/
theorem wellFormed_drainOnce {db : ConfigDb} (hwf : db.WellFormed) (rules : List ConfiguredRule)
    (outcome : String → String → ConfiguredRule → RuleOutcome) (now t : Int) :
    (drainOnce db rules outcome now t).1.WellFormed := by
  have hfrom : ∀ db₁ cursor, db₁.WellFormed → (drainFrom db₁ cursor rules outcome t).1.WellFormed := by
    intro db₁ cursor hwf₁
    dsimp only [drainFrom]
    split
    · exact hwf₁
    · split
      · exact hwf₁
      · split_ifs
        · exact hwf₁.listenerCursorAdvance _ _ _
        · exact hwf₁
  unfold drainOnce drainOnceWith
  split
  · exact hfrom _ _ (hwf.listenerCursorAdvance _ _ _)
  · exact hfrom _ _ hwf

/-- When a drain moves the cursor from `c` to `w`, each key whose events in
the drained window end with an event `e` at or below `w` had the verdict of
`e` applied, with success, for every rule that matched it and had not
vanished (or that verdict is `Noop`). -/
theorem drainOnce_applies_last_event {db : ConfigDb} {rules : List ConfiguredRule}
    {outcome : String → String → ConfiguredRule → RuleOutcome} {now t : Int} (hwf : db.WellFormed)
    (hmove : cursorOf db < cursorOf (drainOnce db rules outcome now t).1) {e : OutboxRow}
    (he : e ∈ db.eventOutboxSince (cursorOf db) drainBatch)
    (hlast : ∀ r ∈ db.eventOutboxSince (cursorOf db) drainBatch,
      (r.bucket, r.key) = (e.bucket, e.key) → r.id ≤ e.id)
    (hle : e.id ≤ cursorOf (drainOnce db rules outcome now t).1) {rule : ConfiguredRule}
    (hrule : rule ∈ matchRules rules e.bucket e.key) (hkept : outcome e.bucket e.key rule ≠ .vanished) :
    compactKeyEvents [e.kind] = .noop ∨
      (e.bucket, e.key, rule.name, compactKeyEvents [e.kind]) ∈ (drainOnce db rules outcome now t).2 := by
  obtain ⟨db₁, hdrain, hrows, hcur, -⟩ := drainOnce_eq_drainFrom db rules outcome now t
  rw [hdrain] at hmove hle ⊢
  -- the window is read from the same rows
  have hwindow : db₁.eventOutboxSince (cursorOf db) drainBatch =
      db.eventOutboxSince (cursorOf db) drainBatch := by
    simp [ConfigDb.eventOutboxSince, hrows]
  obtain ⟨acc, hok, happlied, hw⟩ := drainFrom_moved hcur hmove
  rw [hwindow] at hok hw
  have hsorted := ConfigDb.pairwise_eventOutboxSince hwf (cursorOf db) drainBatch
  -- the key's group holds its rows of the window in id order, `e` last
  obtain ⟨g, hg, hgkey, hgrows⟩ := mem_groupEventsByKey he
  have heg : e ∈ g.2 := hgrows ▸ List.mem_filter.mpr ⟨he, by simp⟩
  have hgmax : ∀ r ∈ g.2, r.id ≤ e.id := by
    intro r hr
    rw [hgrows, List.mem_filter] at hr
    exact hlast r hr.1 (by simpa using hr.2)
  obtain ⟨front, hfront⟩ := List.getLast?_eq_some_iff.mp
    (getLast?_eq_of_id_max (hsorted.sublist (hgrows ▸ List.filter_sublist)) heg hgmax)
  have haction : compactKeyEvents (g.2.map (·.kind)) = compactKeyEvents [e.kind] := by
    rw [hfront, List.map_append, List.map_singleton, compactKeyEvents_append_singleton]
  by_cases hnoop : compactKeyEvents [e.kind] = .noop
  · exact .inl hnoop
  right
  have hbucket : g.1.1 = e.bucket := by rw [hgkey]
  have hkey : g.1.2 = e.key := by rw [hgkey]
  rcases (drainGroups_spec hok).2 g hg (haction ▸ hnoop) rule (hbucket ▸ hkey ▸ hrule) with
    hv | hf | ha
  · exact absurd (hbucket ▸ hkey ▸ hv) hkept
  · -- the key's largest id lies at or below the watermark, so it did not fail
    rw [max?_ids_of_max heg hgmax] at hf
    exact absurd hf (not_failed_of_le_contiguousWatermark hsorted
      (fun r hr => (ConfigDb.mem_eventOutboxSince hr).2) he (hw ▸ hle))
  · rw [happlied]
    simpa [hbucket, hkey, haction] using ha


/-- The replication cursor never moves back, and when a drain moves it, no
key whose events in the window end at or below the new cursor is left
behind: the verdict of that last event was applied, with success, for every
matching rule that had not vanished. -/
theorem drainOnce_settles_keys_below_cursor (db : ConfigDb) (rules : List ConfiguredRule)
    (outcome : String → String → ConfiguredRule → RuleOutcome) (now t : Int) (hwf : db.WellFormed) :
    cursorOf db ≤ cursorOf (drainOnce db rules outcome now t).1 ∧
      (cursorOf db < cursorOf (drainOnce db rules outcome now t).1 →
        ∀ e ∈ db.eventOutboxSince (cursorOf db) drainBatch,
          (∀ r ∈ db.eventOutboxSince (cursorOf db) drainBatch,
            (r.bucket, r.key) = (e.bucket, e.key) → r.id ≤ e.id) →
          e.id ≤ cursorOf (drainOnce db rules outcome now t).1 →
          ∀ rule ∈ matchRules rules e.bucket e.key, outcome e.bucket e.key rule ≠ .vanished →
            compactKeyEvents [e.kind] = .noop ∨
              (e.bucket, e.key, rule.name, compactKeyEvents [e.kind]) ∈
                (drainOnce db rules outcome now t).2) :=
  ⟨drainOnce_cursor_mono db rules outcome now t,
    fun hmove _ he hlast hle _ hrule hkept => drainOnce_applies_last_event hwf hmove he hlast hle hrule hkept⟩

/-- A rule replicating all of bucket "src". -/
def srcRule : ConfiguredRule :=
  { name := "mirror", source := ⟨"src", ""⟩, destination := ⟨"dst", ""⟩, enabled := true }

/-- One key created and then deleted, no cursor yet. -/
def createdThenDeleted : ConfigDb :=
  { rows := [ConfigDb.pendingRow 1 ⟨.objectCreated, "src", "a.txt", 0⟩,
      ConfigDb.pendingRow 2 ⟨.objectDeleted, "src", "a.txt", 0⟩],
    cursors := [], nextId := 3 }

/-- A key created once is copied for its rule, and the cursor passes it. -/
theorem drainOnce_settles_created_key :
    let db : ConfigDb :=
      { rows := [ConfigDb.pendingRow 1 ⟨.objectCreated, "src", "a.txt", 0⟩], cursors := [], nextId := 2 }
    db.WellFormed ∧
      (cursorOf db ≤ cursorOf (drainOnce db [srcRule] (fun _ _ _ => .applied true) 100 100).1 ∧
      (cursorOf db < cursorOf (drainOnce db [srcRule] (fun _ _ _ => .applied true) 100 100).1 →
        ∀ e ∈ db.eventOutboxSince (cursorOf db) drainBatch,
          (∀ r ∈ db.eventOutboxSince (cursorOf db) drainBatch,
            (r.bucket, r.key) = (e.bucket, e.key) → r.id ≤ e.id) →
          e.id ≤ cursorOf (drainOnce db [srcRule] (fun _ _ _ => .applied true) 100 100).1 →
          ∀ rule ∈ matchRules [srcRule] e.bucket e.key,
            (fun _ _ _ => RuleOutcome.applied true) e.bucket e.key rule ≠ .vanished →
            compactKeyEvents [e.kind] = .noop ∨
              (e.bucket, e.key, rule.name, compactKeyEvents [e.kind]) ∈
                (drainOnce db [srcRule] (fun _ _ _ => .applied true) 100 100).2)) :=
  let hwf : ConfigDb.WellFormed _ := ⟨by decide, by decide, by decide⟩
  ⟨hwf, drainOnce_settles_keys_below_cursor _ _ _ 100 100 hwf⟩

/-- The key's delete fails for its one rule: the watermark stops before id
`2` but passes id `1`, so the cursor moves past a key whose compacted
verdict (`Delete`) was never applied, nor the verdict of its last event at
or below the cursor (`Copy`). -/
theorem watermark_passes_failed_key :
    cursorOf createdThenDeleted = 0 ∧
      cursorOf (drainOnce createdThenDeleted [srcRule] (fun _ _ _ => .applied false) 100 100).1 = 1 ∧
      matchRules [srcRule] "src" "a.txt" = [srcRule] ∧
      compactKeyEvents ["ObjectCreated", "ObjectDeleted"] = .delete ∧
      compactKeyEvents ["ObjectCreated"] = .copy ∧
      (drainOnce createdThenDeleted [srcRule] (fun _ _ _ => .applied false) 100 100).2 = [] := by
  decide

end DeltaGlider.Replication
