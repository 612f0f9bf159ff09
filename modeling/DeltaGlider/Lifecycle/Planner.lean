import DeltaGlider.Replication.Planner

/-!
# The lifecycle planner: per-object decisions

`lifecycle_action_for`, `plan_object` and `is_internal_key` of
`src/lifecycle/planner.rs`.  A transition moves a key to the destination
bucket (trimmed) under the destination prefix, rewritten by the replication
planner's `rewrite_key`; with `delete_source_after_success` the only guard is
that the destination is not exactly the source object.

    plan_object … = Apply (Transition b k' true) → the key passed every filter
      and (b, k') ≠ (rule.bucket, key)                                  (planObject_transition)
    source and destination prefixes disjoint → k' is no key of the rule (transition_disjoint_no_overwrite)
    keys `sp ++ t` with `t` not starting with `/` go to distinct keys   (transition_injective)

and `lifecycle_move_guarded` gathers the three.  Nothing else separates a
move from the objects the same rule moves: with the destination prefix
nested under the source prefix one move overwrites another key of the rule,
and `a/x` and `a//x` are moved onto one key (`lifecycle_move_overwrites`).
-/

namespace DeltaGlider.Lifecycle

open RustStd

/-! ## Algorithm -/

/-- `LifecycleDestination`. -/
structure LifecycleDestination where
  bucket : String
  keyPrefix : String
  deriving DecidableEq, Repr

/-- `LifecycleTransitionAction`. -/
structure LifecycleTransitionAction where
  destination : LifecycleDestination
  deleteSourceAfterSuccess : Bool
  deriving DecidableEq, Repr

/-- `LifecycleAction`; the planner reads nothing of a `retain-newest` action
but its kind. -/
inductive LifecycleAction where
  | delete
  | transition (action : LifecycleTransitionAction)
  | retainNewest
  deriving DecidableEq, Repr

/-- `LifecycleRule`, of the fields the planner reads. -/
structure LifecycleRule where
  name : String
  bucket : String
  keyPrefix : String
  action : LifecycleAction
  deriving DecidableEq, Repr

/-- `PlannedLifecycleAction`. -/
inductive PlannedLifecycleAction where
  | delete
  | transition (destinationBucket destinationKey : String) (deleteSourceAfterSuccess : Bool)
  deriving DecidableEq, Repr

/-- `SkipReason`. -/
inductive SkipReason where
  | notExpired
  | excluded
  | dgInternal
  | directoryMarker
  deriving DecidableEq, Repr

/-- `Decision`. -/
inductive Decision where
  | apply (action : PlannedLifecycleAction)
  | skip (reason : SkipReason)
  deriving DecidableEq, Repr

/-- `PlanError`; a failed rewrite carries the replication planner's error
(the source carries its text). -/
inductive PlanError where
  | invalidGlob (pattern reason : String)
  | destinationRewrite (key : String) (reason : Replication.PlanError)
  | unsafeSelfMove (bucket key : String)
  | wrongActionPath (rule : String)
  deriving DecidableEq, Repr

/-- `lifecycle_action_for`. -/
def lifecycleActionFor (rule : LifecycleRule) (key : String) : Except PlanError PlannedLifecycleAction :=
  match rule.action with
  | .delete => .ok .delete
  | .retainNewest => .error (.wrongActionPath rule.name)
  | .transition action =>
    let destinationBucket := String.ofList (trim action.destination.bucket.toList)
    match Replication.rewriteKey rule.keyPrefix action.destination.keyPrefix key with
    | .error err => .error (.destinationRewrite key err)
    | .ok destinationKey =>
      if action.deleteSourceAfterSuccess && destinationBucket == rule.bucket && destinationKey == key then
        .error (.unsafeSelfMove rule.bucket key)
      else .ok (.transition destinationBucket destinationKey action.deleteSourceAfterSuccess)

/-- `is_internal_key`: the engine's own artifacts and config-sync data. -/
def isInternalKey (key : String) : Bool :=
  key == ".deltaglider" || ".deltaglider/".toList.isPrefixOf key.toList ||
    decide ("/.deltaglider/".toList <:+: key.toList) || key == ".dg" || ".dg/".toList.isPrefixOf key.toList ||
    decide ("/.dg/".toList <:+: key.toList) || "/reference.bin".toList.isSuffixOf key.toList ||
    key == "reference.bin" || ".delta".toList.isSuffixOf key.toList

/-- `plan_object`. -/
def planObject (rule : LifecycleRule) (key : String) (objMeta : FileMetadata) (expireBefore : Int)
    (includeGlobs excludeGlobs : Replication.GlobSet) : Except PlanError Decision :=
  if key.toList.getLast? = some '/' then .ok (.skip .directoryMarker)
  else if isInternalKey key then .ok (.skip .dgInternal)
  else if excludeGlobs.isMatch key then .ok (.skip .excluded)
  else if !includeGlobs.isEmpty && !includeGlobs.isMatch key then .ok (.skip .excluded)
  else if objMeta.createdAt ≤ expireBefore then (lifecycleActionFor rule key).map .apply
  else .ok (.skip .notExpired)

/-! ## Lemmas -/

/-- An object `plan_object` applies a rule to is no directory marker and no
internal key, passes the globs, has expired, and gets the rule's action. -/
theorem planObject_apply {rule : LifecycleRule} {key : String} {objMeta : FileMetadata} {expireBefore : Int}
    {includeGlobs excludeGlobs : Replication.GlobSet} {act : PlannedLifecycleAction}
    (h : planObject rule key objMeta expireBefore includeGlobs excludeGlobs = .ok (.apply act)) :
    key.toList.getLast? ≠ some '/' ∧ isInternalKey key = false ∧ excludeGlobs.isMatch key = false ∧
      (includeGlobs.isEmpty || includeGlobs.isMatch key) = true ∧ objMeta.createdAt ≤ expireBefore ∧
      lifecycleActionFor rule key = .ok act := by
  unfold planObject at h
  by_cases hdir : key.toList.getLast? = some '/'
  · simp [hdir] at h
  by_cases hint : isInternalKey key = true
  · simp [hdir, hint] at h
  by_cases hexcl : excludeGlobs.isMatch key = true
  · simp [hdir, hint, hexcl] at h
  by_cases hincl : (!includeGlobs.isEmpty && !includeGlobs.isMatch key) = true
  · simp [hdir, hint, hexcl, hincl] at h
  by_cases hexp : objMeta.createdAt ≤ expireBefore
  · simp only [hdir, hint, hexcl, hincl, hexp, if_false, if_true, Bool.false_eq_true] at h
    refine ⟨hdir, by simpa using hint, by simpa using hexcl, ?_, hexp, ?_⟩
    · cases he : includeGlobs.isEmpty <;> cases hm : includeGlobs.isMatch key <;> simp_all
    · cases hact : lifecycleActionFor rule key with
      | error e => simp [hact, Except.map] at h
      | ok a =>
        simp only [hact, Except.map, Except.ok.injEq, Decision.apply.injEq] at h
        rw [h]
  · simp [hdir, hint, hexcl, hincl, hexp] at h

/-- A transition `lifecycle_action_for` answers: the trimmed destination
bucket, the rewritten key, and not exactly the source object when the
source is deleted. -/
theorem lifecycleActionFor_transition {rule : LifecycleRule} {key : String} {action : LifecycleTransitionAction}
    {bucket destKey : String} {delete : Bool} (haction : rule.action = .transition action)
    (h : lifecycleActionFor rule key = .ok (.transition bucket destKey delete)) :
    bucket = String.ofList (trim action.destination.bucket.toList) ∧
      Replication.rewriteKey rule.keyPrefix action.destination.keyPrefix key = .ok destKey ∧
      delete = action.deleteSourceAfterSuccess ∧ (delete = true → ¬ (bucket = rule.bucket ∧ destKey = key)) := by
  unfold lifecycleActionFor at h
  rw [haction] at h
  dsimp only at h
  cases hrw : Replication.rewriteKey rule.keyPrefix action.destination.keyPrefix key with
  | error e => simp [hrw] at h
  | ok k =>
    simp only [hrw] at h
    split at h
    · cases h
    · next hguard =>
      simp only [Except.ok.injEq, PlannedLifecycleAction.transition.injEq] at h
      obtain ⟨rfl, rfl, rfl⟩ := h
      refine ⟨rfl, rfl, rfl, ?_⟩
      intro hdel heq
      apply hguard
      simp [hdel, heq.1, heq.2]

/-- A move `plan_object` plans for a rule that deletes its sources: the key
passed the filters, the destination key is the rewrite of the key, and the
destination is not exactly the source object. -/
theorem planObject_transition {rule : LifecycleRule} {key : String} {objMeta : FileMetadata} {expireBefore : Int}
    {includeGlobs excludeGlobs : Replication.GlobSet} {action : LifecycleTransitionAction} {bucket destKey : String}
    (haction : rule.action = .transition action)
    (h : planObject rule key objMeta expireBefore includeGlobs excludeGlobs =
      .ok (.apply (.transition bucket destKey true))) :
    Replication.rewriteKey rule.keyPrefix action.destination.keyPrefix key = .ok destKey ∧
      ¬ (bucket = rule.bucket ∧ destKey = key) := by
  obtain ⟨-, -, -, -, -, hact⟩ := planObject_apply h
  obtain ⟨-, hrw, -, hguard⟩ := lifecycleActionFor_transition haction hact
  exact ⟨hrw, hguard rfl⟩

/-- When neither normalised prefix is a prefix of the other, a move never
lands on a key under the rule's prefix: no object the rule scans is
overwritten, in whatever bucket the move lands. -/
theorem transition_disjoint_no_overwrite {rule : LifecycleRule} {key other : String} {objMeta : FileMetadata}
    {expireBefore : Int} {includeGlobs excludeGlobs : Replication.GlobSet} {action : LifecycleTransitionAction}
    {bucket destKey : String} (haction : rule.action = .transition action)
    (h : planObject rule key objMeta expireBefore includeGlobs excludeGlobs =
      .ok (.apply (.transition bucket destKey true)))
    (hunder : (Replication.normalizePrefix rule.keyPrefix).toList <+: key.toList)
    (hother : (Replication.normalizePrefix rule.keyPrefix).toList <+: other.toList)
    (hdisjoint : ¬ (Replication.normalizePrefix rule.keyPrefix).toList <+:
        (Replication.normalizePrefix action.destination.keyPrefix).toList ∧
      ¬ (Replication.normalizePrefix action.destination.keyPrefix).toList <+:
        (Replication.normalizePrefix rule.keyPrefix).toList) :
    destKey ≠ other := by
  obtain ⟨hrw, -⟩ := planObject_transition haction h
  have hdest := Replication.rewriteKey_prefix hunder hrw
  intro heq
  subst heq
  -- two prefixes of one key are comparable
  rcases Nat.le_total (Replication.normalizePrefix rule.keyPrefix).toList.length
      (Replication.normalizePrefix action.destination.keyPrefix).toList.length with hle | hle
  · exact hdisjoint.1 (List.prefix_of_prefix_length_le hother hdest hle)
  · exact hdisjoint.2 (List.prefix_of_prefix_length_le hdest hother hle)

/-- The move of a key `sp ++ t`, with `t` not starting with `/`, lands on
`dp ++ t`. -/
theorem transition_destKey {rule : LifecycleRule} {tail : String} {objMeta : FileMetadata} {expireBefore : Int}
    {includeGlobs excludeGlobs : Replication.GlobSet} {action : LifecycleTransitionAction} {bucket destKey : String}
    (haction : rule.action = .transition action)
    (h : planObject rule (Replication.normalizePrefix rule.keyPrefix ++ tail) objMeta expireBefore includeGlobs
      excludeGlobs = .ok (.apply (.transition bucket destKey true)))
    (htail : tail.toList.head? ≠ some '/') :
    destKey = Replication.normalizePrefix action.destination.keyPrefix ++ tail := by
  obtain ⟨hrw, -⟩ := planObject_transition haction h
  rw [Replication.rewriteKey_append _ _ _ htail] at hrw
  exact (Except.ok.inj hrw).symm

/-- Distinct keys `sp ++ t` whose tails do not start with `/` are moved to
distinct keys. -/
theorem transition_injective {rule : LifecycleRule} {tail tail' : String} {objMeta objMeta' : FileMetadata}
    {expireBefore : Int} {includeGlobs excludeGlobs : Replication.GlobSet} {action : LifecycleTransitionAction}
    {bucket bucket' destKey : String} (haction : rule.action = .transition action)
    (h : planObject rule (Replication.normalizePrefix rule.keyPrefix ++ tail) objMeta expireBefore includeGlobs
      excludeGlobs = .ok (.apply (.transition bucket destKey true)))
    (h' : planObject rule (Replication.normalizePrefix rule.keyPrefix ++ tail') objMeta' expireBefore includeGlobs
      excludeGlobs = .ok (.apply (.transition bucket' destKey true)))
    (htail : tail.toList.head? ≠ some '/') (htail' : tail'.toList.head? ≠ some '/') :
    tail = tail' := by
  have hdest := transition_destKey haction h htail
  have hdest' := transition_destKey haction h' htail'
  have hsame := hdest.symm.trans hdest'
  apply String.toList_inj.mp
  have hlists := congrArg String.toList hsame
  rw [String.toList_append, String.toList_append] at hlists
  exact List.append_cancel_left hlists

/-- **What a move keeps**: an applied move never targets its own object;
when neither normalised prefix is a prefix of the other it never lands on a
key under the rule's prefix, so it overwrites nothing the rule moves; and two
keys whose tails after the prefix do not start with `/` get two
destinations.  Nested prefixes and `/`-led tails are the design's own cases
(`lifecycle_move_overwrites`). -/
theorem lifecycle_move_guarded :
    (∀ {rule : LifecycleRule} {key : String} {objMeta : FileMetadata} {expireBefore : Int}
        {includeGlobs excludeGlobs : Replication.GlobSet} {action : LifecycleTransitionAction}
        {bucket destKey : String},
      rule.action = .transition action →
      planObject rule key objMeta expireBefore includeGlobs excludeGlobs =
        .ok (.apply (.transition bucket destKey true)) →
      ¬ (bucket = rule.bucket ∧ destKey = key)) ∧
    (∀ {rule : LifecycleRule} {key other : String} {objMeta : FileMetadata} {expireBefore : Int}
        {includeGlobs excludeGlobs : Replication.GlobSet} {action : LifecycleTransitionAction}
        {bucket destKey : String},
      rule.action = .transition action →
      planObject rule key objMeta expireBefore includeGlobs excludeGlobs =
        .ok (.apply (.transition bucket destKey true)) →
      (Replication.normalizePrefix rule.keyPrefix).toList <+: key.toList →
      (Replication.normalizePrefix rule.keyPrefix).toList <+: other.toList →
      (¬ (Replication.normalizePrefix rule.keyPrefix).toList <+:
          (Replication.normalizePrefix action.destination.keyPrefix).toList ∧
        ¬ (Replication.normalizePrefix action.destination.keyPrefix).toList <+:
          (Replication.normalizePrefix rule.keyPrefix).toList) →
      destKey ≠ other) ∧
    (∀ {rule : LifecycleRule} {tail tail' : String} {objMeta objMeta' : FileMetadata} {expireBefore : Int}
        {includeGlobs excludeGlobs : Replication.GlobSet} {action : LifecycleTransitionAction}
        {bucket bucket' destKey : String},
      rule.action = .transition action →
      planObject rule (Replication.normalizePrefix rule.keyPrefix ++ tail) objMeta expireBefore includeGlobs
        excludeGlobs = .ok (.apply (.transition bucket destKey true)) →
      planObject rule (Replication.normalizePrefix rule.keyPrefix ++ tail') objMeta' expireBefore includeGlobs
        excludeGlobs = .ok (.apply (.transition bucket' destKey true)) →
      tail.toList.head? ≠ some '/' → tail'.toList.head? ≠ some '/' → tail = tail') :=
  ⟨fun haction h => (planObject_transition haction h).2,
    fun haction h hunder hother hdisjoint => transition_disjoint_no_overwrite haction h hunder hother hdisjoint,
    fun haction h h' htail htail' => transition_injective haction h h' htail htail'⟩

/-- Two moves the same rule plans overwrite keys it also moves.  With source
prefix `a` and destination `b`/`a/b`, `a/x` is moved onto `a/b/x`, itself a
key the rule moves on to `a/b/b/x`; with destination `d`/`b`, `a/x` and `a//x`
are both moved onto `b/x`. -/
theorem lifecycle_move_overwrites :
    planObject ⟨"nest", "b", "a", .transition ⟨⟨"b", "a/b"⟩, true⟩⟩ "a/x"
        (FileMetadata.newReference "x" "x" "" "" 1 none 0) 0 ⟨[]⟩ ⟨[]⟩ =
      .ok (.apply (.transition "b" "a/b/x" true)) ∧
    planObject ⟨"nest", "b", "a", .transition ⟨⟨"b", "a/b"⟩, true⟩⟩ "a/b/x"
        (FileMetadata.newReference "x" "x" "" "" 1 none 0) 0 ⟨[]⟩ ⟨[]⟩ =
      .ok (.apply (.transition "b" "a/b/b/x" true)) ∧
    planObject ⟨"move", "b", "a", .transition ⟨⟨"d", "b"⟩, true⟩⟩ "a/x"
        (FileMetadata.newReference "x" "x" "" "" 1 none 0) 0 ⟨[]⟩ ⟨[]⟩ =
      .ok (.apply (.transition "d" "b/x" true)) ∧
    planObject ⟨"move", "b", "a", .transition ⟨⟨"d", "b"⟩, true⟩⟩ "a//x"
        (FileMetadata.newReference "x" "x" "" "" 1 none 0) 0 ⟨[]⟩ ⟨[]⟩ =
      .ok (.apply (.transition "d" "b/x" true)) := by
  decide

end DeltaGlider.Lifecycle
