import DeltaGlider.Api.Auth
import DeltaGlider.Lib.KeyMap
import DeltaGlider.Lib.Trace

/-!
# The replay guard

The replay detection of `sigv4_auth_middleware` in `src/api/auth.rs`, with
`prune_replay_cache` and `replay_decision`.  The guard keeps a `DashMap` from
a request's SigV4 signature to the instant it was first seen.  A request that
is not presigned prunes the map (entries a window old, then the oldest beyond
`MAX_REPLAY_ENTRIES`), checks and inserts its signature in one `entry` call,
and is rejected when the signature is a live duplicate and the method is
neither GET nor HEAD.

Instants are natural numbers in any unit and the window a duration in the
same unit; `Instant::elapsed` saturates at zero.

Requests run concurrently.  `DashMap` holds a shard's lock for each call of
`retain`'s closure, for a `remove` and for a whole `entry` call, so what the
requests do to the map is a serial order of three atomic operations (`Op`):
drop an entry found expired, drop an entry the hard cap chose, check a
signature.  `GuardStep` says what each does; every instant is read from the
monotonic clock.

* `check_verdict_of_run`: in every run from the empty map, a check of a
  signature that the hard cap never evicted answers what the history alone
  says: it is a duplicate exactly when the signature's last fresh pass
  (`lastFresh`) is less than a window before the check.  Duplicates do not
  move that pass, and the TTL pass never drops an entry still inside it.
* `pruneReplayCache_spec`: the prune keeps `min live max` entries, every one
  of them live, and when it has to drop live entries it drops ones no newer
  than any it keeps.
* `replayGuard_run`: the block as one request runs it is a run of these
  operations, so the middleware serving requests one at a time is one of the
  runs above.
* `replayGuard_rejects_iff`: after any run that never evicted the signature,
  a request whose prune stays under the cap is rejected, with the
  middleware's message, exactly when it is not presigned, is neither GET nor
  HEAD, and its signature passed as fresh less than a window before.

The exactness rests on the hard cap leaving the signature alone: past
`MAX_REPLAY_ENTRIES` live signatures the cap drops the oldest, live or not,
and a dropped signature passes as fresh again.
-/

namespace DeltaGlider.Auth

open Trace

/-! ## Algorithm -/

/-- `MAX_REPLAY_ENTRIES`. -/
def maxReplayEntries : Nat := 500000

/-- The default of `DGP_REPLAY_WINDOW_SECS`, in seconds. -/
def defaultReplayWindowSecs : Nat := 2

/-- `axum::http::Method`. -/
inductive Method where
  | get | head | post | put | delete | patch | options | connect | trace
  | extension (name : String)
  deriving DecidableEq, Repr

/-- `ReplayVerdict`. -/
inductive ReplayVerdict where
  | fresh
  | allowIdempotentReplay
  | reject
  deriving DecidableEq, Repr

/-- `replay_decision`. -/
def replayDecision (method : Method) (isDuplicate : Bool) : ReplayVerdict :=
  if !isDuplicate then .fresh
  else match method with
    | .get | .head => .allowIdempotentReplay
    | _ => .reject

/-- `ReplayCache`: signature to the instant it was first seen. -/
abbrev ReplayCache := AList fun _ : String => Nat

/-- `first_seen.elapsed() < replay_window` read at the instant `now`. -/
def live (window now firstSeen : Nat) : Bool := decide (now - firstSeen < window)

/-- Pass 1 of `prune_replay_cache`:
`cache.retain(|_, instant| instant.elapsed() < replay_window)`. -/
def expireEntries (window now : Nat) (cache : ReplayCache) : ReplayCache :=
  KeyMap.retain (fun _ firstSeen => live window now firstSeen) cache

/-- The order of `select_nth_unstable_by_key(.., |(_, seen_at)| *seen_at)`. -/
def seenNoLater (a b : String × Nat) : Prop := a.2 ≤ b.2

instance : DecidableRel seenNoLater := fun a b => Nat.decLe a.2 b.2

instance : Std.Total seenNoLater := ⟨fun a b => le_total a.2 b.2⟩

instance : IsTrans (String × Nat) seenNoLater := ⟨fun _ _ _ hab hbc => le_trans hab hbc⟩

/-- The `to_remove` oldest entries of the snapshot.  `select_nth_unstable_by_key`
leaves the order among entries seen at one instant unspecified; the model
takes the one of an insertion sort. -/
def oldestEntries (toRemove : Nat) (entries : List (String × Nat)) : List (String × Nat) :=
  (entries.insertionSort seenNoLater).take toRemove

/-- `prune_replay_cache`. -/
def pruneReplayCache (window maxEntries now : Nat) (cache : ReplayCache) : ReplayCache :=
  let cache := expireEntries window now cache
  let lenAfterTtl := cache.entries.length
  if lenAfterTtl ≤ maxEntries then cache
  else
    let toRemove := lenAfterTtl - maxEntries
    let entries := cache.entries.map fun e => (e.1, e.2)
    (oldestEntries toRemove entries).foldl (fun c e => c.erase e.1) cache

/-- `cache.entry(sig).and_modify(..).or_insert_with(Instant::now)` at the
instant `now`: whether the signature is a live duplicate, and the map after.
A duplicate keeps the instant of the first sighting; an expired entry is
reset to `now`. -/
def checkSignature (window now : Nat) (sig : String) (cache : ReplayCache) : Bool × ReplayCache :=
  match cache.lookup sig with
  | some firstSeen =>
    if live window now firstSeen then (true, cache) else (false, cache.insert sig now)
  | none => (false, cache.insert sig now)

/-- The replay block of `sigv4_auth_middleware` for one request, all of it
read at the instant `now`: the error it returns, if any, and the map after.
A presigned URL skips it. -/
def replayGuard (window maxEntries now : Nat) (presigned : Bool) (method : Method) (sig : String)
    (cache : ReplayCache) : Except S3Error Unit × ReplayCache :=
  if presigned then (.ok (), cache)
  else
    let cache := pruneReplayCache window maxEntries now cache
    let (isDuplicate, cache) := checkSignature window now sig cache
    match replayDecision method isDuplicate with
    | .reject => (.error (.invalidArgument "Request replay detected"), cache)
    | _ => (.ok (), cache)

/-- A PUT replayed one instant after its first sighting, inside a window of
two, is rejected; a GET replayed the same way passes. -/
example : (replayGuard 2 10 5 false .put "sig" ((∅ : ReplayCache).insert "sig" 4)).1 =
    .error (.invalidArgument "Request replay detected") := by decide

example : (replayGuard 2 10 5 false .get "sig" ((∅ : ReplayCache).insert "sig" 4)).1 = .ok () := by
  decide

/-! ## The operations of concurrent requests -/

/-- One atomic operation on the map. -/
inductive Op where
  /-- `retain`'s closure found the entry of `sig` expired at `now` and dropped it. -/
  | expire (sig : String) (now : Nat)
  /-- The hard cap's `cache.remove(&sig)`. -/
  | evict (sig : String)
  /-- The `entry` call of a request with `method` for `sig` at `now`, and the
  verdict `replay_decision` gave. -/
  | check (sig : String) (method : Method) (now : Nat) (verdict : ReplayVerdict)
  deriving DecidableEq, Repr

/-- The map and the latest instant an operation read. -/
structure GuardState where
  cache : ReplayCache
  clock : Nat

/-- The map the middleware starts with. -/
def GuardState.init : GuardState := ⟨∅, 0⟩

/-- What each operation does.  An instant read is never before the last one. -/
inductive GuardStep (window : Nat) : GuardState → Op → GuardState → Prop
  | expire {st : GuardState} {sig : String} {now firstSeen : Nat} (hclock : st.clock ≤ now)
      (hfound : st.cache.lookup sig = some firstSeen) (hexpired : live window now firstSeen = false) :
      GuardStep window st (.expire sig now) ⟨st.cache.erase sig, now⟩
  | evict {st : GuardState} {sig : String} :
      GuardStep window st (.evict sig) ⟨st.cache.erase sig, st.clock⟩
  | check {st : GuardState} {sig : String} {method : Method} {now : Nat} (hclock : st.clock ≤ now) :
      GuardStep window st
        (.check sig method now (replayDecision method (checkSignature window now sig st.cache).1))
        ⟨(checkSignature window now sig st.cache).2, now⟩

/-- The ghost of a signature's window: the instant of its last check that
was let through as fresh. -/
def freshStep (sig : String) (last : Option Nat) : Op → Option Nat
  | .check s _ now .fresh => if s = sig then some now else last
  | _ => last

/-- The instant of the last fresh pass of `sig` in the operations. -/
def lastFresh (sig : String) (ops : List Op) : Option Nat := ops.foldl (freshStep sig) none

/-- Whether a check at `now` falls inside the window of the last fresh pass. -/
def seenWithin (window : Nat) (last : Option Nat) (now : Nat) : Bool :=
  last.any fun t => decide (now < t + window)

/-- The removals of `prune_replay_cache` at `now` as operations: the TTL
pass's in the map's order, then the hard cap's. -/
def pruneOps (window maxEntries now : Nat) (cache : ReplayCache) : List Op :=
  let kept := expireEntries window now cache
  ((cache.entries.filter fun e => !live window now e.2).map fun e => .expire e.1 now) ++
    if kept.entries.length ≤ maxEntries then []
    else (oldestEntries (kept.entries.length - maxEntries) (kept.entries.map fun e => (e.1, e.2))).map
      fun e => .evict e.1

/-- The operations of one request's block at `now`: the prune's, then the
check. -/
def requestOps (window maxEntries now : Nat) (presigned : Bool) (method : Method) (sig : String)
    (cache : ReplayCache) : List Op :=
  if presigned then []
  else pruneOps window maxEntries now cache ++
    [.check sig method now
      (replayDecision method (checkSignature window now sig (pruneReplayCache window maxEntries now cache)).1)]

/-! ## Lemmas -/

section Verdicts

theorem replayDecision_eq_fresh (method : Method) (isDuplicate : Bool) :
    replayDecision method isDuplicate = .fresh ↔ isDuplicate = false := by
  unfold replayDecision
  cases isDuplicate
  · simp
  · cases method <;> simp

theorem replayDecision_eq_reject (method : Method) (isDuplicate : Bool) :
    replayDecision method isDuplicate = .reject ↔
      isDuplicate = true ∧ method ≠ .get ∧ method ≠ .head := by
  unfold replayDecision
  cases isDuplicate
  · simp
  · cases method <;> simp

theorem live_iff {window now firstSeen : Nat} (h : firstSeen ≤ now) :
    live window now firstSeen = true ↔ now < firstSeen + window := by
  simp only [live, decide_eq_true_eq]
  omega

theorem checkSignature_eq (window now : Nat) (sig : String) (cache : ReplayCache) :
    checkSignature window now sig cache =
      if (cache.lookup sig).any (live window now) then (true, cache)
      else (false, cache.insert sig now) := by
  unfold checkSignature
  cases cache.lookup sig with
  | none => rfl
  | some firstSeen => by_cases h : live window now firstSeen <;> simp [h]

/-- The check leaves every other signature's entry alone. -/
theorem lookup_checkSignature_of_ne {window now : Nat} {sig sig' : String} (cache : ReplayCache)
    (h : sig' ≠ sig) :
    (checkSignature window now sig cache).2.lookup sig' = cache.lookup sig' := by
  rw [checkSignature_eq]
  split
  · rfl
  · exact AList.lookup_insert_ne h

end Verdicts

/-! ### One signature's entry over a run -/

section Entry

variable {window : Nat} {sig : String}

/-- What every run keeps about the entry of `sig`, given its last fresh pass
`last`: the pass is in the past; an entry is that pass's instant; with no
entry, the pass is at least a window old. -/
structure EntryInv (window : Nat) (sig : String) (last : Option Nat) (st : GuardState) : Prop where
  past : ∀ t, last = some t → t ≤ st.clock
  entry : ∀ t, st.cache.lookup sig = some t → last = some t
  gone : st.cache.lookup sig = none → ∀ t, last = some t → t + window ≤ st.clock

theorem entryInv_init : EntryInv window sig none GuardState.init :=
  ⟨nofun, fun _ h => by simp [GuardState.init] at h, fun _ _ => nofun⟩

/-- An operation on another signature's entry that reads the clock later
keeps the invariant. -/
theorem EntryInv.of_other {last : Option Nat} {st st' : GuardState} (hinv : EntryInv window sig last st)
    (hlookup : st'.cache.lookup sig = st.cache.lookup sig) (hclock : st.clock ≤ st'.clock) :
    EntryInv window sig last st' where
  past t ht := (hinv.past t ht).trans hclock
  entry t ht := hinv.entry t (hlookup ▸ ht)
  gone hnone t ht := (hinv.gone (hlookup ▸ hnone) t ht).trans hclock

/-- What a check of `sig` answers, from the invariant. -/
theorem check_verdict_of_inv {last : Option Nat} {st st' : GuardState} {method : Method} {now : Nat}
    {verdict : ReplayVerdict} (hinv : EntryInv window sig last st)
    (hstep : GuardStep window st (.check sig method now verdict) st') :
    verdict = replayDecision method (seenWithin window last now) := by
  cases hstep with
  | check hclock =>
    congr 1
    rw [checkSignature_eq]
    cases hfound : st.cache.lookup sig with
    | none =>
      -- no entry: the last pass, if any, is a whole window before `now`
      cases last with
      | none => simp [seenWithin]
      | some t =>
        have hold := hinv.gone hfound t rfl
        simp only [Option.any_none, Bool.false_eq_true, if_false, seenWithin, Option.any_some]
        exact (decide_eq_false (by omega)).symm
    | some firstSeen =>
      have hlast := hinv.entry firstSeen hfound
      subst hlast
      have hle := hinv.past firstSeen rfl
      by_cases hlive : live window now firstSeen = true
      · simp only [Option.any_some, hlive, if_true, seenWithin]
        exact (decide_eq_true ((live_iff (hle.trans hclock)).mp hlive)).symm
      · simp only [Option.any_some, hlive, Bool.false_eq_true, if_false, seenWithin]
        exact (decide_eq_false fun h => hlive ((live_iff (hle.trans hclock)).mpr h)).symm

/-- One step: every operation but the eviction of `sig` keeps the invariant
with the ghost moved by `freshStep`. -/
theorem entryInv_step {last : Option Nat} {st st' : GuardState} {op : Op}
    (hinv : EntryInv window sig last st) (hop : op ≠ .evict sig) (hstep : GuardStep window st op st') :
    EntryInv window sig (freshStep sig last op) st' := by
  cases hstep with
  | @expire s now firstSeen hclock hfound hexpired =>
    by_cases hs : s = sig
    · -- the TTL pass drops `sig`'s entry only once its pass is a window old
      subst hs
      have hlast := hinv.entry firstSeen hfound
      subst hlast
      have hle := hinv.past firstSeen rfl
      have hold : firstSeen + window ≤ now := by
        have := (@live_iff window now firstSeen (hle.trans hclock)).not.mp (Bool.eq_false_iff.mp hexpired)
        omega
      refine ⟨fun t ht => ?_, fun t ht => by simp at ht, fun _ t ht => ?_⟩
      · cases ht; exact hle.trans hclock
      · cases ht; exact hold
    · exact hinv.of_other (AList.lookup_erase_ne (Ne.symm hs)) hclock
  | @evict s =>
    have hs : s ≠ sig := fun h => hop (h ▸ rfl)
    exact hinv.of_other (AList.lookup_erase_ne (Ne.symm hs)) le_rfl
  | @check s method now hclock =>
    by_cases hs : s = sig
    · subst hs
      rw [checkSignature_eq] at *
      by_cases hdup : (st.cache.lookup s).any (live window now) = true
      · -- a live duplicate: neither the entry nor the pass moves
        have hv : replayDecision method true ≠ .fresh := by simp [replayDecision_eq_fresh]
        simp only [hdup, if_true, freshStep]
        split
        · rename_i heq
          exact absurd (by injection heq) hv
        · exact hinv.of_other rfl hclock
      · -- a fresh pass: the entry and the ghost both become `now`
        simp only [hdup, Bool.false_eq_true, if_false, freshStep]
        rw [show replayDecision method false = .fresh from rfl]
        simp only [if_true]
        exact ⟨fun t ht => by cases ht; exact le_rfl,
          fun t ht => by rw [AList.lookup_insert] at ht; exact ht,
          fun hnone => by simp at hnone⟩
    · have hghost : freshStep sig last (.check s method now
          (replayDecision method (checkSignature window now s st.cache).1)) = last := by
        unfold freshStep
        split <;> simp_all
      rw [hghost]
      exact hinv.of_other (lookup_checkSignature_of_ne _ (Ne.symm hs)) hclock

/-- The run rule: along every run that never evicts `sig`, the invariant
holds with the ghost folded over the operations. -/
theorem entryInv_run {ops : List Op} {st st' : GuardState} {last : Option Nat}
    (hrun : Run (GuardStep window) st ops st') (hevict : Op.evict sig ∉ ops)
    (hinv : EntryInv window sig last st) : EntryInv window sig (ops.foldl (freshStep sig) last) st' :=
  hrun.fold (I := EntryInv window sig) (freshStep sig) (fun _ op => op ≠ .evict sig)
    (fun _ _ _ _ hI hop hs => entryInv_step hI hop hs) last
    (along_of_forall (fun op hop => by rintro rfl; exact hevict hop) last) hinv

/-- **Replay verdicts.**  In every run of concurrent requests from the empty
map, a check of a signature that the hard cap never evicted answers what the
history says: a duplicate exactly when the last fresh pass of the signature
is less than a window before the check.  So a mutation replayed inside that
window is rejected, and a stream of duplicates never extends it. -/
theorem check_verdict_of_run {ops : List Op} {st st' : GuardState} {method : Method} {now : Nat}
    {verdict : ReplayVerdict} (hrun : Run (GuardStep window) GuardState.init ops st)
    (hevict : Op.evict sig ∉ ops) (hcheck : GuardStep window st (.check sig method now verdict) st') :
    verdict = replayDecision method (seenWithin window (lastFresh sig ops) now) :=
  check_verdict_of_inv (entryInv_run hrun hevict entryInv_init) hcheck

end Entry

/-! ### The prune -/

section Prune

variable {window maxEntries now : Nat} {cache : ReplayCache}

/-- The snapshot `cache.iter().map(..).collect()` holds exactly the map's
entries. -/
theorem mem_snapshot_iff {c : ReplayCache} {a : String} {t : Nat} :
    (a, t) ∈ c.entries.map (fun e => (e.1, e.2)) ↔ c.lookup a = some t := by
  rw [List.mem_map, ← Option.mem_def, AList.mem_lookup_iff]
  constructor
  · rintro ⟨⟨a', t'⟩, he, heq⟩
    cases heq
    exact he
  · intro he
    exact ⟨⟨a, t⟩, he, rfl⟩

theorem lookup_expireEntries (a : String) :
    (expireEntries window now cache).lookup a = (cache.lookup a).filter (live window now) :=
  KeyMap.lookup_retain _ a cache

/-- What the hard cap takes: entries of the map, under distinct keys, as
many as asked for when there are that many. -/
theorem oldestEntries_spec (k : Nat) (c : ReplayCache) :
    (∀ x ∈ oldestEntries k (c.entries.map fun e => (e.1, e.2)), c.lookup x.1 = some x.2) ∧
    ((oldestEntries k (c.entries.map fun e => (e.1, e.2))).map Prod.fst).Nodup ∧
    (oldestEntries k (c.entries.map fun e => (e.1, e.2))).length = min k c.entries.length := by
  have hperm := List.perm_insertionSort seenNoLater (c.entries.map fun e => (e.1, e.2))
  have hkeys : ((c.entries.map fun e => (e.1, e.2)).map Prod.fst).Nodup := by
    have : (c.entries.map Sigma.fst).Nodup := c.nodupKeys
    simpa [List.map_map, Function.comp_def] using this
  refine ⟨fun x hx => ?_, ?_, ?_⟩
  · exact mem_snapshot_iff.mp (hperm.subset (List.mem_of_mem_take hx))
  · exact ((List.take_sublist _ _).map Prod.fst).nodup ((hperm.map Prod.fst).nodup_iff.mpr hkeys)
  · simp [oldestEntries, hperm.length_eq]

/-- **The prune.**  It keeps `min live maxEntries` entries, every one an
entry of the map that is still live; a live entry it drops is no newer than
any entry it keeps. -/
theorem pruneReplayCache_spec :
    (pruneReplayCache window maxEntries now cache).entries.length =
        min (expireEntries window now cache).entries.length maxEntries ∧
      (∀ sig t, (pruneReplayCache window maxEntries now cache).lookup sig = some t →
        cache.lookup sig = some t ∧ live window now t = true) ∧
      (∀ sig t sig' t', cache.lookup sig = some t → live window now t = true →
        (pruneReplayCache window maxEntries now cache).lookup sig = none →
        (pruneReplayCache window maxEntries now cache).lookup sig' = some t' → t ≤ t') := by
  have hkept : ∀ sig t, (expireEntries window now cache).lookup sig = some t ↔
      cache.lookup sig = some t ∧ live window now t = true := by
    intro sig t
    rw [lookup_expireEntries]
    cases cache.lookup sig <;> simp [Option.filter_eq_some_iff]
  unfold pruneReplayCache
  dsimp only
  split
  · -- at most `maxEntries` live entries: only the TTL pass removes anything
    rename_i hle
    refine ⟨(min_eq_left hle).symm, fun sig t h => (hkept sig t).mp h, ?_⟩
    intro sig t sig' t' hfound hlive hnone _
    rw [(hkept sig t).mpr ⟨hfound, hlive⟩] at hnone
    cases hnone
  · -- the hard cap removes the oldest `len - maxEntries`
    rename_i hgt
    set kept := expireEntries window now cache
    set victims := oldestEntries (kept.entries.length - maxEntries)
      (kept.entries.map fun e => (e.1, e.2))
    obtain ⟨hmem, hnodup, hlen⟩ := oldestEntries_spec (kept.entries.length - maxEntries) kept
    have hfold : victims.foldl (fun c e => c.erase e.1) kept =
        (victims.map Prod.fst).foldl (fun c k => c.erase k) kept := by
      rw [List.foldl_map]
    have hlookup : ∀ a, (victims.foldl (fun c e => c.erase e.1) kept).lookup a =
        if a ∈ victims.map Prod.fst then none else kept.lookup a := by
      intro a
      rw [hfold, KeyMap.lookup_foldl_erase]
    refine ⟨?_, ?_, ?_⟩
    · rw [hfold, KeyMap.length_foldl_erase hnodup, List.length_map, hlen]
      · omega
      · intro k hk
        obtain ⟨x, hx, rfl⟩ := List.mem_map.mp hk
        exact AList.lookup_isSome.mp (by rw [hmem x hx]; rfl)
    · intro sig t h
      rw [hlookup] at h
      split at h
      · cases h
      · exact (hkept sig t).mp h
    · intro sig t sig' t' hfound hlive hnone hsome
      rw [hlookup] at hnone hsome
      split at hsome
      · cases hsome
      rename_i hsig'
      have hsig : sig ∈ victims.map Prod.fst := by
        by_contra hnot
        rw [if_neg hnot, (hkept sig t).mpr ⟨hfound, hlive⟩] at hnone
        cases hnone
      obtain ⟨x, hx, hxsig⟩ := List.mem_map.mp hsig
      -- the victim under `sig` is `sig`'s own entry
      have hxt : x = (sig, t) := by
        have := hmem x hx
        rw [hxsig, (hkept sig t).mpr ⟨hfound, hlive⟩] at this
        exact Prod.ext hxsig (Option.some.inj this).symm
      -- the sorted snapshot is the victims followed by the rest
      have hsorted := List.pairwise_insertionSort seenNoLater (kept.entries.map fun e => (e.1, e.2))
      rw [← List.take_append_drop (kept.entries.length - maxEntries)
        (List.insertionSort seenNoLater _)] at hsorted
      have hrest : (sig', t') ∈ (List.insertionSort seenNoLater (kept.entries.map fun e => (e.1, e.2))).drop
          (kept.entries.length - maxEntries) := by
        have hin := (List.perm_insertionSort seenNoLater _).symm.subset (mem_snapshot_iff.mpr hsome)
        rw [← List.take_append_drop (kept.entries.length - maxEntries)
          (List.insertionSort seenNoLater _)] at hin
        rcases List.mem_append.mp hin with hin | hin
        · exact absurd (List.mem_map.mpr ⟨_, hin, rfl⟩) hsig'
        · exact hin
      exact (List.pairwise_append.mp hsorted).2.2 _ (hxt ▸ hx) _ hrest

end Prune

/-! ### The block of one request as operations -/

section Request

variable {window maxEntries now : Nat}

theorem run_expire : ∀ {l : List (Σ _ : String, Nat)} {st : GuardState}, st.clock ≤ now →
    (l.map Sigma.fst).Nodup →
    (∀ e ∈ l, st.cache.lookup e.1 = some e.2 ∧ live window now e.2 = false) →
    ∃ c, c ≤ now ∧ Run (GuardStep window) st (l.map fun e => .expire e.1 now)
      ⟨(l.map Sigma.fst).foldl (fun s k => s.erase k) st.cache, c⟩
  | [], st, hclock, _, _ => ⟨st.clock, hclock, .nil _⟩
  | e :: l, st, hclock, hnodup, hexp => by
    obtain ⟨hfound, hexpired⟩ := hexp e List.mem_cons_self
    have hnotin : e.1 ∉ l.map Sigma.fst := (List.nodup_cons.mp hnodup).1
    -- the rest are still there once `e` is dropped
    have hrest : ∀ e' ∈ l, (st.cache.erase e.1).lookup e'.1 = some e'.2 ∧ live window now e'.2 = false := by
      intro e' he'
      have hne : e'.1 ≠ e.1 := fun h => hnotin (h ▸ List.mem_map_of_mem he')
      rw [AList.lookup_erase_ne hne]
      exact hexp e' (List.mem_cons_of_mem _ he')
    obtain ⟨c, hc, hrun⟩ := @run_expire l ⟨st.cache.erase e.1, now⟩ le_rfl
      (List.nodup_cons.mp hnodup).2 hrest
    exact ⟨c, hc, .cons (.expire hclock hfound hexpired) hrun⟩

theorem run_evict : ∀ (ks : List String) (st : GuardState),
    Run (GuardStep window) st (ks.map .evict) ⟨ks.foldl (fun s k => s.erase k) st.cache, st.clock⟩
  | [], _ => .nil _
  | _ :: ks, _ => .cons .evict (run_evict ks _)

/-- The TTL pass dropping the expired entries one at a time leaves what
`retain` leaves. -/
theorem foldl_erase_expired (cache : ReplayCache) :
    ((cache.entries.filter fun e => !live window now e.2).map Sigma.fst).foldl (fun s k => s.erase k) cache =
      expireEntries window now cache := by
  rw [KeyMap.foldl_erase_eq_retain, expireEntries]
  apply KeyMap.retain_congr
  intro e he
  by_cases hlive : live window now e.2 = true
  · -- no expired entry has `e`'s key: the keys are distinct
    rw [hlive, decide_eq_true_iff]
    intro hmem
    obtain ⟨e', he', hkey⟩ := List.mem_map.mp hmem
    obtain ⟨he'mem, he'exp⟩ := List.mem_filter.mp he'
    have h1 : cache.lookup e.1 = some e.2 := AList.mem_lookup_iff.mpr he
    have h2 : cache.lookup e.1 = some e'.2 := hkey ▸ AList.mem_lookup_iff.mpr he'mem
    rw [h1] at h2
    rw [← Option.some.inj h2] at he'exp
    simp [hlive] at he'exp
  · rw [Bool.eq_false_iff.mpr hlive, decide_eq_false_iff_not, not_not]
    exact List.mem_map_of_mem (List.mem_filter.mpr ⟨he, by simp [Bool.eq_false_iff.mpr hlive]⟩)

/-- The prune at `now`, from any state whose clock is not past `now`, is the
run of its removals. -/
theorem pruneReplayCache_run {cache : ReplayCache} {clock : Nat} (hclock : clock ≤ now) :
    ∃ c, c ≤ now ∧ Run (GuardStep window) ⟨cache, clock⟩ (pruneOps window maxEntries now cache)
      ⟨pruneReplayCache window maxEntries now cache, c⟩ := by
  have hkeys : ((cache.entries.filter fun e => !live window now e.2).map Sigma.fst).Nodup :=
    (List.filter_sublist.map Sigma.fst).nodup cache.nodupKeys
  obtain ⟨c, hc, hexpire⟩ := @run_expire window now (cache.entries.filter fun e => !live window now e.2)
    ⟨cache, clock⟩ hclock hkeys (by
      intro e he
      obtain ⟨hmem, hexp⟩ := List.mem_filter.mp he
      exact ⟨AList.mem_lookup_iff.mpr hmem, by simpa using hexp⟩)
  rw [foldl_erase_expired] at hexpire
  refine ⟨c, hc, hexpire.append ?_⟩
  -- after the TTL pass, the hard cap's removals (none when under the cap)
  unfold pruneReplayCache
  dsimp only
  split
  · exact .nil _
  · have hrun := @run_evict window ((oldestEntries ((expireEntries window now cache).entries.length -
        maxEntries) ((expireEntries window now cache).entries.map fun e => (e.1, e.2))).map Prod.fst)
        ⟨expireEntries window now cache, c⟩
    rw [List.map_map, List.foldl_map] at hrun
    exact hrun

/-- **One request's block is a run.**  The replay block of a request that is
not presigned, run on its own from any state whose clock is not past `now`,
is the run of its operations: the TTL pass, the hard cap, the check. -/
theorem replayGuard_run {method : Method} {sig : String} {cache : ReplayCache} {clock : Nat}
    (hclock : clock ≤ now) :
    Run (GuardStep window) ⟨cache, clock⟩ (requestOps window maxEntries now false method sig cache)
      ⟨(replayGuard window maxEntries now false method sig cache).2, now⟩ := by
  obtain ⟨c, hc, hprune⟩ := @pruneReplayCache_run window maxEntries now cache clock hclock
  have hcheck := @GuardStep.check window ⟨pruneReplayCache window maxEntries now cache, c⟩ sig method now hc
  unfold requestOps replayGuard
  simp only [Bool.false_eq_true, if_false]
  refine hprune.append (.cons ?_ (.nil _))
  split <;> exact hcheck

/-- Operations that pass no check leave the ghost alone. -/
theorem foldl_freshStep_of_forall {sig : String} :
    ∀ {l : List Op}, (∀ op ∈ l, ∀ g, freshStep sig g op = g) → ∀ g, l.foldl (freshStep sig) g = g
  | [], _, _ => rfl
  | op :: _, h, g => by
    rw [List.foldl_cons, h op List.mem_cons_self g,
      foldl_freshStep_of_forall (fun op' hop' => h op' (List.mem_cons_of_mem _ hop'))]

/-- The prune's removals pass no check. -/
theorem foldl_freshStep_pruneOps (sig : String) (cache : ReplayCache) (last : Option Nat) :
    (pruneOps window maxEntries now cache).foldl (freshStep sig) last = last := by
  refine foldl_freshStep_of_forall (fun op hop g => ?_) last
  unfold pruneOps at hop
  dsimp only at hop
  split at hop <;> simp only [List.append_nil, List.mem_append, List.mem_map] at hop
  · obtain ⟨e, -, rfl⟩ := hop
    rfl
  · rcases hop with ⟨e, -, rfl⟩ | ⟨e, -, rfl⟩ <;> rfl

/-- What a request that is not presigned answers, from its check's verdict. -/
theorem replayGuard_fst (method : Method) (sig : String) (cache : ReplayCache) :
    (replayGuard window maxEntries now false method sig cache).1 =
      if replayDecision method (checkSignature window now sig
        (pruneReplayCache window maxEntries now cache)).1 = .reject
      then .error (.invalidArgument "Request replay detected") else .ok () := by
  unfold replayGuard
  simp only [Bool.false_eq_true, if_false]
  generalize replayDecision method _ = verdict
  cases verdict <;> rfl

/-- Under the cap the prune evicts nothing. -/
theorem evict_not_mem_pruneOps {cache : ReplayCache} (sig : String)
    (hcap : (expireEntries window now cache).entries.length ≤ maxEntries) :
    Op.evict sig ∉ pruneOps window maxEntries now cache := by
  unfold pruneOps
  simp [hcap]

/-- **A request's answer.**  After any run of concurrent operations that never
evicted `sig`, a request served on its own whose prune finds at most
`maxEntries` live entries is rejected, with the middleware's message, exactly
when it is not presigned, its method is neither GET nor HEAD, and `sig` last
passed as fresh less than a window before. -/
theorem replayGuard_rejects_iff {ops : List Op} {cache : ReplayCache} {clock : Nat} {presigned : Bool}
    {method : Method} {sig : String}
    (hrun : Run (GuardStep window) GuardState.init ops ⟨cache, clock⟩) (hevict : Op.evict sig ∉ ops)
    (hclock : clock ≤ now) (hcap : (expireEntries window now cache).entries.length ≤ maxEntries) :
    (replayGuard window maxEntries now presigned method sig cache).1 =
        .error (.invalidArgument "Request replay detected") ↔
      presigned = false ∧ method ≠ .get ∧ method ≠ .head ∧
        seenWithin window (lastFresh sig ops) now = true := by
  cases presigned with
  | true => simp [replayGuard]
  | false =>
    obtain ⟨c, hc, hprune⟩ := @pruneReplayCache_run window maxEntries now cache clock hclock
    -- the history, then this request's prune, never evicts `sig`
    have hnoevict : Op.evict sig ∉ ops ++ pruneOps window maxEntries now cache := by
      rw [List.mem_append, not_or]
      exact ⟨hevict, evict_not_mem_pruneOps sig hcap⟩
    have hinv := entryInv_run (hrun.append hprune) hnoevict entryInv_init
    have hverdict := check_verdict_of_inv hinv (@GuardStep.check window _ sig method now hc)
    rw [List.foldl_append, foldl_freshStep_pruneOps] at hverdict
    rw [replayGuard_fst, hverdict, ← lastFresh]
    split
    · rename_i hreject
      obtain ⟨hseen, hget, hhead⟩ := (replayDecision_eq_reject _ _).mp hreject
      exact iff_of_true rfl ⟨rfl, hget, hhead, hseen⟩
    · rename_i hreject
      simp only [reduceCtorEq, false_iff]
      rintro ⟨-, hget, hhead, hseen⟩
      exact hreject ((replayDecision_eq_reject _ _).mpr ⟨hseen, hget, hhead⟩)

/-- A PUT replayed inside the window after its fresh pass at instant 1. -/
theorem replayGuard_rejects_iff_replayed_put :
    Run (GuardStep 2) GuardState.init [.check "sig" .put 1 .fresh] ⟨(∅ : ReplayCache).insert "sig" 1, 1⟩ ∧
      Op.evict "sig" ∉ [Op.check "sig" .put 1 .fresh] ∧ 1 ≤ 2 ∧
      (expireEntries 2 2 ((∅ : ReplayCache).insert "sig" 1)).entries.length ≤ 10 ∧
      ((replayGuard 2 10 2 false .put "sig" ((∅ : ReplayCache).insert "sig" 1)).1 =
          .error (.invalidArgument "Request replay detected") ↔
        false = false ∧ Method.put ≠ .get ∧ Method.put ≠ .head ∧
          seenWithin 2 (lastFresh "sig" [.check "sig" .put 1 .fresh]) 2 = true) :=
  have hrun : Run (GuardStep 2) GuardState.init [.check "sig" .put 1 .fresh]
      ⟨(∅ : ReplayCache).insert "sig" 1, 1⟩ := .cons (GuardStep.check (Nat.zero_le 1)) (.nil _)
  ⟨hrun, by simp, by decide, by decide, replayGuard_rejects_iff hrun (by simp) (by decide) (by decide)⟩

end Request

end DeltaGlider.Auth
