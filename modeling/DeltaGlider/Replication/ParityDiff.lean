import DeltaGlider.Replication.Parity
import DeltaGlider.Lib.MergeWalk

/-!
# The parity diff

`diff_parity` and `push_capped` of `src/replication/parity.rs`: a merge walk
over the source and destination listings (`BTreeMap`s keyed in the
destination namespace) that classifies every key once, as a pair
`compare_pair` judges, as missing on the destination, or as an orphan there,
and keeps up to `SAMPLE_CAP` findings of each kind as samples.

The loop is the walk of `Lib/MergeWalk.lean` followed by one update per visit
(`diffLoop_eq_foldl`).  Each update keeps the diff equal to the `tally` of the
visits made so far (`recordVisit_tally`), so the whole loop leaves the tally
of the walk (`diffParity_eq_tally`), whose visits the walk's lemmas name:

    diffParity_exact   the counts are the sizes of the key sets' differences and
                       intersection, split by compare_pair's verdict; each sample
                       vector is the first SAMPLE_CAP findings of its kind in key order
-/

namespace DeltaGlider.Replication

open MergeWalk

/-! ## Algorithm -/

/-- `SAMPLE_CAP`. -/
def sampleCap : Nat := 100

/-- `ParityFinding`; `remediation` is left out, as `diff_parity` leaves it
`None`. -/
structure ParityFinding where
  key : String
  kind : FindingKind
  verifier : Option Verifier
  unverifiable : Bool
  detail : String
  deriving DecidableEq, Repr

/-- `ParityDiff`. -/
structure ParityDiff where
  matched : Nat
  checksumMismatch : Nat
  missingOnDest : Nat
  orphanOnDest : Nat
  unverifiable : Nat
  missingSamples : List ParityFinding
  orphanSamples : List ParityFinding
  mismatchSamples : List ParityFinding
  deriving DecidableEq, Repr

/-- `ParityDiff::default()`. -/
def ParityDiff.empty : ParityDiff := ⟨0, 0, 0, 0, 0, [], [], []⟩

/-- `push_capped`. -/
def pushCapped (v : List ParityFinding) (f : ParityFinding) : List ParityFinding :=
  if v.length < sampleCap then v ++ [f] else v

/-- The finding of a key on the source alone. -/
def missingFinding (key : String) : ParityFinding :=
  ⟨key, .missingOnDest, none, false, "present on source, absent on destination"⟩

/-- The finding of a key on the destination alone. -/
def orphanFinding (key : String) : ParityFinding :=
  ⟨key, .orphanOnDest, none, false, "present on destination, absent on source"⟩

/-- The finding `compare_pair` makes of a key on both sides. -/
def pairFinding (key : String) (sv dv : ObjState) : ParityFinding :=
  ⟨key, (comparePair sv dv).1, (comparePair sv dv).2.1, (comparePair sv dv).2.2.1,
    (comparePair sv dv).2.2.2⟩

/-- The `Equal` arm: a `Match` is counted, and counted unverifiable when it
is; a `ChecksumMismatch` is counted and sampled. -/
def recordPair (out : ParityDiff) (key : String) (sv dv : ObjState) : ParityDiff :=
  match comparePair sv dv with
  | (.match, _, unverifiable, _) =>
    { out with matched := out.matched + 1,
               unverifiable := if unverifiable then out.unverifiable + 1 else out.unverifiable }
  | (.checksumMismatch, _, _, _) =>
    { out with checksumMismatch := out.checksumMismatch + 1,
               mismatchSamples := pushCapped out.mismatchSamples (pairFinding key sv dv) }
  | _ => out

/-- A key on the source alone (the `Less` arm, and the source's tail). -/
def recordMissing (out : ParityDiff) (key : String) : ParityDiff :=
  { out with missingOnDest := out.missingOnDest + 1,
             missingSamples := pushCapped out.missingSamples (missingFinding key) }

/-- A key on the destination alone (the `Greater` arm, and the
destination's tail). -/
def recordOrphan (out : ParityDiff) (key : String) : ParityDiff :=
  { out with orphanOnDest := out.orphanOnDest + 1,
             orphanSamples := pushCapped out.orphanSamples (orphanFinding key) }

/-- The loop of `diff_parity` over the two peekable iterators. -/
def diffLoop : List (String × ObjState) → List (String × ObjState) → ParityDiff → ParityDiff
  | (sk, sv) :: s, (dk, dv) :: d, out =>
    match compare sk dk with
    | .eq => diffLoop s d (recordPair out sk sv dv)
    | .lt => diffLoop s ((dk, dv) :: d) (recordMissing out sk)
    | .gt => diffLoop ((sk, sv) :: s) d (recordOrphan out dk)
  | (sk, _) :: s, [], out => diffLoop s [] (recordMissing out sk)
  | [], (dk, _) :: d, out => diffLoop [] d (recordOrphan out dk)
  | [], [], out => out
termination_by s d => s.length + d.length

/-- `diff_parity`. -/
def diffParity (source dest : OrdMap String ObjState) : ParityDiff :=
  diffLoop source.entries dest.entries .empty

/-- One visit of the walk, as the loop records it. -/
def recordVisit (out : ParityDiff) : Visit String ObjState ObjState → ParityDiff
  | .left k _ => recordMissing out k
  | .right k _ => recordOrphan out k
  | .both k sv dv => recordPair out k sv dv

/-- A pair `compare_pair` calls a `Match`. -/
def IsMatch (p : String × ObjState × ObjState) : Prop := (comparePair p.2.1 p.2.2).1 = .match

/-- A pair `compare_pair` calls a `ChecksumMismatch`. -/
def IsMismatch (p : String × ObjState × ObjState) : Prop :=
  (comparePair p.2.1 p.2.2).1 = .checksumMismatch

instance : DecidablePred IsMatch := fun _ => inferInstanceAs (Decidable (_ = _))

instance : DecidablePred IsMismatch := fun _ => inferInstanceAs (Decidable (_ = _))

/-- The diff that a list of visits should leave: each count the number of
visits of its kind, each sample the first `SAMPLE_CAP` findings of its kind. -/
def tally (vs : List (Visit String ObjState ObjState)) : ParityDiff where
  matched := ((vs.filterMap Visit.bothOf).filter IsMatch).length
  checksumMismatch := ((vs.filterMap Visit.bothOf).filter IsMismatch).length
  missingOnDest := (vs.filterMap Visit.leftOf).length
  orphanOnDest := (vs.filterMap Visit.rightOf).length
  unverifiable := ((vs.filterMap Visit.bothOf).filter fun p => (comparePair p.2.1 p.2.2).2.2.1).length
  missingSamples := ((vs.filterMap Visit.leftOf).map fun e => missingFinding e.1).take sampleCap
  orphanSamples := ((vs.filterMap Visit.rightOf).map fun e => orphanFinding e.1).take sampleCap
  mismatchSamples :=
    (((vs.filterMap Visit.bothOf).filter IsMismatch).map fun p => pairFinding p.1 p.2.1 p.2.2).take
      sampleCap

/-! ## Lemmas -/

/-- What `compare_pair` answers: a verified `Match`, an unverifiable one,
or a verified `ChecksumMismatch`; never a missing or an orphan. -/
theorem comparePair_cases (s d : ObjState) :
    (∃ v det, comparePair s d = (.match, v, false, det)) ∨
      (∃ det, comparePair s d = (.match, some .sizeOnly, true, det)) ∨
      ∃ v det, comparePair s d = (.checksumMismatch, v, false, det) := by
  unfold comparePair
  split
  · exact .inr (.inr ⟨_, _, rfl⟩)
  split
  · split
    · exact .inl ⟨_, _, rfl⟩
    · exact .inr (.inr ⟨_, _, rfl⟩)
  split
  · split
    · exact .inl ⟨_, _, rfl⟩
    · exact .inr (.inr ⟨_, _, rfl⟩)
  · exact .inr (.inl ⟨_, rfl⟩)

theorem pushCapped_take (l : List ParityFinding) (f : ParityFinding) :
    pushCapped (l.take sampleCap) f = (l ++ [f]).take sampleCap :=
  capped_take_append l f sampleCap

@[simp] theorem tally_nil : tally [] = .empty := rfl

/-- The loop is the walk, each visit recorded in turn. -/
theorem diffLoop_eq_foldl (s d : List (String × ObjState)) (out : ParityDiff) :
    diffLoop s d out = (visits s d).foldl recordVisit out := by
  fun_induction diffLoop s d out with
  | case1 sk sv s dk dv d out hcmp ih =>
    obtain rfl := compare_eq_iff_eq.mp hcmp
    rw [visits_cons_of_eq, List.foldl_cons, ih]
    rfl
  | case2 sk sv s dk dv d out hcmp ih =>
    rw [visits_cons_of_lt (compare_lt_iff_lt.mp hcmp), List.foldl_cons, ih]
    rfl
  | case3 sk sv s dk dv d out hcmp ih =>
    rw [visits_cons_of_gt (compare_gt_iff_gt.mp hcmp), List.foldl_cons, ih]
    rfl
  | case4 sk sv s out ih =>
    rw [visits_cons_nil, List.foldl_cons, ih]
    rfl
  | case5 dk dv d out ih =>
    rw [visits_nil_cons, List.foldl_cons, ih]
    rfl
  | case6 out => rw [visits_nil, List.foldl_nil]

/-- Recording one more visit keeps the diff the tally of the visits so far. -/
theorem recordVisit_tally (vs : List (Visit String ObjState ObjState))
    (v : Visit String ObjState ObjState) : recordVisit (tally vs) v = tally (vs ++ [v]) := by
  cases v with
  | left k a => simp [recordVisit, recordMissing, tally, pushCapped_take]
  | right k b => simp [recordVisit, recordOrphan, tally, pushCapped_take]
  | both k sv dv =>
    -- the three answers of `compare_pair`
    rcases comparePair_cases sv dv with ⟨v, det, h⟩ | ⟨det, h⟩ | ⟨v, det, h⟩
    · simp [recordVisit, recordPair, tally, IsMatch, IsMismatch, h]
    · simp [recordVisit, recordPair, tally, IsMatch, IsMismatch, h]
    · simp [recordVisit, recordPair, tally, IsMatch, IsMismatch, h, pushCapped_take]

theorem foldl_recordVisit (vs us : List (Visit String ObjState ObjState)) :
    vs.foldl recordVisit (tally us) = tally (us ++ vs) := by
  induction vs generalizing us with
  | nil => rw [List.foldl_nil, List.append_nil]
  | cons v vs ih => rw [List.foldl_cons, recordVisit_tally, ih, List.append_assoc, List.singleton_append]

theorem diffParity_eq_tally (source dest : OrdMap String ObjState) :
    diffParity source dest = tally (visits source.entries dest.entries) := by
  rw [diffParity, diffLoop_eq_foldl, ← tally_nil, foldl_recordVisit, List.nil_append]

/-- Every pair `compare_pair` judges is a `Match` or a `ChecksumMismatch`, so
the two counts split the common keys. -/
theorem length_filter_isMatch_add (ps : List (String × ObjState × ObjState)) :
    (ps.filter IsMatch).length + (ps.filter IsMismatch).length = ps.length := by
  have hnot : (ps.filter IsMismatch) = ps.filter fun p => !decide (IsMatch p) := by
    refine List.filter_congr fun p _ => ?_
    rcases comparePair_cases p.2.1 p.2.2 with ⟨v, det, h⟩ | ⟨det, h⟩ | ⟨v, det, h⟩ <;>
      simp [IsMatch, IsMismatch, h]
  rw [hnot, ← List.length_eq_length_filter_add]

/-- `diff_parity` classifies every key once: the keys on one side only are
counted and sampled as missing or orphaned, the common keys by
`compare_pair`'s verdict, and each sample vector holds the first
`SAMPLE_CAP` findings of its kind in key order. -/
theorem diffParity_exact (source dest : OrdMap String ObjState) :
    (diffParity source dest).missingOnDest = (source.keySet \ dest.keySet).card ∧
    (diffParity source dest).orphanOnDest = (dest.keySet \ source.keySet).card ∧
    (diffParity source dest).matched + (diffParity source dest).checksumMismatch =
      (source.keySet ∩ dest.keySet).card ∧
    (diffParity source dest).matched = ((common source.entries dest.entries).filter IsMatch).length ∧
    (diffParity source dest).checksumMismatch =
      ((common source.entries dest.entries).filter IsMismatch).length ∧
    (diffParity source dest).unverifiable =
      ((common source.entries dest.entries).filter fun p => (comparePair p.2.1 p.2.2).2.2.1).length ∧
    (diffParity source dest).missingSamples =
      ((leftOnly source.entries dest.entries).map fun e => missingFinding e.1).take sampleCap ∧
    (diffParity source dest).orphanSamples =
      ((rightOnly source.entries dest.entries).map fun e => orphanFinding e.1).take sampleCap ∧
    (diffParity source dest).mismatchSamples =
      (((common source.entries dest.entries).filter IsMismatch).map
        fun p => pairFinding p.1 p.2.1 p.2.2).take sampleCap := by
  -- the loop leaves the tally of the walk, whose visits the walk's lemmas name
  have hleft := filterMap_leftOf_visits source.sorted dest.sorted
  have hright := filterMap_rightOf_visits source.sorted dest.sorted
  have hboth := filterMap_bothOf_visits source.sorted dest.sorted
  simp only [diffParity_eq_tally, tally, hleft, hright, hboth]
  refine ⟨length_leftOnly source.nodup_keys, ?_, ?_, trivial, trivial, trivial, trivial, trivial, trivial⟩
  · rw [rightOnly_eq_leftOnly]
    exact length_leftOnly dest.nodup_keys
  · rw [length_filter_isMatch_add]
    exact length_common source.nodup_keys

end DeltaGlider.Replication
