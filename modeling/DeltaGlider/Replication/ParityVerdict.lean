import DeltaGlider.Replication.ParityDiff

/-!
# The parity verdict

The end of `parity_audit` and `derive_verdict` in `src/replication/parity.rs`.
A key whose HEAD kept failing on either side is dropped from both listings,
so that it shows neither as missing nor as an orphan; the two listings are
diffed (`Replication.ParityDiff`); and the counts are folded into one verdict
with the sentence the UI shows as its headline.

The verdict says exactly what the audit saw:

    parityOutcome_atRisk_iff   AtRisk exactly when some key not dropped is on one side only,
                               or is on both and compare_pair tells its versions apart
    parityOutcome_safe_iff     Safe exactly when neither listing hit the cap, no key was
                               dropped, both sides hold the same keys, and each pair is
                               proven equal by a checksum

so `Incomplete` is left for a scan that found no difference but could not
prove equality either.
-/

namespace DeltaGlider.Replication

open MergeWalk

/-! ## Algorithm -/

/-- `Verdict`. -/
inductive Verdict where
  | safe
  | incomplete
  | atRisk
  deriving DecidableEq, Repr

/-- `derive_verdict`: the one conclusion and its plain-language sentence,
from the counts. -/
def deriveVerdict (inSync truncated capHit : Bool) (unresolved missingOnDest orphanOnDest
    checksumMismatch unverifiable matched : Nat) : Verdict × String :=
  let realDiffs := missingOnDest + orphanOnDest + checksumMismatch
  if realDiffs > 0 then
    let parts :=
      (if missingOnDest > 0 then [toString missingOnDest ++ " missing on destination"] else []) ++
      (if orphanOnDest > 0 then [toString orphanOnDest ++ " extra on destination"] else []) ++
      (if checksumMismatch > 0 then [toString checksumMismatch ++ " with differing bytes"] else [])
    (.atRisk, "The copy has drifted: " ++ ", ".intercalate parts ++ ".")
  else if inSync then
    (.safe, "All " ++ toString matched ++ " objects are present and verified identical.")
  else
    -- the cause of a partial scan is named first: raising the cap and
    -- re-running the audit are opposite remedies
    let why :=
      if capHit then "the scan hit the object cap, so completeness isn't proven"
      else if unresolved > 0 then
        toString unresolved ++ " object(s) couldn't be read (transient backend errors) — " ++
          "re-running the audit usually clears this"
      else if truncated then "the scan was partial, so completeness isn't proven"
      else if unverifiable > 0 then "some objects could only be matched by size, not by checksum"
      else "equality couldn't be fully proven"
    (.incomplete, "Nothing is missing or different, but " ++ why ++ ".")

/-- What the scan of one side leaves for the diff: its objects keyed in the
destination namespace, whether its listing hit the object cap, and the keys
`resolve_logical` could not HEAD. -/
structure SideScan where
  objects : OrdMap String ObjState
  truncated : Bool
  unresolvedKeys : List String

/-- The loop that removes every key left unresolved on either side from
one side's map. -/
def dropUnresolved (src dst side : SideScan) : OrdMap String ObjState :=
  (src.unresolvedKeys ++ dst.unresolvedKeys).foldl OrdMap.erase side.objects

/-- The diff of the two maps once the unresolved keys are dropped. -/
def auditDiff (src dst : SideScan) : ParityDiff :=
  diffParity (dropUnresolved src dst src) (dropUnresolved src dst dst)

/-- `ParityOutcome`, with the fields computed from the scans.  The samples
are the diff's, before `annotate_findings` adds their remediations. -/
structure ParityOutcome where
  sourceObjects : Nat
  destObjects : Nat
  matched : Nat
  missingOnDest : Nat
  orphanOnDest : Nat
  checksumMismatch : Nat
  unverifiable : Nat
  truncated : Bool
  capHit : Bool
  unresolved : Nat
  inSync : Bool
  missingSamples : List ParityFinding
  orphanSamples : List ParityFinding
  mismatchSamples : List ParityFinding
  verdict : Verdict
  verdictSummary : String
  deriving Repr

/-- Phases 4 and 5 of `parity_audit`, from the two scans. -/
def parityOutcome (src dst : SideScan) : ParityOutcome :=
  let unresolved := src.unresolvedKeys.length + dst.unresolvedKeys.length
  -- the cap and the unresolved keys stay apart: their remedies differ
  let capHit := src.truncated || dst.truncated
  let truncated := capHit || decide (unresolved > 0)
  let diff := auditDiff src dst
  let inSync := !truncated && diff.missingOnDest == 0 && diff.orphanOnDest == 0 &&
    diff.checksumMismatch == 0 && diff.unverifiable == 0
  let verdict := deriveVerdict inSync truncated capHit unresolved diff.missingOnDest
    diff.orphanOnDest diff.checksumMismatch diff.unverifiable diff.matched
  { sourceObjects := (dropUnresolved src dst src).entries.length
    destObjects := (dropUnresolved src dst dst).entries.length
    matched := diff.matched
    missingOnDest := diff.missingOnDest
    orphanOnDest := diff.orphanOnDest
    checksumMismatch := diff.checksumMismatch
    unverifiable := diff.unverifiable
    truncated, capHit, unresolved, inSync
    missingSamples := diff.missingSamples
    orphanSamples := diff.orphanSamples
    mismatchSamples := diff.mismatchSamples
    verdict := verdict.1
    verdictSummary := verdict.2 }

example : deriveVerdict false false false 0 2 0 1 0 5 =
    (.atRisk, "The copy has drifted: 2 missing on destination, 1 with differing bytes.") := by
  decide

/-! ## Lemmas -/

section Derive

variable {inSync truncated capHit : Bool} {unresolved missing orphan mismatch unverifiable matched : Nat}

/-- The verdict of `derive_verdict`, its sentence set aside. -/
theorem deriveVerdict_fst :
    (deriveVerdict inSync truncated capHit unresolved missing orphan mismatch unverifiable matched).1 =
      if 0 < missing + orphan + mismatch then .atRisk else if inSync then .safe else .incomplete := by
  by_cases hdiff : 0 < missing + orphan + mismatch
  · simp [deriveVerdict, hdiff]
  · by_cases hsync : inSync = true <;> simp [deriveVerdict, hdiff, hsync]

theorem deriveVerdict_atRisk_iff :
    (deriveVerdict inSync truncated capHit unresolved missing orphan mismatch unverifiable
        matched).1 = .atRisk ↔ 0 < missing ∨ 0 < orphan ∨ 0 < mismatch := by
  rw [deriveVerdict_fst]
  split_ifs with hdiff <;> simp <;> omega

theorem deriveVerdict_safe_iff :
    (deriveVerdict inSync truncated capHit unresolved missing orphan mismatch unverifiable
        matched).1 = .safe ↔ (missing = 0 ∧ orphan = 0 ∧ mismatch = 0) ∧ inSync = true := by
  rw [deriveVerdict_fst]
  split_ifs with hdiff hsync
  · simp only [false_iff]
    omega
  · simp only [hsync, and_true, true_iff]
    omega
  · simp [hsync]

end Derive

section Counts

variable (source dest : OrdMap String ObjState)

theorem missingOnDest_pos_iff :
    0 < (diffParity source dest).missingOnDest ↔ ∃ k ∈ source.keys, k ∉ dest.keys := by
  simp only [diffParity_eq_tally, tally, filterMap_leftOf_visits source.sorted dest.sorted]
  rw [List.length_pos_iff]
  exact leftOnly_ne_nil_iff

theorem orphanOnDest_pos_iff :
    0 < (diffParity source dest).orphanOnDest ↔ ∃ k ∈ dest.keys, k ∉ source.keys := by
  simp only [diffParity_eq_tally, tally, filterMap_rightOf_visits source.sorted dest.sorted]
  rw [List.length_pos_iff, rightOnly_eq_leftOnly]
  exact leftOnly_ne_nil_iff

theorem checksumMismatch_pos_iff :
    0 < (diffParity source dest).checksumMismatch ↔
      ∃ k sv dv, source.entries.lookup k = some sv ∧ dest.entries.lookup k = some dv ∧
        (comparePair sv dv).1 = .checksumMismatch := by
  simp only [diffParity_eq_tally, tally, filterMap_bothOf_visits source.sorted dest.sorted]
  rw [List.length_pos_iff, filter_common_ne_nil_iff source.nodup_keys]
  refine exists_congr fun k => exists_congr fun sv => exists_congr fun dv =>
    and_congr_right fun _ => and_congr_right fun _ => ?_
  exact decide_eq_true_iff

theorem unverifiable_pos_iff :
    0 < (diffParity source dest).unverifiable ↔
      ∃ k sv dv, source.entries.lookup k = some sv ∧ dest.entries.lookup k = some dv ∧
        (comparePair sv dv).2.2.1 = true := by
  simp only [diffParity_eq_tally, tally, filterMap_bothOf_visits source.sorted dest.sorted]
  rw [List.length_pos_iff, filter_common_ne_nil_iff source.nodup_keys]

/-- A pair counted neither as a mismatch nor as unverifiable is a match
proven by a checksum. -/
theorem verified_match_iff (sv dv : ObjState) :
    (comparePair sv dv).1 = .match ∧ (comparePair sv dv).2.2.1 = false ↔
      (comparePair sv dv).1 ≠ .checksumMismatch ∧ (comparePair sv dv).2.2.1 = false := by
  rcases comparePair_cases sv dv with ⟨v, det, h⟩ | ⟨det, h⟩ | ⟨v, det, h⟩ <;> simp [h]

end Counts

section Outcome

variable (src dst : SideScan)

theorem verdict_parityOutcome :
    (parityOutcome src dst).verdict =
      (deriveVerdict (parityOutcome src dst).inSync (parityOutcome src dst).truncated
        (parityOutcome src dst).capHit (parityOutcome src dst).unresolved
        (auditDiff src dst).missingOnDest (auditDiff src dst).orphanOnDest
        (auditDiff src dst).checksumMismatch (auditDiff src dst).unverifiable
        (auditDiff src dst).matched).1 := rfl

theorem inSync_parityOutcome_iff :
    (parityOutcome src dst).inSync = true ↔
      (parityOutcome src dst).truncated = false ∧ (auditDiff src dst).missingOnDest = 0 ∧
        (auditDiff src dst).orphanOnDest = 0 ∧ (auditDiff src dst).checksumMismatch = 0 ∧
        (auditDiff src dst).unverifiable = 0 := by
  show (!(parityOutcome src dst).truncated && _ == 0 && _ == 0 && _ == 0 && _ == 0) = true ↔ _
  simp [and_assoc]

theorem truncated_parityOutcome_eq_false_iff :
    (parityOutcome src dst).truncated = false ↔
      src.truncated = false ∧ dst.truncated = false ∧ src.unresolvedKeys = [] ∧
        dst.unresolvedKeys = [] := by
  show (src.truncated || dst.truncated || decide (_ > 0)) = false ↔ _
  simp [and_assoc]

/-- A Safe verdict and `in_sync` never disagree. -/
theorem verdict_eq_safe_iff_inSync :
    (parityOutcome src dst).verdict = .safe ↔ (parityOutcome src dst).inSync = true := by
  rw [verdict_parityOutcome, deriveVerdict_safe_iff]
  constructor
  · exact fun h => h.2
  · intro hsync
    obtain ⟨-, hm, ho, hc, -⟩ := (inSync_parityOutcome_iff src dst).mp hsync
    exact ⟨⟨hm, ho, hc⟩, hsync⟩

theorem mem_keys_dropUnresolved {side : SideScan} {k : String} :
    k ∈ (dropUnresolved src dst side).keys ↔
      k ∈ side.objects.keys ∧ k ∉ src.unresolvedKeys ++ dst.unresolvedKeys :=
  OrdMap.mem_keys_foldl_erase

theorem lookup_dropUnresolved_eq_some_iff {side : SideScan} {k : String} {v : ObjState} :
    (dropUnresolved src dst side).entries.lookup k = some v ↔
      k ∉ src.unresolvedKeys ++ dst.unresolvedKeys ∧ side.objects.entries.lookup k = some v :=
  OrdMap.lookup_foldl_erase_eq_some_iff

/-- With no key unresolved, the diff compares the scans' own maps. -/
theorem dropUnresolved_of_nil (hsrc : src.unresolvedKeys = []) (hdst : dst.unresolvedKeys = [])
    (side : SideScan) : dropUnresolved src dst side = side.objects := by
  rw [dropUnresolved, hsrc, hdst]
  rfl

/-- The audit's verdict is AtRisk exactly when a key that was resolved on
both sides is on one side only, or is on both with versions `compare_pair`
tells apart. -/
theorem parityOutcome_atRisk_iff :
    (parityOutcome src dst).verdict = .atRisk ↔
      (∃ k ∈ src.objects.keys, k ∉ dst.objects.keys ∧ k ∉ src.unresolvedKeys ++ dst.unresolvedKeys) ∨
      (∃ k ∈ dst.objects.keys, k ∉ src.objects.keys ∧ k ∉ src.unresolvedKeys ++ dst.unresolvedKeys) ∨
      ∃ k sv dv, k ∉ src.unresolvedKeys ++ dst.unresolvedKeys ∧
        src.objects.entries.lookup k = some sv ∧ dst.objects.entries.lookup k = some dv ∧
        (comparePair sv dv).1 = .checksumMismatch := by
  rw [verdict_parityOutcome, deriveVerdict_atRisk_iff, auditDiff, missingOnDest_pos_iff,
    orphanOnDest_pos_iff, checksumMismatch_pos_iff]
  simp only [mem_keys_dropUnresolved, lookup_dropUnresolved_eq_some_iff]
  -- each count is positive for the same key as its disjunct
  refine or_congr ?_ (or_congr ?_ ?_)
  · exact exists_congr fun k => by tauto
  · exact exists_congr fun k => by tauto
  · exact exists_congr fun k => exists_congr fun sv => exists_congr fun dv => by tauto

/-- The audit's verdict is Safe exactly when the scan was whole (no listing
hit the cap, every HEAD resolved), both sides hold the same keys, and every
pair is a `Match` proven by a checksum. -/
theorem parityOutcome_safe_iff :
    (parityOutcome src dst).verdict = .safe ↔
      (src.truncated = false ∧ dst.truncated = false ∧ src.unresolvedKeys = [] ∧
          dst.unresolvedKeys = []) ∧
        src.objects.keySet = dst.objects.keySet ∧
        ∀ k sv dv, src.objects.entries.lookup k = some sv → dst.objects.entries.lookup k = some dv →
          (comparePair sv dv).1 = .match ∧ (comparePair sv dv).2.2.1 = false := by
  rw [verdict_eq_safe_iff_inSync, inSync_parityOutcome_iff, truncated_parityOutcome_eq_false_iff]
  refine and_congr_right fun ⟨_, _, hsrc, hdst⟩ => ?_
  -- nothing was dropped, so the counts are over the scans' own maps
  rw [auditDiff, dropUnresolved_of_nil src dst hsrc hdst, dropUnresolved_of_nil src dst hsrc hdst,
    OrdMap.keySet_eq_iff]
  have hzero : ∀ n : Nat, n = 0 ↔ ¬ 0 < n := fun n => by omega
  rw [hzero, hzero, hzero, hzero, missingOnDest_pos_iff, orphanOnDest_pos_iff,
    checksumMismatch_pos_iff, unverifiable_pos_iff]
  simp only [not_exists, not_and, not_not, Bool.not_eq_true, and_assoc]
  refine and_congr_right fun _ => and_congr_right fun _ => ?_
  -- no pair differs and none is unverifiable: each is a verified match
  constructor
  · rintro ⟨hmismatch, hunverifiable⟩ k sv dv hs hd
    exact (verified_match_iff sv dv).mpr ⟨hmismatch k sv dv hs hd, hunverifiable k sv dv hs hd⟩
  · intro hverified
    exact ⟨fun k sv dv hs hd => ((verified_match_iff sv dv).mp (hverified k sv dv hs hd)).1,
      fun k sv dv hs hd => (hverified k sv dv hs hd).2⟩

end Outcome

end DeltaGlider.Replication
