import Mathlib.Data.String.Basic
import Mathlib.Data.List.Sort

/-!
# The retain-newest planner

`Candidate`, `QualifySpec::admits` and `plan_retain_newest` of
`src/lifecycle/planner.rs`.  Times are `DateTime<Utc>` as nanoseconds since
the epoch and durations `TimeDelta` in nanoseconds; `now - d` is chrono's
checked subtraction, which panics outside `MIN_UTC ..= MAX_UTC`, and a plan
is `none` where the code panics.

The plan partitions off the candidates that fail `qualify`, ranks the rest
newest first (ties by key, descending), keeps the first `count`, and of the
others protects those younger than the protect cutoff and deletes the rest.
When the cutoffs stay in chrono's range and the keys are distinct:

    the four lists are a permutation of the input; the ignored are exactly
    those failing `qualify`; `keep` is the first `min count #eligible` in rank
    order; each deleted or protected candidate has `count` eligible ones ranked
    above it; nothing younger than the cutoff is deleted     (retainSpec_planRetainNewest)
    the plan does not depend on the input order                (planRetainNewest_perm)
    re-planning without the deleted deletes nothing, keeps keep (planRetainNewest_replan)
    all three together                                          (retain_newest_plan_safe)

Outside chrono's range the cutoff subtraction panics, even for an empty
candidate list (`retain_newest_cutoff_overflow`).
-/

namespace DeltaGlider.Lifecycle

/-! ## `DateTime<Utc>` arithmetic -/

/-- `DateTime::<Utc>::MIN_UTC` (January 1, 262144 BCE), in nanoseconds since
the epoch. -/
def minUtc : Int := -8334601315200000000000

/-- `DateTime::<Utc>::MAX_UTC` (the last nanosecond of December 31,
262142 CE). -/
def maxUtc : Int := 8210266876799999999999

/-- `DateTime<Utc> - TimeDelta`: `none` where chrono panics
("`DateTime - TimeDelta` overflowed"). -/
def dateTimeSub (t d : Int) : Option Int :=
  if minUtc ≤ t - d ∧ t - d ≤ maxUtc then some (t - d) else none

/-! ## Algorithm -/

/-- `Candidate`. -/
structure Candidate where
  key : String
  createdAt : Int
  size : Nat
  deriving DecidableEq, Repr

/-- `QualifySpec`. -/
structure QualifySpec where
  minSizeBytes : Option Nat
  minAge : Option Int
  deriving DecidableEq, Repr

/-- `IneligibleReason`. -/
inductive IneligibleReason where
  | belowMinSize
  | belowMinAge
  deriving DecidableEq, Repr

/-- `RetainPlan`; `protectedCandidates` is its `protected`. -/
structure RetainPlan where
  keep : List Candidate
  ignored : List (Candidate × IneligibleReason)
  delete : List Candidate
  protectedCandidates : List Candidate
  deriving DecidableEq, Repr

/-- The age test of `QualifySpec::admits`. -/
def QualifySpec.ageCheck (q : QualifySpec) (c : Candidate) (now : Int) : Option (Option IneligibleReason) :=
  match q.minAge with
  | some minAge =>
    (dateTimeSub now minAge).map fun cutoff => if cutoff < c.createdAt then some .belowMinAge else none
  | none => some none

/-- `QualifySpec::admits`: why the candidate is not counted, if it is not. -/
def QualifySpec.admits (q : QualifySpec) (c : Candidate) (now : Int) : Option (Option IneligibleReason) :=
  match q.minSizeBytes with
  | some min => if c.size < min then some (some .belowMinSize) else q.ageCheck c now
  | none => q.ageCheck c now

/-- Step 1, the eligibility partition: the ignored with their reasons and
the eligible, both in input order. -/
def partitionEligible (q : QualifySpec) (now : Int) :
    List Candidate → Option (List (Candidate × IneligibleReason) × List Candidate)
  | [] => some ([], [])
  | c :: rest =>
    (q.admits c now).bind fun r =>
      (partitionEligible q now rest).map fun parts =>
        match r with
        | some reason => ((c, reason) :: parts.1, parts.2)
        | none => (parts.1, c :: parts.2)

/-- The comparator of step 2: `a` goes before `b` when it is newer, or as
new with a key no smaller. -/
def rankLe (a b : Candidate) : Bool :=
  decide (b.createdAt < a.createdAt) || (decide (b.createdAt = a.createdAt) && decide (b.key ≤ a.key))

/-- Steps 3 and 4 over the ranked candidates: the first `keepN` are kept; of
the rest, those younger than the cutoff are protected, the others deleted.
Answers (keep, protected, delete). -/
def distribute (keepN : Nat) (protectCutoff : Option Int) (ranked : List Candidate) :
    List Candidate × List Candidate × List Candidate :=
  (ranked.take keepN, (ranked.drop keepN).filter (fun c => protectCutoff.any (· < c.createdAt)),
    (ranked.drop keepN).filter (fun c => !protectCutoff.any (· < c.createdAt)))

/-- `plan_retain_newest`. -/
def planRetainNewest (candidates : List Candidate) (count : Nat) (qualify : QualifySpec)
    (protectYoungerThan : Option Int) (now : Int) : Option RetainPlan :=
  (partitionEligible qualify now candidates).bind fun parts =>
    let ranked := parts.2.mergeSort rankLe
    let protectCutoff : Option (Option Int) :=
      match protectYoungerThan with
      | some d => (dateTimeSub now d).map some
      | none => some none
    protectCutoff.map fun cutoff =>
      let split := distribute count cutoff ranked
      ⟨split.1, parts.1, split.2.2, split.2.1⟩

/-- The protect cutoff at `now` minus `protect_younger_than` is chrono's
`MIN_UTC`, one nanosecond short: the subtraction panics, even with no
candidate; so does the age cutoff of `min_age` for a candidate that passes
the size test. -/
theorem retain_newest_cutoff_overflow :
    planRetainNewest [] 1 ⟨none, none⟩ (some 1) minUtc = none ∧
      planRetainNewest [⟨"a", minUtc, 1⟩] 1 ⟨none, some 1⟩ none minUtc = none := by
  decide

/-! ## Specification -/

/-- A candidate passes `qualify` at `now`. -/
def qualifiesAt (q : QualifySpec) (now : Int) (c : Candidate) : Bool :=
  q.minSizeBytes.all (· ≤ c.size) && q.minAge.all fun d => c.createdAt ≤ now - d

/-- The reason `admits` gives a candidate that does not qualify. -/
def reasonOf (q : QualifySpec) (c : Candidate) : IneligibleReason :=
  if q.minSizeBytes.all (· ≤ c.size) then .belowMinAge else .belowMinSize

/-- `a` ranks strictly above `b`: newer, or as new with a greater key. -/
def RanksAbove (a b : Candidate) : Prop :=
  b.createdAt < a.createdAt ∨ (b.createdAt = a.createdAt ∧ b.key < a.key)

instance : DecidableRel RanksAbove := fun _ _ => inferInstanceAs (Decidable (_ ∨ _))

/-- The cutoffs `now - min_age` and `now - protect_younger_than` lie in
chrono's range (they do for the worker, which passes `Utc::now()` and
durations of at most a few hundred years). -/
def CutoffsInRange (q : QualifySpec) (protect : Option Int) (now : Int) : Prop :=
  (∀ d, q.minAge = some d → minUtc ≤ now - d ∧ now - d ≤ maxUtc) ∧
    (∀ d, protect = some d → minUtc ≤ now - d ∧ now - d ≤ maxUtc)

/-- What a retain plan of `candidates` guarantees. -/
structure RetainSpec (candidates : List Candidate) (count : Nat) (q : QualifySpec) (protect : Option Int)
    (now : Int) (plan : RetainPlan) : Prop where
  /-- Every candidate is in exactly one of the four lists. -/
  partition : (plan.keep ++ plan.ignored.map Prod.fst ++ plan.delete ++ plan.protectedCandidates).Perm candidates
  /-- The ignored are exactly those failing `qualify`. -/
  ignored_iff : ∀ c ∈ candidates, c ∈ plan.ignored.map Prod.fst ↔ qualifiesAt q now c = false
  /-- `keep` is in rank order, ... -/
  keep_sorted : plan.keep.Pairwise RanksAbove
  /-- ... as long as it can be, ... -/
  keep_length : plan.keep.length = min count (candidates.filter (qualifiesAt q now)).length
  /-- ... and ranks above every other eligible candidate. -/
  keep_first : ∀ c ∈ plan.keep, ∀ e ∈ candidates, qualifiesAt q now e = true → e ∉ plan.keep → RanksAbove c e
  /-- A deleted or protected candidate has `count` eligible ones above it. -/
  ranked_below : ∀ c ∈ plan.delete ++ plan.protectedCandidates,
    count ≤ (candidates.filter fun e => qualifiesAt q now e && decide (RanksAbove e c)).length
  /-- Nothing younger than the protect cutoff is deleted. -/
  delete_old : ∀ d, protect = some d → ∀ c ∈ plan.delete, c.createdAt ≤ now - d

/-! ## Lemmas -/

section Ranking

theorem rankLe_iff {a b : Candidate} :
    rankLe a b = true ↔ b.createdAt < a.createdAt ∨ (b.createdAt = a.createdAt ∧ b.key ≤ a.key) := by
  simp [rankLe]

theorem rankLe_trans (a b c : Candidate) (hab : rankLe a b = true) (hbc : rankLe b c = true) :
    rankLe a c = true := by
  rw [rankLe_iff] at hab hbc ⊢
  rcases hab with hab | ⟨hab, hkab⟩ <;> rcases hbc with hbc | ⟨hbc, hkbc⟩
  · exact .inl (by omega)
  · exact .inl (by omega)
  · exact .inl (by omega)
  · exact .inr ⟨by omega, le_trans hkbc hkab⟩

theorem rankLe_total (a b : Candidate) : (rankLe a b || rankLe b a) = true := by
  rw [Bool.or_eq_true, rankLe_iff, rankLe_iff]
  rcases lt_trichotomy a.createdAt b.createdAt with hlt | heq | hgt
  · exact .inr (.inl hlt)
  · rcases le_total a.key b.key with hk | hk
    · exact .inr (.inr ⟨heq, hk⟩)
    · exact .inl (.inr ⟨heq.symm, hk⟩)
  · exact .inl (.inl hgt)

/-- Two candidates that rank each way are equally new with equal keys. -/
theorem rankLe_antisymm {a b : Candidate} (hab : rankLe a b = true) (hba : rankLe b a = true) :
    a.createdAt = b.createdAt ∧ a.key = b.key := by
  rw [rankLe_iff] at hab hba
  rcases hab with hab | ⟨hab, hkab⟩ <;> rcases hba with hba | ⟨hba, hkba⟩
  · omega
  · omega
  · omega
  · exact ⟨hba, le_antisymm hkba hkab⟩

/-- For distinct keys the comparator is the strict rank. -/
theorem ranksAbove_of_rankLe {a b : Candidate} (h : rankLe a b = true) (hkey : a.key ≠ b.key) :
    RanksAbove a b := by
  rw [rankLe_iff] at h
  rcases h with h | ⟨h, hk⟩
  · exact .inl h
  · exact .inr ⟨h, lt_of_le_of_ne hk (Ne.symm hkey)⟩

theorem RanksAbove.irrefl (a : Candidate) : ¬ RanksAbove a a := by
  rintro (h | ⟨-, h⟩)
  · exact lt_irrefl _ h
  · exact lt_irrefl _ h

/-- Sorting by `rankLe` leaves the list in rank order. -/
theorem pairwise_mergeSort_rankLe (l : List Candidate) : (l.mergeSort rankLe).Pairwise fun a b => rankLe a b = true :=
  List.pairwise_mergeSort rankLe_trans rankLe_total l

/-- Of candidates with distinct keys, two lists in rank order that are
permutations of each other are equal. -/
theorem eq_of_perm_of_rankLe {l l' : List Candidate} (hkeys : (l.map (·.key)).Nodup) (hperm : l.Perm l')
    (hl : l.Pairwise fun a b => rankLe a b = true) (hl' : l'.Pairwise fun a b => rankLe a b = true) : l = l' := by
  refine List.Perm.eq_of_pairwise ?_ hl hl' hperm
  intro a b ha hb hab hba
  have hb' : b ∈ l := hperm.symm.subset hb
  exact List.inj_on_of_nodup_map hkeys ha hb' (rankLe_antisymm hab hba).2

/-- A list of candidates with distinct keys in `rankLe` order is in strict
rank order. -/
theorem pairwise_ranksAbove {l : List Candidate} (hkeys : (l.map (·.key)).Nodup)
    (hl : l.Pairwise fun a b => rankLe a b = true) : l.Pairwise RanksAbove := by
  have hne : l.Pairwise fun a b => a.key ≠ b.key := List.pairwise_map.mp hkeys
  exact (hl.and hne).imp fun h => ranksAbove_of_rankLe h.1 h.2

end Ranking

section Partition

variable {q : QualifySpec} {now : Int}

theorem dateTimeSub_of_range {t d : Int} (h : minUtc ≤ t - d ∧ t - d ≤ maxUtc) : dateTimeSub t d = some (t - d) :=
  if_pos h

/-- With the age cutoff in range, `admits` answers exactly the candidates
that fail `qualify`, with their reason. -/
theorem admits_of_range (hage : ∀ d, q.minAge = some d → minUtc ≤ now - d ∧ now - d ≤ maxUtc) (c : Candidate) :
    q.admits c now = some (if qualifiesAt q now c then none else some (reasonOf q c)) := by
  have hcheck : q.ageCheck c now =
      some (if q.minAge.all (fun d => c.createdAt ≤ now - d) then none else some .belowMinAge) := by
    unfold QualifySpec.ageCheck
    cases hm : q.minAge with
    | none => rfl
    | some d =>
      dsimp only
      rw [dateTimeSub_of_range (hage d hm)]
      by_cases hlt : now - d < c.createdAt
      · simp [hlt]
      · simp [hlt, le_of_not_gt hlt]
  unfold QualifySpec.admits qualifiesAt reasonOf
  cases hs : q.minSizeBytes with
  | none => simpa using hcheck
  | some min =>
    by_cases hsize : c.size < min
    · simp [hsize]
    · simp [hsize, hcheck, le_of_not_gt hsize]

/-- The ignored candidates, with their reasons, in input order. -/
def ignoredOf (q : QualifySpec) (now : Int) (candidates : List Candidate) : List (Candidate × IneligibleReason) :=
  candidates.filterMap fun c => if qualifiesAt q now c then none else some (c, reasonOf q c)

theorem map_fst_ignoredOf (candidates : List Candidate) :
    (ignoredOf q now candidates).map Prod.fst = candidates.filter fun c => !qualifiesAt q now c := by
  induction candidates with
  | nil => rfl
  | cons c rest ih =>
    by_cases hc : qualifiesAt q now c = true
    · simp [ignoredOf, hc] at ih ⊢
      exact ih
    · simp [ignoredOf, hc] at ih ⊢
      exact ih

/-- With the age cutoff in range, step 1 splits the input by `qualify`. -/
theorem partitionEligible_of_range (hage : ∀ d, q.minAge = some d → minUtc ≤ now - d ∧ now - d ≤ maxUtc)
    (candidates : List Candidate) :
    partitionEligible q now candidates = some (ignoredOf q now candidates, candidates.filter (qualifiesAt q now)) := by
  induction candidates with
  | nil => rfl
  | cons c rest ih =>
    rw [partitionEligible, admits_of_range hage, Option.bind_some, ih, Option.map_some]
    by_cases hc : qualifiesAt q now c = true
    · simp [hc, ignoredOf]
    · simp [hc, ignoredOf]

end Partition

/-- The eligible candidates in rank order. -/
def rankedEligible (q : QualifySpec) (now : Int) (candidates : List Candidate) : List Candidate :=
  (candidates.filter (qualifiesAt q now)).mergeSort rankLe

/-- The cutoff `protect_younger_than` gives, in range. -/
def protectCutoffOf (protect : Option Int) (now : Int) : Option Int := protect.map (now - ·)

/-- With the cutoffs in range, `plan_retain_newest` answers the distribution
of the ranked eligible candidates, and the ignored ones. -/
theorem planRetainNewest_of_range {candidates : List Candidate} {count : Nat} {q : QualifySpec}
    {protect : Option Int} {now : Int} (hrange : CutoffsInRange q protect now) :
    planRetainNewest candidates count q protect now =
      some ⟨(distribute count (protectCutoffOf protect now) (rankedEligible q now candidates)).1,
        ignoredOf q now candidates,
        (distribute count (protectCutoffOf protect now) (rankedEligible q now candidates)).2.2,
        (distribute count (protectCutoffOf protect now) (rankedEligible q now candidates)).2.1⟩ := by
  unfold planRetainNewest
  rw [partitionEligible_of_range hrange.1, Option.bind_some]
  cases hp : protect with
  | none => rfl
  | some d =>
    dsimp only
    rw [dateTimeSub_of_range (hrange.2 d hp)]
    rfl

section Plan

variable {candidates : List Candidate} {count : Nat} {q : QualifySpec} {protect : Option Int} {now : Int}

theorem rankedEligible_perm : (rankedEligible q now candidates).Perm (candidates.filter (qualifiesAt q now)) :=
  List.mergeSort_perm _ _

theorem nodup_keys_rankedEligible (hkeys : (candidates.map (·.key)).Nodup) :
    ((rankedEligible q now candidates).map (·.key)).Nodup :=
  (rankedEligible_perm.map _).nodup_iff.mpr (hkeys.sublist (List.Sublist.map _ List.filter_sublist))

theorem pairwise_rankedEligible (hkeys : (candidates.map (·.key)).Nodup) :
    (rankedEligible q now candidates).Pairwise RanksAbove :=
  pairwise_ranksAbove (nodup_keys_rankedEligible hkeys) (pairwise_mergeSort_rankLe _)

theorem mem_rankedEligible {c : Candidate} :
    c ∈ rankedEligible q now candidates ↔ c ∈ candidates ∧ qualifiesAt q now c = true := by
  rw [rankedEligible_perm.mem_iff, List.mem_filter]

/-- The ranked eligible candidates after the first `count` all have the
first `count` above them. -/
theorem ranksAbove_of_mem_take_drop (hkeys : (candidates.map (·.key)).Nodup) {a b : Candidate}
    (ha : a ∈ (rankedEligible q now candidates).take count) (hb : b ∈ (rankedEligible q now candidates).drop count) :
    RanksAbove a b := by
  have hsorted := @pairwise_rankedEligible candidates q now hkeys
  rw [← List.take_append_drop count (rankedEligible q now candidates), List.pairwise_append] at hsorted
  exact hsorted.2.2 a ha b hb

/-- The three lists of `distribute` are a permutation of the ranked list. -/
theorem distribute_perm (keepN : Nat) (cutoff : Option Int) (ranked : List Candidate) :
    ((distribute keepN cutoff ranked).1 ++ (distribute keepN cutoff ranked).2.2 ++
      (distribute keepN cutoff ranked).2.1).Perm ranked := by
  unfold distribute
  dsimp only
  have hrest := List.filter_append_perm (fun c => cutoff.any (· < c.createdAt)) (ranked.drop keepN)
  have h := List.Perm.append_left (ranked.take keepN) (List.perm_append_comm.trans hrest)
  rw [List.take_append_drop] at h
  rwa [List.append_assoc]

/-- Every input candidate lands in exactly one of the four lists. -/
theorem partition_perm :
    ((distribute count (protectCutoffOf protect now) (rankedEligible q now candidates)).1 ++
        (ignoredOf q now candidates).map Prod.fst ++
        (distribute count (protectCutoffOf protect now) (rankedEligible q now candidates)).2.2 ++
        (distribute count (protectCutoffOf protect now) (rankedEligible q now candidates)).2.1).Perm candidates := by
  have hd := distribute_perm count (protectCutoffOf protect now) (rankedEligible q now candidates)
  have hsplit : (candidates.filter (qualifiesAt q now) ++ candidates.filter fun c => !qualifiesAt q now c).Perm
      candidates := List.filter_append_perm _ _
  have hmain := (List.Perm.append_right (candidates.filter fun c => !qualifiesAt q now c)
    (hd.trans rankedEligible_perm)).trans hsplit
  refine List.Perm.trans ?_ hmain
  -- the same lists in another order
  rw [map_fst_ignoredOf, List.perm_iff_count]
  intro a
  simp only [List.count_append]
  omega

theorem nodup_rankedEligible (hkeys : (candidates.map (·.key)).Nodup) : (rankedEligible q now candidates).Nodup :=
  (nodup_keys_rankedEligible hkeys).of_map _

/-- A deleted or protected candidate comes after the first `count` ranked. -/
theorem mem_drop_of_mem_rest {cutoff : Option Int} {c : Candidate}
    (hc : c ∈ (distribute count cutoff (rankedEligible q now candidates)).2.2 ++
      (distribute count cutoff (rankedEligible q now candidates)).2.1) :
    c ∈ (rankedEligible q now candidates).drop count := by
  unfold distribute at hc
  rcases List.mem_append.mp hc with hc | hc
  · exact (List.mem_filter.mp hc).1
  · exact (List.mem_filter.mp hc).1

/-- The plan's guarantees, for the distribution of the ranked eligible
candidates. -/
theorem retainSpec_of_range (hkeys : (candidates.map (·.key)).Nodup) :
    RetainSpec candidates count q protect now
      ⟨(distribute count (protectCutoffOf protect now) (rankedEligible q now candidates)).1,
        ignoredOf q now candidates,
        (distribute count (protectCutoffOf protect now) (rankedEligible q now candidates)).2.2,
        (distribute count (protectCutoffOf protect now) (rankedEligible q now candidates)).2.1⟩ where
  partition := partition_perm
  ignored_iff := by
    intro c hc
    rw [map_fst_ignoredOf, List.mem_filter]
    simp [hc]
  keep_sorted := (pairwise_rankedEligible hkeys).sublist (List.take_sublist _ _)
  keep_length := by
    show ((rankedEligible q now candidates).take count).length = _
    rw [List.length_take, rankedEligible_perm.length_eq]
  keep_first := by
    intro c hc e he hqual hnot
    have hranked : e ∈ rankedEligible q now candidates := mem_rankedEligible.mpr ⟨he, hqual⟩
    rw [← List.take_append_drop count (rankedEligible q now candidates), List.mem_append] at hranked
    have hdrop : e ∈ (rankedEligible q now candidates).drop count := hranked.resolve_left hnot
    exact ranksAbove_of_mem_take_drop hkeys hc hdrop
  ranked_below := by
    intro c hc
    have hdrop := mem_drop_of_mem_rest hc
    -- the rest is not empty, so the first `count` are all there
    have hlen : ((rankedEligible q now candidates).take count).length = count := by
      rw [List.length_take]
      have : count < (rankedEligible q now candidates).length := by
        have := List.length_pos_of_mem hdrop
        rw [List.length_drop] at this
        omega
      omega
    have hsub : (rankedEligible q now candidates).take count ⊆
        candidates.filter fun e => qualifiesAt q now e && decide (RanksAbove e c) := by
      intro e he
      have hmem := mem_rankedEligible.mp (List.mem_of_mem_take he)
      rw [List.mem_filter]
      exact ⟨hmem.1, by simp [hmem.2, ranksAbove_of_mem_take_drop hkeys he hdrop]⟩
    have hnodup : ((rankedEligible q now candidates).take count).Nodup :=
      (nodup_rankedEligible hkeys).sublist (List.take_sublist count _)
    calc count = ((rankedEligible q now candidates).take count).length := hlen.symm
      _ ≤ _ := (List.subperm_of_subset hnodup hsub).length_le
  delete_old := by
    intro d hd c hc
    subst hd
    have hyoung := (List.mem_filter.mp hc).2
    simp only [protectCutoffOf, Option.map_some, Option.any_some, Bool.not_eq_eq_eq_not, Bool.not_true,
      decide_eq_false_iff_not, not_lt] at hyoung
    exact hyoung

end Plan

/-- With distinct keys and the cutoffs in range, `plan_retain_newest` answers
a plan with every guarantee of `RetainSpec`. -/
theorem retainSpec_planRetainNewest {candidates : List Candidate} {count : Nat} {q : QualifySpec}
    {protect : Option Int} {now : Int} (hkeys : (candidates.map (·.key)).Nodup)
    (hrange : CutoffsInRange q protect now) :
    ∃ plan, planRetainNewest candidates count q protect now = some plan ∧
      RetainSpec candidates count q protect now plan :=
  ⟨_, planRetainNewest_of_range hrange, retainSpec_of_range hkeys⟩

/-! ## Order independence and re-planning -/

section TwoRuns

variable {candidates candidates' : List Candidate} {count : Nat} {q : QualifySpec} {protect : Option Int}
  {now : Int}

/-- The ranked eligible candidates do not depend on the input order. -/
theorem rankedEligible_eq_of_perm (hkeys : (candidates.map (·.key)).Nodup) (hperm : candidates'.Perm candidates) :
    rankedEligible q now candidates' = rankedEligible q now candidates := by
  have hkeys' : (candidates'.map (·.key)).Nodup := (hperm.map _).nodup_iff.mpr hkeys
  have hsame : (rankedEligible q now candidates').Perm (rankedEligible q now candidates) :=
    (rankedEligible_perm.trans (hperm.filter _)).trans rankedEligible_perm.symm
  exact eq_of_perm_of_rankLe (nodup_keys_rankedEligible hkeys') hsame (pairwise_mergeSort_rankLe _)
    (pairwise_mergeSort_rankLe _)

/-- A permuted input gets the same kept, deleted and protected lists, and the
same ignored ones in its own order. -/
theorem planRetainNewest_perm (hkeys : (candidates.map (·.key)).Nodup) (hrange : CutoffsInRange q protect now)
    (hperm : candidates'.Perm candidates) {plan : RetainPlan}
    (h : planRetainNewest candidates count q protect now = some plan) :
    ∃ plan', planRetainNewest candidates' count q protect now = some plan' ∧ plan'.keep = plan.keep ∧
      plan'.delete = plan.delete ∧ plan'.protectedCandidates = plan.protectedCandidates ∧
      plan'.ignored.Perm plan.ignored := by
  rw [planRetainNewest_of_range hrange, Option.some_inj] at h
  subst h
  refine ⟨_, planRetainNewest_of_range hrange, ?_, ?_, ?_, ?_⟩
  all_goals simp only [rankedEligible_eq_of_perm hkeys hperm]
  exact hperm.filterMap _

/-- The ranked eligible candidates left after removing some of the input. -/
theorem rankedEligible_filter (hkeys : (candidates.map (·.key)).Nodup) (p : Candidate → Bool) :
    rankedEligible q now (candidates.filter p) = (rankedEligible q now candidates).filter p := by
  have hkeys' : ((candidates.filter p).map (·.key)).Nodup := hkeys.sublist (List.Sublist.map _ List.filter_sublist)
  have hcomm : (candidates.filter p).filter (qualifiesAt q now) = (candidates.filter (qualifiesAt q now)).filter p := by
    rw [List.filter_filter, List.filter_filter]
    exact List.filter_congr fun c _ => Bool.and_comm _ _
  have hsame : (rankedEligible q now (candidates.filter p)).Perm ((rankedEligible q now candidates).filter p) := by
    refine rankedEligible_perm.trans ?_
    rw [hcomm]
    exact (rankedEligible_perm.filter p).symm
  exact eq_of_perm_of_rankLe (nodup_keys_rankedEligible hkeys') hsame (pairwise_mergeSort_rankLe _)
    ((pairwise_mergeSort_rankLe _).sublist List.filter_sublist)

/-- Removing the deleted candidates from the ranked list leaves the kept
ones followed by the protected ones. -/
theorem rankedEligible_without_delete (hkeys : (candidates.map (·.key)).Nodup) (cutoff : Option Int) :
    (rankedEligible q now candidates).filter
        (fun c => decide (c ∉ (distribute count cutoff (rankedEligible q now candidates)).2.2)) =
      (distribute count cutoff (rankedEligible q now candidates)).1 ++
        (distribute count cutoff (rankedEligible q now candidates)).2.1 := by
  have hdisj := List.disjoint_take_drop (@nodup_rankedEligible candidates q now hkeys) (le_refl count)
  have hsplit : ∀ (p : Candidate → Bool) (l : List Candidate), l.filter p = (l.take count).filter p ++ (l.drop count).filter p :=
    fun p l => by rw [← List.filter_append, List.take_append_drop]
  rw [hsplit]
  unfold distribute
  dsimp only
  congr 1
  · -- no kept candidate is deleted
    apply List.filter_eq_self.mpr
    intro c hc
    have hnot : c ∉ (rankedEligible q now candidates).drop count := fun hd => hdisj hc hd
    simp only [decide_eq_true_eq]
    exact fun hdel => hnot (List.mem_filter.mp hdel).1
  · -- after the first `count`, the not-deleted are the protected
    apply List.filter_congr
    intro c hc
    simp [List.mem_filter, hc]

/-- Distributing the kept candidates followed by the protected ones again
keeps the same and deletes none. -/
theorem distribute_keep_protected (cutoff : Option Int) (ranked : List Candidate) :
    (distribute count cutoff ((distribute count cutoff ranked).1 ++ (distribute count cutoff ranked).2.1)).2.2 = [] ∧
      (distribute count cutoff ((distribute count cutoff ranked).1 ++ (distribute count cutoff ranked).2.1)).1 =
        (distribute count cutoff ranked).1 := by
  unfold distribute
  dsimp only
  by_cases hlen : count ≤ ranked.length
  · -- `count` are kept, and the rest is all protected
    have hkeep : (ranked.take count).length = count := by rw [List.length_take]; omega
    rw [List.take_left' hkeep, List.drop_left' hkeep]
    refine ⟨List.filter_eq_nil_iff.mpr ?_, rfl⟩
    intro c hc
    simp [(List.mem_filter.mp hc).2]
  · -- fewer than `count` are eligible: all are kept
    have hdrop : ranked.drop count = [] := List.drop_eq_nil_of_le (by omega)
    have htake : ranked.take count = ranked := List.take_of_length_le (by omega)
    rw [hdrop, htake, List.filter_nil, List.append_nil, htake, hdrop]
    exact ⟨rfl, rfl⟩

/-- Re-planning at the same time without the deleted candidates deletes
nothing and keeps the same candidates. -/
theorem planRetainNewest_replan (hkeys : (candidates.map (·.key)).Nodup) (hrange : CutoffsInRange q protect now)
    {plan : RetainPlan} (h : planRetainNewest candidates count q protect now = some plan) :
    ∃ plan', planRetainNewest (candidates.filter (· ∉ plan.delete)) count q protect now = some plan' ∧
      plan'.delete = [] ∧ plan'.keep = plan.keep := by
  rw [planRetainNewest_of_range hrange, Option.some_inj] at h
  subst h
  refine ⟨_, planRetainNewest_of_range hrange, ?_⟩
  rw [rankedEligible_filter hkeys, rankedEligible_without_delete hkeys]
  exact distribute_keep_protected _ _

end TwoRuns

/-- Retain-newest plan safety, for distinct keys and cutoffs in chrono's
range: the plan exists and meets `RetainSpec`, a permuted input gets the same
plan, and re-planning without the deleted candidates deletes nothing and
keeps the same ones. -/
theorem retain_newest_plan_safe (candidates : List Candidate) (count : Nat) (qualify : QualifySpec)
    (protect : Option Int) (now : Int) (hkeys : (candidates.map (·.key)).Nodup)
    (hrange : CutoffsInRange qualify protect now) :
    ∃ plan, planRetainNewest candidates count qualify protect now = some plan ∧
      RetainSpec candidates count qualify protect now plan ∧
      (∀ candidates', candidates'.Perm candidates →
        ∃ plan', planRetainNewest candidates' count qualify protect now = some plan' ∧
          plan'.keep = plan.keep ∧ plan'.delete = plan.delete ∧
          plan'.protectedCandidates = plan.protectedCandidates ∧ plan'.ignored.Perm plan.ignored) ∧
      ∃ plan', planRetainNewest (candidates.filter (· ∉ plan.delete)) count qualify protect now = some plan' ∧
        plan'.delete = [] ∧ plan'.keep = plan.keep := by
  obtain ⟨plan, hplan, hspec⟩ := @retainSpec_planRetainNewest candidates count qualify protect now hkeys hrange
  refine ⟨plan, hplan, hspec, ?_, planRetainNewest_replan hkeys hrange hplan⟩
  intro candidates' hperm
  exact planRetainNewest_perm hkeys hrange hperm hplan

/-- Two backups and an empty placeholder, keeping one backup of at least one
byte, with a protect window of 5 at time 10. -/
theorem retain_newest_plan_safe_backups :
    (([⟨"a", 1, 5⟩, ⟨"b", 2, 5⟩, ⟨"c", 3, 0⟩] : List Candidate).map (·.key)).Nodup ∧
      CutoffsInRange ⟨some 1, none⟩ (some 5) 10 ∧
      ∃ plan, planRetainNewest [⟨"a", 1, 5⟩, ⟨"b", 2, 5⟩, ⟨"c", 3, 0⟩] 1 ⟨some 1, none⟩ (some 5) 10 = some plan ∧
        RetainSpec [⟨"a", 1, 5⟩, ⟨"b", 2, 5⟩, ⟨"c", 3, 0⟩] 1 ⟨some 1, none⟩ (some 5) 10 plan ∧
        (∀ candidates', candidates'.Perm [⟨"a", 1, 5⟩, ⟨"b", 2, 5⟩, ⟨"c", 3, 0⟩] →
          ∃ plan', planRetainNewest candidates' 1 ⟨some 1, none⟩ (some 5) 10 = some plan' ∧
            plan'.keep = plan.keep ∧ plan'.delete = plan.delete ∧
            plan'.protectedCandidates = plan.protectedCandidates ∧ plan'.ignored.Perm plan.ignored) ∧
        ∃ plan', planRetainNewest ([⟨"a", 1, 5⟩, ⟨"b", 2, 5⟩, ⟨"c", 3, 0⟩].filter (· ∉ plan.delete)) 1
            ⟨some 1, none⟩ (some 5) 10 = some plan' ∧
          plan'.delete = [] ∧ plan'.keep = plan.keep := by
  have hkeys : (([⟨"a", 1, 5⟩, ⟨"b", 2, 5⟩, ⟨"c", 3, 0⟩] : List Candidate).map (·.key)).Nodup := by decide
  have hrange : CutoffsInRange ⟨some 1, none⟩ (some 5) 10 := by
    constructor
    · intro d hd
      simp at hd
    · intro d hd
      obtain rfl : 5 = d := Option.some_inj.mp hd
      exact ⟨by decide, by decide⟩
  exact ⟨hkeys, hrange, retain_newest_plan_safe _ 1 _ _ _ hkeys hrange⟩

end DeltaGlider.Lifecycle
