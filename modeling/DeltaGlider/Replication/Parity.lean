import DeltaGlider.Replication.Planner

/-!
# Parity classification and the content-diff planner

`ObjState::from_metadata` and `compare_pair` of `src/replication/parity.rs`:
the three tiers Verify reports a key pair by (size, then both SHA-256s, then
both etags of one multipart shape), against the `ContentDiff` arm of
`should_replicate` (`Replication.Planner`), which weighs the same evidence
as a disjunction of "differs" flags.

The two agree except on one shape of pair (`EtagDrift`): both SHA-256s
present and equal, and both etags present, of one part count, and
different.  The classifier stops at the SHA-256s (`Match`); the planner's
etag flag only asks that the SHA-256s do not differ, and copies.

    fromMetadata_etag           the classifier resolves etag and part count as the planner
    shouldReplicate_skip_iff    for an eligible key, the planner skips exactly when the
                                classifier says `Match` (and, strict, not unverifiable)
                                and the pair is no `EtagDrift`
    planner_parity_drift        a pair of one size and SHA-256 with etags `a-2` and `b-2`:
                                `Match` for Verify, `Copy` for the planner, strict or not
-/

namespace DeltaGlider.Replication

/-! ## The classifier -/

/-- `ObjState`, with the fields `compare_pair` reads. -/
structure ObjState where
  sha256 : Option String
  size : Nat
  etag : Option String
  multipartParts : Option Nat
  deriving DecidableEq, Repr

/-- `ObjState::from_metadata`: a non-empty SHA-256; the multipart ETag, else
a non-empty md5; the part count parsed off the etag's last `-`. -/
def ObjState.fromMetadata (m : FileMetadata) : ObjState :=
  let sha256 := if !m.fileSha256.isEmpty then some m.fileSha256 else none
  let etag := m.multipartEtag.or (if !m.md5.isEmpty then some m.md5 else none)
  let multipartParts := etag.bind fun e =>
    (RustStd.rsplitOnce '-' e.toList).bind fun parts => RustStd.fromStrRadix 10 RustStd.u32Max parts.2
  { sha256, size := m.fileSize, etag, multipartParts }

/-- `FindingKind`. -/
inductive FindingKind where
  | «match»
  | checksumMismatch
  | missingOnDest
  | orphanOnDest
  deriving DecidableEq, Repr

/-- `Verifier`: the evidence a finding rests on. -/
inductive Verifier where
  | sha256
  | etagSize
  | sizeOnly
  deriving DecidableEq, Repr

/-- `compare_pair`: the kind, the verifier, whether the match is
unverifiable, and the detail. -/
def comparePair (src dst : ObjState) : FindingKind × Option Verifier × Bool × String :=
  if src.size ≠ dst.size then
    (.checksumMismatch, none, false,
      "size differs (src " ++ toString src.size ++ " vs dst " ++ toString dst.size ++ ")")
  else
    match src.sha256, dst.sha256 with
    | some s, some d =>
      if s = d then (.match, some .sha256, false, "sha256 + size match")
      else (.checksumMismatch, some .sha256, false, "sha256 differs")
    | _, _ =>
      -- tier 2 only when both etags are of one multipart shape
      match src.multipartParts == dst.multipartParts, src.etag, dst.etag with
      | true, some se, some de =>
        if se = de then (.match, some .etagSize, false, "etag + size match")
        else (.checksumMismatch, some .etagSize, false, "etag differs at equal size")
      | _, _, _ =>
        (.match, some .sizeOnly, true,
          "size matches; no comparable checksum on both sides to prove byte-equality")

/-- The classifier reads etag and part count off the metadata exactly as the
planner's `resolve_etag_and_parts`. -/
theorem fromMetadata_etag (m : FileMetadata) :
    ((ObjState.fromMetadata m).etag, (ObjState.fromMetadata m).multipartParts) = resolveEtagAndParts m := rfl

/-! ## The evidence both sides weigh -/

/-- Both SHA-256s present and different. -/
def ShaDiffers (src dst : ObjState) : Prop :=
  ∃ a b, src.sha256 = some a ∧ dst.sha256 = some b ∧ a ≠ b

/-- Both etags present, of one part count, and different. -/
def EtagDiffers (src dst : ObjState) : Prop :=
  src.multipartParts = dst.multipartParts ∧ ∃ a b, src.etag = some a ∧ dst.etag = some b ∧ a ≠ b

/-- Some hash can prove the pair equal or different: both SHA-256s, or both
etags of one part count. -/
def Comparable (src dst : ObjState) : Prop :=
  (src.sha256.isSome ∧ dst.sha256.isSome) ∨
    (src.multipartParts = dst.multipartParts ∧ src.etag.isSome ∧ dst.etag.isSome)

/-- The pairs where the planner and the classifier part: equal SHA-256s,
and comparable etags that differ. -/
def EtagDrift (src dst : ObjState) : Prop :=
  src.sha256.isSome ∧ src.sha256 = dst.sha256 ∧ EtagDiffers src dst

theorem fromMetadata_sha256 (m : FileMetadata) :
    (ObjState.fromMetadata m).sha256 = if m.fileSha256.isEmpty then none else some m.fileSha256 := by
  simp [ObjState.fromMetadata]

/-! ## The planner in these terms -/

section Flags

variable (src dst : FileMetadata)

theorem shaFlag_iff :
    (!src.fileSha256.isEmpty && !dst.fileSha256.isEmpty && src.fileSha256 != dst.fileSha256) = true ↔
      ShaDiffers (.fromMetadata src) (.fromMetadata dst) := by
  simp only [ShaDiffers, fromMetadata_sha256]
  by_cases hs : src.fileSha256.isEmpty <;> by_cases hd : dst.fileSha256.isEmpty <;> simp [hs, hd]

theorem etagFlag_iff :
    ((resolveEtagAndParts src).2 == (resolveEtagAndParts dst).2) = true ∧
      bothSomeDiffer (resolveEtagAndParts src).1 (resolveEtagAndParts dst).1 = true ↔
      EtagDiffers (.fromMetadata src) (.fromMetadata dst) := by
  rw [← fromMetadata_etag src, ← fromMetadata_etag dst]
  simp only [EtagDiffers]
  cases (ObjState.fromMetadata src).etag <;> cases (ObjState.fromMetadata dst).etag <;> simp [bothSomeDiffer]

theorem haveComparableHash_iff :
    haveComparableHash src dst (resolveEtagAndParts src).2 (resolveEtagAndParts dst).2
        (resolveEtagAndParts src).1 (resolveEtagAndParts dst).1 = true ↔
      Comparable (.fromMetadata src) (.fromMetadata dst) := by
  rw [← fromMetadata_etag src, ← fromMetadata_etag dst]
  simp only [haveComparableHash, Comparable, fromMetadata_sha256]
  by_cases hs : src.fileSha256.isEmpty <;> by_cases hd : dst.fileSha256.isEmpty <;> simp [hs, hd, and_assoc]

end Flags

/-- The planner skips exactly when the sizes agree, neither the SHA-256s
nor the comparable etags differ, and (strict) some hash is comparable. -/
theorem contentDiffDecision_skip_iff (sourceKey : String) (src dst : FileMetadata) (strict : Bool) :
    contentDiffDecision sourceKey src dst strict = .skip .destIdentical ↔
      src.fileSize = dst.fileSize ∧ ¬ShaDiffers (.fromMetadata src) (.fromMetadata dst) ∧
        ¬EtagDiffers (.fromMetadata src) (.fromMetadata dst) ∧
        (strict = true → Comparable (.fromMetadata src) (.fromMetadata dst)) := by
  have hsha := shaFlag_iff src dst
  have hetag := etagFlag_iff src dst
  have hcomparable := haveComparableHash_iff src dst
  unfold contentDiffDecision
  dsimp only
  -- the planner's flags, each read as the relation it tests; what is left is
  -- propositional
  generalize (!src.fileSha256.isEmpty && !dst.fileSha256.isEmpty && src.fileSha256 != dst.fileSha256) = shaFlag
    at hsha ⊢
  generalize ((resolveEtagAndParts src).2 == (resolveEtagAndParts dst).2) = partsFlag at hetag ⊢
  generalize bothSomeDiffer (resolveEtagAndParts src).1 (resolveEtagAndParts dst).1 = etagFlag at hetag ⊢
  generalize haveComparableHash src dst _ _ _ _ = comparableFlag at hcomparable ⊢
  rw [← hsha, ← hetag, ← hcomparable]
  cases shaFlag <;> cases partsFlag <;> cases etagFlag <;> cases comparableFlag <;> cases strict <;> simp

/-! ## The classifier in these terms -/

/-- `Match` exactly when the sizes agree, the SHA-256s do not differ and,
unless both are present, the comparable etags do not differ. -/
theorem comparePair_match_iff (s d : ObjState) :
    (comparePair s d).1 = .match ↔
      s.size = d.size ∧ ¬ShaDiffers s d ∧ (¬(s.sha256.isSome ∧ d.sha256.isSome) → ¬EtagDiffers s d) := by
  unfold comparePair ShaDiffers EtagDiffers
  split
  · next hsize => simp [hsize]
  · next hsize =>
    rw [not_not] at hsize
    split
    · -- tier 1: both SHA-256s decide
      next a b hs hd =>
      split <;> simp_all
    · -- tiers 2 and 3: one SHA-256 is missing
      next hsha =>
      have hnoSha : ¬(s.sha256.isSome ∧ d.sha256.isSome) := by
        rintro ⟨hs, hd⟩
        obtain ⟨a, ha⟩ := Option.isSome_iff_exists.mp hs
        obtain ⟨b, hb⟩ := Option.isSome_iff_exists.mp hd
        exact hsha a b ha hb
      have hnoDiff : ¬∃ a b, s.sha256 = some a ∧ d.sha256 = some b ∧ a ≠ b := fun ⟨a, b, ha, hb, _⟩ =>
        hsha a b ha hb
      simp only [hsize, hnoDiff, hnoSha, not_false_eq_true, true_and, forall_const]
      split
      · next se de hparts hse hde =>
        split <;> simp_all
      · next hnot =>
        simp only [not_and, not_exists, true_iff]
        intro hparts a b ha hb _
        exact hnot a b (by simpa using hparts) ha hb

/-- A match is unverifiable exactly when the sizes agree and no hash is
comparable. -/
theorem comparePair_unverifiable_iff (s d : ObjState) :
    (comparePair s d).2.2.1 = true ↔ s.size = d.size ∧ ¬Comparable s d := by
  unfold comparePair Comparable
  split
  · next hsize => simp [hsize]
  · next hsize =>
    rw [not_not] at hsize
    split
    · next a b hs hd => split <;> simp [hsize, hs, hd]
    · next hsha =>
      split
      · next se de hparts hse hde => split <;> simp_all
      · next hnot =>
        simp only [hsize, true_and, true_iff, not_or, not_and]
        refine ⟨fun hs hd => ?_, fun hparts hse hde => ?_⟩
        · obtain ⟨a, ha⟩ := Option.isSome_iff_exists.mp hs
          obtain ⟨b, hb⟩ := Option.isSome_iff_exists.mp hd
          exact hsha a b ha hb
        · obtain ⟨a, ha⟩ := Option.isSome_iff_exists.mp hse
          obtain ⟨b, hb⟩ := Option.isSome_iff_exists.mp hde
          exact hnot a b (by simpa using hparts) ha hb

/-! ## Where the two agree -/

/-- For an eligible key, the `ContentDiff` planner skips exactly when the
classifier says `Match` (with `strict_content_diff`, a verifiable one) and
the pair is no `EtagDrift`. -/
theorem shouldReplicate_skip_iff {sourceKey : String} {includeGlobs excludeGlobs : GlobSet}
    (h : KeyEligible sourceKey includeGlobs excludeGlobs) (src dst : FileMetadata) (strict : Bool) :
    shouldReplicate sourceKey src (some dst) .contentDiff strict includeGlobs excludeGlobs =
        .skip .destIdentical ↔
      (comparePair (.fromMetadata src) (.fromMetadata dst)).1 = .match ∧
        (strict = true → (comparePair (.fromMetadata src) (.fromMetadata dst)).2.2.1 = false) ∧
        ¬EtagDrift (.fromMetadata src) (.fromMetadata dst) := by
  rw [shouldReplicate_contentDiff h, contentDiffDecision_skip_iff, comparePair_match_iff]
  simp only [← Bool.not_eq_true, comparePair_unverifiable_iff]
  constructor
  · rintro ⟨hsize, hsha, hetag, hstrict⟩
    exact ⟨⟨hsize, hsha, fun _ => hetag⟩, fun hs ⟨_, hnc⟩ => hnc (hstrict hs), fun hdrift => hetag hdrift.2.2⟩
  · rintro ⟨⟨hsize, hsha, hetag⟩, hstrict, hdrift⟩
    refine ⟨hsize, hsha, fun hdiff => ?_, fun hs => by_contra fun hnc => hstrict hs ⟨hsize, hnc⟩⟩
    by_cases hboth : (ObjState.fromMetadata src).sha256.isSome ∧ (ObjState.fromMetadata dst).sha256.isSome
    · -- both SHA-256s are present and do not differ: they are equal, a drift
      obtain ⟨a, ha⟩ := Option.isSome_iff_exists.mp hboth.1
      obtain ⟨b, hb⟩ := Option.isSome_iff_exists.mp hboth.2
      have hab : a = b := by_contra fun hne => hsha ⟨a, b, ha, hb, hne⟩
      exact hdrift ⟨hboth.1, by rw [ha, hb, hab], hdiff⟩
    · exact hetag hboth hdiff

/-- A two-part object of ten bytes with the given SHA-256 and multipart
etag, as a DeltaGlider-managed passthrough object. -/
def twoPartObject (sha256 multipartEtag : String) : FileMetadata :=
  { tool := deltagliderTool, originalName := "k", fileSha256 := sha256, fileSize := 10,
    md5 := "5d41402abc4b2a76b9719d911017c592", multipartEtag := some multipartEtag, createdAt := 0,
    contentType := none, userMetadata := UserMeta.empty, storageInfo := .passthrough }

/-- The same bytes uploaded in two parts of different sizes: one SHA-256,
etags `a-2` and `b-2`.  Verify reports a `Match` by SHA-256, and the
`ContentDiff` planner copies, strict or not. -/
theorem planner_parity_drift :
    comparePair (.fromMetadata (twoPartObject "2cf24dba" "a-2")) (.fromMetadata (twoPartObject "2cf24dba" "b-2")) =
        (.match, some .sha256, false, "sha256 + size match") ∧
      shouldReplicate "k" (twoPartObject "2cf24dba" "a-2") (some (twoPartObject "2cf24dba" "b-2"))
        .contentDiff false ⟨[]⟩ ⟨[]⟩ = .copy "k" ∧
      shouldReplicate "k" (twoPartObject "2cf24dba" "a-2") (some (twoPartObject "2cf24dba" "b-2"))
        .contentDiff true ⟨[]⟩ ⟨[]⟩ = .copy "k" := by
  decide

/-- One object on both sides, its multipart ETag the same. -/
theorem shouldReplicate_skip_iff_same_object :
    KeyEligible "k" ⟨[]⟩ ⟨[]⟩ ∧
      (shouldReplicate "k" (twoPartObject "2cf24dba" "a-2") (some (twoPartObject "2cf24dba" "a-2")) .contentDiff
            false ⟨[]⟩ ⟨[]⟩ = .skip .destIdentical ↔
        (comparePair (.fromMetadata (twoPartObject "2cf24dba" "a-2"))
            (.fromMetadata (twoPartObject "2cf24dba" "a-2"))).1 = .match ∧
          (false = true → (comparePair (.fromMetadata (twoPartObject "2cf24dba" "a-2"))
            (.fromMetadata (twoPartObject "2cf24dba" "a-2"))).2.2.1 = false) ∧
          ¬EtagDrift (.fromMetadata (twoPartObject "2cf24dba" "a-2")) (.fromMetadata (twoPartObject "2cf24dba" "a-2"))) :=
  have hk : KeyEligible "k" ⟨[]⟩ ⟨[]⟩ := by
    unfold KeyEligible
    decide
  ⟨hk, shouldReplicate_skip_iff hk _ _ false⟩

end DeltaGlider.Replication
