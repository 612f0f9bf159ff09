import Mathlib.Data.List.Infix
import DeltaGlider.Lib.RustStd
import DeltaGlider.Types

/-!
# Replication key rewriting

`normalize_prefix` and `rewrite_key` of `src/replication/planner.rs`: a rule
copies the keys under its source prefix to its destination prefix, with the
source prefix stripped and the leading slashes of what remains trimmed.

    normalizePrefix_idempotent   normalising twice is normalising once
    rewriteKey_ok                every key under the source prefix is rewritten
    rewriteKey_append            a key whose tail does not start with `/` keeps its tail
                                 under the destination, so rewriting back returns it
    rewriteKey_length            a rewrite lengthens a key by at most the difference of
                                 the two prefixes
    rewrite_key_clean_tails      the rewrite is a bijection on keys whose tail does not
                                 start with `/`
    rewrite_key_collision        `a/x` and `a//x` are both copied to `b/x`, and `b/x`
                                 rewrites back to `a/x`
-/

namespace DeltaGlider.Replication

/-! ## Splitting at `/` -/

/-- No piece of `l.splitOn c` holds `c`. -/
theorem not_mem_of_mem_splitOn {c : Char} {l part : List Char} (h : part ∈ l.splitOn c) : c ∉ part := by
  induction l generalizing part with
  | nil =>
    rw [List.splitOn_nil, List.mem_singleton] at h
    subst h
    exact List.not_mem_nil
  | cons x xs ih =>
    rw [List.splitOn_cons_eq_if_modifyHead] at h
    split at h
    · -- `x` is the separator: a new, empty piece starts
      rcases List.mem_cons.mp h with rfl | hmem
      · exact List.not_mem_nil
      · exact ih hmem
    · next hx =>
      -- `x` joins the first piece
      obtain ⟨first, rest, hsplit⟩ := List.exists_cons_of_ne_nil (List.splitOn_ne_nil c xs)
      rw [hsplit, List.modifyHead_cons] at h
      rcases List.mem_cons.mp h with rfl | hmem
      · rw [List.mem_cons, not_or]
        refine ⟨fun e => hx (by rw [← e]; exact beq_self_eq_true _), ih ?_⟩
        rw [hsplit]
        exact List.mem_cons_self
      · exact ih (by rw [hsplit]; exact List.mem_cons_of_mem _ hmem)

/-! ## Prefixes -/

/-- The non-empty segments of a prefix. -/
def prefixParts (pre : String) : List (List Char) :=
  (pre.toList.splitOn '/').filter (fun part => !part.isEmpty)

/-- `normalize_prefix`: the non-empty segments joined by `/`, with one
trailing `/`; empty for the whole bucket. -/
def normalizePrefix (pre : String) : String :=
  let parts := prefixParts pre
  if parts.isEmpty then "" else String.ofList (['/'].intercalate parts ++ ['/'])

theorem normalizePrefix_eq_of_parts {p q : String} (h : prefixParts p = prefixParts q) :
    normalizePrefix p = normalizePrefix q := by
  unfold normalizePrefix
  rw [h]

theorem prefixParts_normalizePrefix (pre : String) :
    prefixParts (normalizePrefix pre) = prefixParts pre := by
  unfold normalizePrefix
  dsimp only
  split
  · next hempty =>
    rw [List.isEmpty_iff] at hempty
    rw [hempty]
    simp [prefixParts]
  · next hne =>
    -- every part is non-empty and has no `/`, so splitting the join gives them back
    have hslash : ∀ part ∈ prefixParts pre, '/' ∉ part := fun part hpart =>
      not_mem_of_mem_splitOn (List.mem_filter.mp hpart).1
    have hnonempty : ∀ part ∈ prefixParts pre, (!part.isEmpty) = true := fun part hpart =>
      (List.mem_filter.mp hpart).2
    have hne' : prefixParts pre ≠ [] := fun e => hne (by rw [e]; rfl)
    generalize prefixParts pre = parts at hslash hnonempty hne' ⊢
    unfold prefixParts
    rw [String.toList_ofList, List.splitOn_append_cons_self, List.splitOn_intercalate '/' hslash hne',
      List.splitOn_nil, List.filter_append, List.filter_eq_self.mpr hnonempty]
    simp

theorem normalizePrefix_idempotent (pre : String) :
    normalizePrefix (normalizePrefix pre) = normalizePrefix pre :=
  normalizePrefix_eq_of_parts (prefixParts_normalizePrefix pre)

/-! ## Rewriting keys -/

/-- `PlanError`, of the two errors the one `rewrite_key` returns. -/
inductive PlanError where
  | keyOutsideSourcePrefix (key sourcePrefix : String)
  deriving DecidableEq, Repr

/-- `rewrite_key`. -/
def rewriteKey (sourcePrefix destPrefix sourceKey : String) : Except PlanError String :=
  let sp := normalizePrefix sourcePrefix
  let dp := normalizePrefix destPrefix
  if sp.isEmpty && dp.isEmpty then .ok sourceKey
  else if sp = dp then .ok sourceKey
  else if sp.isEmpty then .ok (dp ++ String.ofList (sourceKey.toList.dropWhile (· == '/')))
  else
    match sourceKey.toList.dropPrefix? sp.toList with
    | some tail => .ok (dp ++ String.ofList (tail.dropWhile (· == '/')))
    | none => .error (.keyOutsideSourcePrefix sourceKey sp)

theorem dropWhile_slash_of_head {l : List Char} (h : l.head? ≠ some '/') :
    l.dropWhile (· == '/') = l := by
  cases l with
  | nil => rfl
  | cons c cs =>
    have hc : c ≠ '/' := fun e => h (by rw [e]; rfl)
    simp [hc]

/-- Every key under the source prefix is rewritten. -/
theorem rewriteKey_ok {sourcePrefix destPrefix sourceKey : String}
    (h : (normalizePrefix sourcePrefix).toList <+: sourceKey.toList) :
    ∃ key, rewriteKey sourcePrefix destPrefix sourceKey = .ok key := by
  obtain ⟨tail, htail⟩ := h
  unfold rewriteKey
  dsimp only
  split
  · exact ⟨_, rfl⟩
  split
  · exact ⟨_, rfl⟩
  split
  · exact ⟨_, rfl⟩
  rw [← htail, List.dropPrefix?_append_of_beq tail (beq_self_eq_true _)]
  exact ⟨_, rfl⟩

/-- A key whose tail under the source prefix does not start with `/` is
copied to the same tail under the destination prefix. -/
theorem rewriteKey_append (sourcePrefix destPrefix tail : String) (htail : tail.toList.head? ≠ some '/') :
    rewriteKey sourcePrefix destPrefix (normalizePrefix sourcePrefix ++ tail) =
      .ok (normalizePrefix destPrefix ++ tail) := by
  have htrim := dropWhile_slash_of_head htail
  unfold rewriteKey
  dsimp only
  split
  · -- both prefixes are the whole bucket
    next hboth =>
    rw [Bool.and_eq_true, String.isEmpty_iff, String.isEmpty_iff] at hboth
    rw [hboth.1, hboth.2]
  split
  · next heq => rw [heq]
  split
  · next hsource =>
    rw [String.isEmpty_iff] at hsource
    rw [hsource, String.empty_append, htrim, String.ofList_toList]
  rw [String.toList_append, List.dropPrefix?_append_of_beq _ (beq_self_eq_true _)]
  dsimp only
  rw [htrim, String.ofList_toList]

/-- A rewrite trades the source prefix for the destination prefix and may trim
slashes: the key grows by at most the difference of the two prefixes. -/
theorem rewriteKey_length {sourcePrefix destPrefix sourceKey key : String}
    (h : rewriteKey sourcePrefix destPrefix sourceKey = .ok key) :
    key.length + (normalizePrefix sourcePrefix).length ≤
      (normalizePrefix destPrefix).length + sourceKey.length := by
  have htrim : ∀ l : List Char, (l.dropWhile (· == '/')).length ≤ l.length :=
    fun l => (List.dropWhile_suffix _).length_le
  simp only [← String.length_toList]
  unfold rewriteKey at h
  dsimp only at h
  split at h
  · next hboth =>
    cases h
    rw [Bool.and_eq_true, String.isEmpty_iff, String.isEmpty_iff] at hboth
    rw [hboth.1, hboth.2]
    simp
  split at h
  · next heq =>
    cases h
    rw [heq]
    omega
  split at h
  · next hsource =>
    cases h
    rw [String.isEmpty_iff] at hsource
    rw [hsource, String.toList_append, String.toList_ofList, List.length_append]
    have := htrim sourceKey.toList
    simp only [String.toList_empty, List.length_nil]
    omega
  split at h
  · next tail hdrop =>
    cases h
    obtain ⟨p, hsplit, hbeq⟩ := List.dropPrefix?_eq_some_iff.mp hdrop
    rw [beq_iff_eq] at hbeq
    -- the key is the source prefix followed by `tail`
    have hkey : sourceKey.toList.length = (normalizePrefix sourcePrefix).toList.length + tail.length := by
      rw [hsplit, hbeq, List.length_append]
    rw [String.toList_append, String.toList_ofList, List.length_append, hkey]
    have := htrim tail
    omega
  · cases h

/-- A key under the source prefix is rewritten to a key under the destination
prefix. -/
theorem rewriteKey_prefix {sourcePrefix destPrefix sourceKey key : String}
    (hunder : (normalizePrefix sourcePrefix).toList <+: sourceKey.toList)
    (h : rewriteKey sourcePrefix destPrefix sourceKey = .ok key) :
    (normalizePrefix destPrefix).toList <+: key.toList := by
  unfold rewriteKey at h
  dsimp only at h
  split at h
  · next hboth =>
    cases h
    rw [Bool.and_eq_true, String.isEmpty_iff, String.isEmpty_iff] at hboth
    simp [hboth.2]
  split at h
  · next heq =>
    cases h
    rwa [← heq]
  split at h
  · cases h
    rw [String.toList_append]
    exact List.prefix_append _ _
  split at h
  · cases h
    rw [String.toList_append]
    exact List.prefix_append _ _
  · cases h

/-! ## Deciding a copy -/

/-- `ConflictPolicy`: what a rule does with a key the destination holds. -/
inductive ConflictPolicy where
  | newerWins
  | skipIfDestExists
  | contentDiff
  deriving DecidableEq, Repr

/-- `SkipReason`. -/
inductive SkipReason where
  | destNewerOrEqual
  | destIdentical
  | destExists
  | excluded
  | dgInternal
  | directoryMarker
  deriving DecidableEq, Repr

/-- `Decision`. -/
inductive Decision where
  | copy (destKey : String)
  | skip (reason : SkipReason)
  deriving DecidableEq, Repr

/-- A compiled `GlobSet`: one matcher per pattern of the rule. -/
structure GlobSet where
  globs : List (String → Bool)

/-- `GlobSet::is_match`. -/
def GlobSet.isMatch (g : GlobSet) (key : String) : Bool := g.globs.any (· key)

/-- `GlobSet::is_empty`. -/
def GlobSet.isEmpty (g : GlobSet) : Bool := g.globs.isEmpty

/-- `resolve_etag_and_parts`: the multipart ETag, else a non-empty md5, with
the part count parsed off its last `-`. -/
def resolveEtagAndParts (m : FileMetadata) : Option String × Option Nat :=
  let etag := m.multipartEtag.or (if !m.md5.isEmpty then some m.md5 else none)
  let parts := etag.bind fun e =>
    (RustStd.rsplitOnce '-' e.toList).bind fun parts => RustStd.fromStrRadix 10 RustStd.u32Max parts.2
  (etag, parts)

/-- `have_comparable_hash`: both SHA-256s, or both etags of one part count. -/
def haveComparableHash (src dest : FileMetadata) (sParts dParts : Option Nat)
    (sEtag dEtag : Option String) : Bool :=
  let bothSha := !src.fileSha256.isEmpty && !dest.fileSha256.isEmpty
  let bothEtag := sParts == dParts && sEtag.isSome && dEtag.isSome
  bothSha || bothEtag

/-- `matches!((&a, &b), (Some(a), Some(b)) if a != b)`. -/
def bothSomeDiffer (a b : Option String) : Bool :=
  match a, b with
  | some a, some b => a != b
  | _, _ => false

/-- The `ContentDiff` arm of `should_replicate`: copy when the sizes differ,
both SHA-256s differ, or (the SHA-256s not differing) both etags of one part
count differ; with `strict_content_diff`, also when nothing comparable is
held. -/
def contentDiffDecision (sourceKey : String) (srcMeta dest : FileMetadata) (strictContentDiff : Bool) :
    Decision :=
  let sizeDiffers := srcMeta.fileSize != dest.fileSize
  let shaDiffers := !srcMeta.fileSha256.isEmpty && !dest.fileSha256.isEmpty &&
    srcMeta.fileSha256 != dest.fileSha256
  let (sEtag, sParts) := resolveEtagAndParts srcMeta
  let (dEtag, dParts) := resolveEtagAndParts dest
  let etagDiffers := !shaDiffers && sParts == dParts && bothSomeDiffer sEtag dEtag
  let indeterminate := !sizeDiffers && !shaDiffers && !etagDiffers &&
    !haveComparableHash srcMeta dest sParts dParts sEtag dEtag
  if sizeDiffers || shaDiffers || etagDiffers || (strictContentDiff && indeterminate) then .copy sourceKey
  else .skip .destIdentical

/-- `should_replicate`: directory markers, config-sync internals and keys the
globs exclude are skipped; otherwise the conflict policy decides. -/
def shouldReplicate (sourceKey : String) (srcMeta : FileMetadata) (destMeta : Option FileMetadata)
    (conflict : ConflictPolicy) (strictContentDiff : Bool) (includeGlobs excludeGlobs : GlobSet) : Decision :=
  if sourceKey.toList.getLast? = some '/' then .skip .directoryMarker
  else if ".deltaglider/".toList <+: sourceKey.toList ∨ "/.deltaglider/".toList <:+: sourceKey.toList then
    .skip .dgInternal
  else if excludeGlobs.isMatch sourceKey then .skip .excluded
  else if !includeGlobs.isEmpty && !includeGlobs.isMatch sourceKey then .skip .excluded
  else
    match destMeta, conflict with
    | none, _ => .copy sourceKey
    | some _, .skipIfDestExists => .skip .destExists
    | some dest, .contentDiff => contentDiffDecision sourceKey srcMeta dest strictContentDiff
    | some dest, .newerWins =>
      if srcMeta.createdAt > dest.createdAt then .copy sourceKey else .skip .destNewerOrEqual

/-- A key the planner considers at all: no directory marker, no config-sync
internal, not excluded by the globs. -/
def KeyEligible (sourceKey : String) (includeGlobs excludeGlobs : GlobSet) : Prop :=
  sourceKey.toList.getLast? ≠ some '/' ∧
    ¬(".deltaglider/".toList <+: sourceKey.toList ∨ "/.deltaglider/".toList <:+: sourceKey.toList) ∧
    excludeGlobs.isMatch sourceKey = false ∧ (includeGlobs.isEmpty || includeGlobs.isMatch sourceKey) = true

/-- For an eligible key on both sides, `ContentDiff` decides by the content
alone. -/
theorem shouldReplicate_contentDiff {sourceKey : String} {includeGlobs excludeGlobs : GlobSet}
    (h : KeyEligible sourceKey includeGlobs excludeGlobs) (srcMeta dest : FileMetadata) (strictContentDiff : Bool) :
    shouldReplicate sourceKey srcMeta (some dest) .contentDiff strictContentDiff includeGlobs excludeGlobs =
      contentDiffDecision sourceKey srcMeta dest strictContentDiff := by
  obtain ⟨hdir, hinternal, hexcl, hincl⟩ := h
  have hincl' : (!includeGlobs.isEmpty && !includeGlobs.isMatch sourceKey) = false := by
    cases hempty : includeGlobs.isEmpty <;> simp_all
  simp only [shouldReplicate, if_neg hdir, if_neg hinternal, hexcl, hincl', Bool.false_eq_true, ↓reduceIte]

/-- **What rewriting keeps**: every key under the source prefix is
rewritten; a key whose tail after the normalised prefix does not start with
`/` goes to the same tail under the destination, so the rewrite back returns
it and two such keys never meet; and normalising a prefix twice is
normalising it once.  The slash trim makes a tail that starts with `/` meet
the trimmed one (`rewrite_key_collision`). -/
theorem rewrite_key_clean_tails :
    (∀ s d k : String, (normalizePrefix s).toList <+: k.toList → ∃ key, rewriteKey s d k = .ok key) ∧
    (∀ s d t : String, t.toList.head? ≠ some '/' →
      rewriteKey s d (normalizePrefix s ++ t) = .ok (normalizePrefix d ++ t) ∧
        rewriteKey d s (normalizePrefix d ++ t) = .ok (normalizePrefix s ++ t)) ∧
    (∀ s d t t' : String, t.toList.head? ≠ some '/' → t'.toList.head? ≠ some '/' →
      rewriteKey s d (normalizePrefix s ++ t) = rewriteKey s d (normalizePrefix s ++ t') → t = t') ∧
    (∀ p : String, normalizePrefix (normalizePrefix p) = normalizePrefix p) := by
  refine ⟨fun s d k h => rewriteKey_ok h, fun s d t ht => ⟨rewriteKey_append s d t ht, rewriteKey_append d s t ht⟩,
    ?_, normalizePrefix_idempotent⟩
  intro s d t t' ht ht' heq
  rw [rewriteKey_append s d t ht, rewriteKey_append s d t' ht'] at heq
  have hlists := congrArg String.toList (Except.ok.inj heq)
  rw [String.toList_append, String.toList_append] at hlists
  exact String.toList_inj.mp (List.append_cancel_left hlists)

/-- `a/x` and `a//x`, both under the rule's source prefix `a/`, are both
copied to `b/x`, which rewrites back to `a/x`. -/
theorem rewrite_key_collision :
    (normalizePrefix "a").toList <+: "a/x".toList ∧ (normalizePrefix "a").toList <+: "a//x".toList ∧
      rewriteKey "a" "b" "a/x" = .ok "b/x" ∧ rewriteKey "a" "b" "a//x" = .ok "b/x" ∧
      rewriteKey "b" "a" "b/x" = .ok "a/x" := by
  decide

end DeltaGlider.Replication
