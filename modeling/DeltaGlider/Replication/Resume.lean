import DeltaGlider.Lib.RustStd

/-!
# Resuming the reconcile walk from its watermark

The reconcile walk (replication/walk.rs) persists one watermark `w`:
every relative path at or below it is settled.  On resume it decides each
listed path against `w` (`resume_action`), and lists a directory that holds
`w` from a continuation token (`resume_list_token`).

Both rest on the order of paths: a directory path `d` ending in `/` that
sorts below `w` without being a prefix of it has every descendant below `w`
(`RustStd.append_lt_of_lt_of_diverge`, the source's sibling-subtree bound).

* `resume_action_sound`: for a directory, `Skip` holds exactly when every
  descendant sorts below the watermark, `Process` exactly when every
  descendant sorts above it, and `DescendOnly` exactly when the watermark is a
  descendant;
* `resume_token_drops_only_settled`: a child of the directory that a listing
  from the token leaves out is one `resume_action` skips.
-/

namespace DeltaGlider.Replication

open RustStd

/-! ## Algorithm -/

/-- `ResumeAction`. -/
inductive ResumeAction
  | skip
  | descendOnly
  | process
  deriving DecidableEq, Repr

/-- `resume_action`: a directory the watermark lies in is re-listed, a
path at or below it skipped, a path above it processed. -/
def resumeAction (rel : String) (isDir : Bool) (w : String) : ResumeAction :=
  if isDir && startsWith w rel then .descendOnly
  else if rel ≤ w then .skip
  else .process

/-- `resume_list_token`: the child prefix of `dir` that holds `w`, without
its trailing `/`; `w` itself for an object child; nothing when `w` is not
under `dir`.  `find` answers a char position, which is where the byte
position of the source falls. -/
def resumeListToken (dir w : String) : Option String :=
  if !startsWith w dir || w == dir then none
  else
    let rest := w.toList.drop dir.length
    some (match strFind rest ['/'] with
      | some i => String.ofList (w.toList.take (dir.length + i))
      | none => w)

/-! ## Lemmas -/

/-- A child of `dir` as a listing of `dir` with delimiter `/` names it: an
object `dir ++ name`, or a common prefix `dir ++ name ++ "/"`. -/
def childPath (dir name : String) (isDir : Bool) : String :=
  if isDir then dir ++ name ++ "/" else dir ++ name

section Order

variable {d w : List Char}

/-- Every extension of `d` sorts below `w` exactly when `d` does and is no
prefix of it. -/
theorem forall_append_lt_iff : (∀ y, d ++ y < w) ↔ d < w ∧ ¬ d <+: w := by
  constructor
  · intro h
    refine ⟨by simpa using h [], fun ⟨y, hy⟩ => ?_⟩
    have hlt := h y
    rw [hy] at hlt
    exact lt_irrefl _ hlt
  · rintro ⟨hlt, hpre⟩ y
    exact append_lt_of_lt_of_diverge hlt hpre y

/-- Every extension of `d` sorts above `w` exactly when `d` does. -/
theorem forall_lt_append_iff : (∀ y, w < d ++ y) ↔ w < d := by
  constructor
  · intro h
    simpa using h []
  · intro h y
    cases y with
    | nil => simpa using h
    | cons c y => exact h.trans (lt_of_prefix_of_ne (List.prefix_append d _) (by simp))

end Order

section Action

variable {d w : String}

theorem resumeAction_dir_skip_iff : resumeAction d true w = .skip ↔ d < w ∧ ¬ d.toList <+: w.toList := by
  unfold resumeAction
  by_cases hpre : d.toList <+: w.toList
  · rw [if_pos (by simpa [startsWith_iff] using hpre)]
    simp [hpre]
  · rw [if_neg (by simpa [startsWith_iff] using hpre)]
    by_cases hle : d ≤ w
    · rw [if_pos hle]
      -- `d` is no prefix of `w`, so not `w` itself
      have hne : d ≠ w := fun h => hpre (h ▸ List.prefix_refl _)
      simp [lt_of_le_of_ne hle hne, hpre]
    · rw [if_neg hle]
      simp only [reduceCtorEq, false_iff, not_and, not_not]
      exact fun hlt => absurd hlt.le hle

theorem resumeAction_dir_process_iff : resumeAction d true w = .process ↔ w < d := by
  unfold resumeAction
  by_cases hpre : d.toList <+: w.toList
  · rw [if_pos (by simpa [startsWith_iff] using hpre)]
    simp only [reduceCtorEq, false_iff, not_lt]
    by_cases heq : d.toList = w.toList
    · rw [String.toList_inj.mp heq]
    · exact String.le_iff_toList_le.mpr (lt_of_prefix_of_ne hpre heq).le
  · rw [if_neg (by simpa [startsWith_iff] using hpre)]
    by_cases hle : d ≤ w
    · rw [if_pos hle]
      simp only [reduceCtorEq, false_iff, not_lt]
      exact hle
    · rw [if_neg hle]
      simp only [true_iff]
      exact lt_of_not_ge hle

theorem resumeAction_dir_descendOnly_iff : resumeAction d true w = .descendOnly ↔ d.toList <+: w.toList := by
  unfold resumeAction
  by_cases hpre : d.toList <+: w.toList
  · rw [if_pos (by simpa [startsWith_iff] using hpre)]
    simp [hpre]
  · rw [if_neg (by simpa [startsWith_iff] using hpre)]
    split <;> simp [hpre]

end Action

/-- **`resume_action` is sound and complete for directories.**  A directory
is skipped exactly when every path under it sorts below the watermark,
processed exactly when every path under it sorts above, and re-listed exactly
when the watermark lies under it. -/
theorem resume_action_sound (d w : String) :
    (resumeAction d true w = .skip ↔ ∀ y : String, d ++ y < w) ∧
      (resumeAction d true w = .process ↔ ∀ y : String, w < d ++ y) ∧
      (resumeAction d true w = .descendOnly ↔ ∃ y : String, d ++ y = w) := by
  refine ⟨?_, ?_, ?_⟩
  · rw [resumeAction_dir_skip_iff, String.lt_iff_toList_lt, ← forall_append_lt_iff]
    constructor
    · intro h y
      rw [String.lt_iff_toList_lt, String.toList_append]
      exact h y.toList
    · intro h y
      have hy := String.lt_iff_toList_lt.mp (h (String.ofList y))
      rwa [String.toList_append, String.toList_ofList] at hy
  · rw [resumeAction_dir_process_iff, String.lt_iff_toList_lt, ← forall_lt_append_iff]
    constructor
    · intro h y
      rw [String.lt_iff_toList_lt, String.toList_append]
      exact h y.toList
    · intro h y
      have hy := String.lt_iff_toList_lt.mp (h (String.ofList y))
      rwa [String.toList_append, String.toList_ofList] at hy
  · rw [resumeAction_dir_descendOnly_iff]
    constructor
    · rintro ⟨y, hy⟩
      refine ⟨String.ofList y, String.toList_inj.mp ?_⟩
      rw [String.toList_append, String.toList_ofList, hy]
    · rintro ⟨y, rfl⟩
      rw [String.toList_append]
      exact List.prefix_append _ _

/-- The token of a directory the watermark lies under: the directory, then
the watermark's next segment, after which the watermark ends or goes on
with a `/`. -/
theorem resumeListToken_spec {dir w token : String} (h : resumeListToken dir w = some token) :
    ∃ seg rest : List Char, '/' ∉ seg ∧ w.toList = dir.toList ++ seg ++ rest ∧
      token.toList = dir.toList ++ seg ∧ (rest = [] ∨ rest.head? = some '/') := by
  unfold resumeListToken at h
  by_cases hc : (!startsWith w dir || w == dir) = true
  · rw [if_pos hc] at h
    cases h
  rw [if_neg hc] at h
  simp only [Bool.or_eq_true, Bool.not_eq_true', Bool.not_eq_false, not_or, beq_iff_eq] at hc
  obtain ⟨r, hr⟩ := startsWith_iff.mp hc.1
  have hrest : w.toList.drop dir.length = r := by
    rw [← hr, ← String.length_toList]
    exact List.drop_left' rfl
  simp only [hrest, Option.some.injEq] at h
  cases hfind : strFind r ['/'] with
  | none =>
    -- no deeper segment: the token is the watermark
    rw [hfind] at h
    subst h
    have hslash : '/' ∉ r := fun hm => (strFind_eq_none_iff.mp hfind) ((List.singleton_infix_iff _ _).mpr hm)
    exact ⟨r, [], hslash, by rw [hr, List.append_nil], hr.symm, .inl rfl⟩
  | some i =>
    rw [hfind] at h
    subst h
    obtain ⟨seg, rest, rfl, rfl, hfirst⟩ := strFind_eq_some (by simp) hfind
    have hslash : '/' ∉ seg := fun hm => hfirst (by simpa using (List.singleton_infix_iff _ _).mpr hm)
    refine ⟨seg, '/' :: rest, hslash, by rw [← hr]; simp, ?_, .inr rfl⟩
    rw [String.toList_ofList, ← hr, ← String.length_toList]
    simp [List.take_append]

/-- **The token drops only settled entries.**  A child of the directory that
a listing from `resume_list_token`'s token leaves out, by sorting at or below
it, is one `resume_action` skips; so is it under S3's `start-after`, which
leaves out fewer. -/
theorem resume_token_drops_only_settled {dir w token name : String}
    (htok : resumeListToken dir w = some token) (isDir : Bool)
    (hdrop : ¬ token < childPath dir name isDir) :
    resumeAction (childPath dir name isDir) isDir w = .skip := by
  obtain ⟨seg, rest, hseg, hw, htk, hrest⟩ := resumeListToken_spec htok
  have hle : childPath dir name isDir ≤ token := not_lt.mp hdrop
  have htw : token ≤ w := by
    by_cases heq : token.toList = w.toList
    · rw [String.toList_inj.mp heq]
    · refine String.le_iff_toList_le.mpr (lt_of_prefix_of_ne ?_ heq).le
      rw [hw, htk]
      exact List.prefix_append _ _
  cases isDir with
  | false =>
    unfold resumeAction
    rw [if_neg (by simp), if_pos (hle.trans htw)]
  | true =>
    -- the child directory holds no part of the watermark: it would sort
    -- above the token
    have hnot : ¬ (childPath dir name true).toList <+: w.toList := by
      intro hpre
      rw [childPath, if_pos rfl, String.toList_append, String.toList_append, hw, List.append_assoc,
        List.append_assoc, List.prefix_append_right_inj] at hpre
      have hsegpre : seg <+: seg ++ rest := List.prefix_append _ _
      rcases List.prefix_or_prefix_of_prefix hpre hsegpre with hns | hsn
      · exact hseg (hns.subset (List.mem_append_right _ (List.mem_singleton_self '/')))
      · have hne : dir.toList ++ seg ≠ dir.toList ++ (name.toList ++ "/".toList) := by
          intro heq
          rw [List.append_right_inj] at heq
          exact hseg (heq ▸ List.mem_append_right _ (List.mem_singleton_self '/'))
        have hlt := lt_of_prefix_of_ne ((List.prefix_append_right_inj _).mpr hsn) hne
        refine hdrop (String.lt_iff_toList_lt.mpr ?_)
        rw [htk, childPath, if_pos rfl, String.toList_append, String.toList_append, List.append_assoc]
        exact hlt
    unfold resumeAction
    rw [if_neg (by simpa [startsWith_iff] using hnot), if_pos (hle.trans htw)]

theorem resume_token_drops_only_settled_sibling :
    resumeListToken "a/" "a/m/x" = some "a/m" ∧ ¬ "a/m" < childPath "a/" "b" true ∧
      resumeAction (childPath "a/" "b" true) true "a/m/x" = .skip :=
  ⟨by decide, by decide, @resume_token_drops_only_settled "a/" "a/m/x" "a/m" "b" (by decide) true (by decide)⟩

end DeltaGlider.Replication
