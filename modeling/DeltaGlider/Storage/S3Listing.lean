import DeltaGlider.Engine.Keys
import DeltaGlider.Lib.RustStd

/-!
# The S3 backend's key layout and its listing

`prefixed_key`, `reference_key`, `delta_key`, `passthrough_key` and
`classify_listed_objects` of `src/storage/s3.rs`, with two helpers of the
delegated listing, `late_delta_candidates` and `probe_hit_serves_candidate`.

A deltaspace `p` keeps its reference at `p/reference.bin`, an object `f`
stored as a delta at `p/f.delta` and one stored as is at `p/f`.  A listing
maps raw keys back to user keys: the reference is dropped and every trailing
`.delta` is cut (`trim_end_matches`).

* `listing_recovers_user_keys`: for every key `validate_object` accepts,
  both storage forms list under the key itself, and a reference never lists.
* Raw order is not user order (`v1.delta` sorts after `v1.2`).  The delegated
  listing stops reading at an anchor, the first user key past the page, and
  then probes the raw keys that may still sort above the anchor while their
  user key sorts below it.  `late_keys_probed`: a raw key above the anchor is
  served by the probe of a late candidate exactly when its user key sorts
  below the anchor, so the probes miss no key of the page and bring in none
  from beyond it.

Keys are lists of chars.  Rust compares and slices `str`s by UTF-8 bytes;
bytes order strings as their chars do, and byte offsets at char boundaries
are the char prefixes.  `probe_hit_serves_candidate` cuts the rest of a key
into six-byte chunks; as `.delta` is ASCII, those chunks are all `.delta`
exactly when the six-char chunks are.
-/

namespace DeltaGlider

open RustStd

namespace FileMetadata

/-- `FileMetadata::directory_marker`, with the `Utc::now()` it reads. -/
def directoryMarker (key : String) (now : Int) : FileMetadata :=
  { tool := deltagliderTool, originalName := key, fileSha256 := "", fileSize := 0,
    md5 := "d41d8cd98f00b204e9800998ecf8427e", multipartEtag := none, createdAt := now,
    contentType := some "application/x-directory", userMetadata := UserMeta.empty,
    storageInfo := .passthrough }

end FileMetadata

namespace S3Backend

/-! ## Algorithm -/

/-- `S3Backend::prefixed_key`. -/
def prefixedKey (deltaspace filename : String) : String :=
  if deltaspace.isEmpty then filename else deltaspace ++ "/" ++ filename

/-- `reference_key`. -/
def referenceKey (deltaspace : String) : String := prefixedKey deltaspace "reference.bin"

/-- `delta_key`. -/
def deltaKey (deltaspace filename : String) : String := prefixedKey deltaspace (filename ++ ".delta")

/-- `passthrough_key`. -/
def passthroughKey (deltaspace filename : String) : String := prefixedKey deltaspace filename

/-- `S3ListedObject`; `last_modified` in seconds. -/
structure S3ListedObject where
  key : String
  size : Nat
  lastModified : Option Int
  etag : Option String
  deriving DecidableEq, Repr

/-- `ClassifiedObject`. -/
structure ClassifiedObject where
  userKey : String
  s3Key : String
  listingMeta : S3ListedObject
  deriving DecidableEq, Repr

/-- The suffix of objects stored as deltas. -/
def deltaSuffix : List Char := ".delta".toList

/-- `trim_end_matches(".delta")` on the reversed text: every trailing
`.delta` is cut. -/
def stripDeltaRev : List Char → List Char
  | 'a' :: 't' :: 'l' :: 'e' :: 'd' :: '.' :: rest => stripDeltaRev rest
  | l => l

/-- `trim_end_matches(".delta")`. -/
def trimDelta (s : List Char) : List Char := (stripDeltaRev s.reverse).reverse

/-- A raw key cut at its last `/`: `key_prefix`, and the `filename` that
`rsplit('/').next().unwrap_or(&key)` gives (the whole key without a `/`). -/
def splitKey (key : List Char) : List Char × List Char :=
  match splitAtLast '/' key with
  | some (before, after) => (before, after)
  | none => ([], key)

/-- `key.ends_with('/') && size == 0`. -/
def isDirectoryMarker (obj : S3ListedObject) : Bool :=
  obj.key.toList.getLast? == some '/' && obj.size == 0

/-- One object of `classify_listed_objects`'s loop that is no directory
marker: its user-visible entry, unless it is a deltaspace's reference. -/
def classifiedOf (obj : S3ListedObject) : Option ClassifiedObject :=
  let (keyPrefix, filename) := splitKey obj.key.toList
  if filename = "reference.bin".toList then none
  else
    let isDelta := decide (deltaSuffix <:+ filename)
    let originalName := if isDelta then trimDelta filename else filename
    let userKey := if keyPrefix.isEmpty then originalName else keyPrefix ++ '/' :: originalName
    some ⟨String.ofList userKey, obj.key, obj⟩

/-- `classify_listed_objects`: the loop sends each object to at most one of
its two vectors, in order — the directory markers with their metadata, and
the user-visible entries of the rest. -/
def classifyListedObjects (now : Int) (objects : List S3ListedObject) :
    List ClassifiedObject × List (String × FileMetadata) :=
  (objects.filterMap fun obj => if isDirectoryMarker obj then none else classifiedOf obj,
    objects.filterMap fun obj =>
      if isDirectoryMarker obj then some (obj.key, FileMetadata.directoryMarker obj.key now) else none)

/-- `late_delta_candidates(anchor)`: `p + ".delta"` for each prefix `p` of the
anchor ending at a char boundary strictly inside it, kept when it sorts above
the anchor. -/
def lateDeltaCandidates (anchor : List Char) : List (List Char) :=
  ((List.range' 1 (anchor.length - 1)).map fun n => anchor.take n ++ deltaSuffix).filter
    fun candidate => decide (anchor < candidate)

/-- `probe_hit_serves_candidate(key, candidate)`. -/
def probeHitServesCandidate (key candidate : List Char) : Bool :=
  match key.dropPrefix? candidate with
  | some rest =>
    rest.length % deltaSuffix.length == 0 && (chunks deltaSuffix.length rest).all (· = deltaSuffix)
  | none => false

/-- `.delta` repeated `j` times. -/
def deltaRun (j : Nat) : List Char := (List.replicate j deltaSuffix).flatten

example : classifiedOf ⟨"docs/v1.zip.delta", 10, none, none⟩ =
    some ⟨"docs/v1.zip", "docs/v1.zip.delta", ⟨"docs/v1.zip.delta", 10, none, none⟩⟩ := by decide

example : lateDeltaCandidates "v1.2".toList = ["v1.delta".toList] := by decide

/-! ## Lemmas -/

section Trim

theorem deltaRun_succ (j : Nat) : deltaRun (j + 1) = deltaSuffix ++ deltaRun j := by
  simp [deltaRun, List.replicate_succ]

theorem deltaRun_add (i j : Nat) : deltaRun (i + j) = deltaRun i ++ deltaRun j := by
  rw [deltaRun, deltaRun, deltaRun, List.replicate_add, List.flatten_append]

theorem deltaRun_one : deltaRun 1 = deltaSuffix := by
  simp [deltaRun]

theorem reverse_deltaRun (j : Nat) :
    (deltaRun j).reverse = (List.replicate j deltaSuffix.reverse).flatten := by
  induction j with
  | zero => rfl
  | succ j ih =>
    rw [deltaRun_succ, List.reverse_append, ih, List.replicate_succ', List.flatten_append]
    simp

theorem stripDeltaRev_run (j : Nat) (l : List Char) :
    stripDeltaRev ((List.replicate j deltaSuffix.reverse).flatten ++ l) = stripDeltaRev l := by
  induction j with
  | zero => rfl
  | succ j ih =>
    rw [List.replicate_succ, List.flatten_cons, List.append_assoc]
    exact (stripDeltaRev.eq_1 _).trans ih

/-- What the strip leaves: the text, less a run of reversed suffixes, that
starts with none. -/
theorem stripDeltaRev_spec (l : List Char) :
    ∃ m, l = (List.replicate m deltaSuffix.reverse).flatten ++ stripDeltaRev l ∧
      ¬ deltaSuffix.reverse <+: stripDeltaRev l := by
  induction l using stripDeltaRev.induct with
  | case1 rest ih =>
    obtain ⟨m, hm, hnot⟩ := ih
    refine ⟨m + 1, ?_, by rwa [stripDeltaRev.eq_1]⟩
    rw [stripDeltaRev.eq_1, List.replicate_succ, List.flatten_cons, List.append_assoc, ← hm]
    rfl
  | case2 l hl =>
    rw [stripDeltaRev.eq_2 l hl]
    refine ⟨0, rfl, ?_⟩
    rintro ⟨t, rfl⟩
    exact hl t rfl

/-- A text is its trimmed form followed by a run of `.delta`, and the trimmed
form does not end with one. -/
theorem trimDelta_spec (s : List Char) :
    ∃ m, s = trimDelta s ++ deltaRun m ∧ ¬ deltaSuffix <:+ trimDelta s := by
  obtain ⟨m, hm, hnot⟩ := stripDeltaRev_spec s.reverse
  refine ⟨m, ?_, ?_⟩
  · have hrev := congrArg List.reverse hm
    rw [List.reverse_reverse, List.reverse_append, ← reverse_deltaRun, List.reverse_reverse] at hrev
    exact hrev
  · rw [trimDelta, ← List.reverse_prefix, List.reverse_reverse]
    exact hnot

theorem trimDelta_append_deltaRun (s : List Char) (j : Nat) :
    trimDelta (s ++ deltaRun j) = trimDelta s := by
  rw [trimDelta, trimDelta, List.reverse_append, reverse_deltaRun, stripDeltaRev_run]

theorem trimDelta_of_not_suffix {s : List Char} (h : ¬ deltaSuffix <:+ s) : trimDelta s = s := by
  rw [trimDelta, stripDeltaRev.eq_2, List.reverse_reverse]
  rintro rest hrest
  exact h (List.reverse_prefix.mp ⟨rest, by rw [hrest]; rfl⟩)

/-- The trimmed form is a prefix of the text. -/
theorem trimDelta_prefix_self (s : List Char) : trimDelta s <+: s := by
  obtain ⟨m, hm, -⟩ := trimDelta_spec s
  exact ⟨deltaRun m, hm.symm⟩

end Trim

section Probe

/-- A probe hit serves a candidate exactly when it is the candidate followed
by a run of `.delta`. -/
theorem probeHitServesCandidate_iff (key candidate : List Char) :
    probeHitServesCandidate key candidate = true ↔ ∃ j, key = candidate ++ deltaRun j := by
  unfold probeHitServesCandidate
  cases hdrop : key.dropPrefix? candidate with
  | none =>
    simp only [Bool.false_eq_true, false_iff]
    rintro ⟨j, rfl⟩
    have : (candidate ++ deltaRun j).dropPrefix? candidate = some (deltaRun j) :=
      List.dropPrefix?_eq_some_iff.mpr ⟨candidate, rfl, beq_self_eq_true _⟩
    rw [this] at hdrop
    cases hdrop
  | some rest =>
    obtain ⟨p', hkey, hp'⟩ := List.dropPrefix?_eq_some_iff.mp hdrop
    rw [beq_iff_eq] at hp'
    subst hp' hkey
    rw [Bool.and_eq_true, beq_iff_eq, chunks_all_eq_iff (by decide)]
    constructor
    · rintro ⟨j, rfl⟩
      exact ⟨j, rfl⟩
    · rintro ⟨j, hj⟩
      exact ⟨j, List.append_cancel_left hj⟩

end Probe

section Late

variable {anchor key : List Char}

theorem mem_lateDeltaCandidates {c : List Char} :
    c ∈ lateDeltaCandidates anchor ↔
      ∃ n, 1 ≤ n ∧ n < anchor.length ∧ c = anchor.take n ++ deltaSuffix ∧ anchor < c := by
  unfold lateDeltaCandidates
  simp only [List.mem_filter, List.mem_map, List.mem_range'_1, decide_eq_true_eq]
  constructor
  · rintro ⟨⟨n, hn, rfl⟩, hlt⟩
    exact ⟨n, hn.1, by omega, rfl, hlt⟩
  · rintro ⟨n, h1, h2, rfl, hlt⟩
    exact ⟨⟨n, ⟨h1, by omega⟩, rfl⟩, hlt⟩

/-- A probe hit of a late candidate has its user key below the anchor: the
candidate cuts to a proper prefix of the anchor. -/
theorem trimDelta_lt_of_probe {c : List Char} (hc : c ∈ lateDeltaCandidates anchor)
    (hhit : probeHitServesCandidate key c = true) : trimDelta key < anchor := by
  obtain ⟨n, hn1, hn2, rfl, -⟩ := mem_lateDeltaCandidates.mp hc
  obtain ⟨j, rfl⟩ := (probeHitServesCandidate_iff _ _).mp hhit
  rw [List.append_assoc, ← deltaRun_succ, trimDelta_append_deltaRun]
  have hpre : trimDelta (anchor.take n) <+: anchor :=
    (trimDelta_prefix_self _).trans (List.take_prefix n anchor)
  refine lt_of_prefix_of_ne hpre fun heq => ?_
  -- the trimmed prefix is shorter than the anchor
  have hlen := (trimDelta_prefix_self (anchor.take n)).length_le
  rw [heq, List.length_take] at hlen
  omega

/-- The other way: a raw key above the anchor whose user key is below it is
the probe hit of a late candidate.  The candidate is the user key followed
by as many `.delta` as the anchor itself continues it with, and one more. -/
theorem probe_of_trimDelta_lt (hanchor : ¬ deltaSuffix <:+ anchor) (hkey : anchor < key)
    (hne : trimDelta key ≠ []) (hbelow : trimDelta key < anchor) :
    ∃ c ∈ lateDeltaCandidates anchor, probeHitServesCandidate key c = true := by
  obtain ⟨m, hm, -⟩ := trimDelta_spec key
  set u := trimDelta key
  -- the user key is a prefix of the anchor, or the key would sort below it
  have hupre : u <+: anchor := by
    by_contra hnot
    have := append_lt_of_lt_of_diverge hbelow hnot (deltaRun m)
    rw [← hm] at this
    exact lt_asymm this hkey
  have hm1 : 1 ≤ m := by
    rcases Nat.eq_zero_or_pos m with h0 | hpos
    · rw [h0, deltaRun, List.replicate_zero, List.flatten_nil, List.append_nil] at hm
      rw [← hm] at hbelow
      exact absurd (lt_trans hbelow hkey) (lt_irrefl _)
    · exact hpos
  -- the longest run of `.delta` after `u`, shorter than the key's, that the
  -- anchor starts with
  let P : Nat → Prop := fun i => u ++ deltaRun i <+: anchor
  obtain ⟨j, hjle, hPj, hmax⟩ : ∃ j, j ≤ m - 1 ∧ P j ∧ ∀ i, j < i → i ≤ m - 1 → ¬ P i :=
    ⟨Nat.findGreatest P (m - 1), Nat.findGreatest_le _,
      Nat.findGreatest_spec (Nat.zero_le _) (by simpa [P, deltaRun] using hupre),
      fun _ hlt hle => Nat.findGreatest_is_greatest hlt hle⟩
  obtain ⟨r, hr⟩ := hPj
  -- the anchor goes on after that run: it neither stops there nor ends with `.delta`
  have hrne : r ≠ [] := by
    rintro rfl
    rw [List.append_nil] at hr
    rcases Nat.eq_zero_or_pos j with h0 | hpos
    · rw [h0, deltaRun, List.replicate_zero, List.flatten_nil, List.append_nil] at hr
      rw [hr] at hbelow
      exact lt_irrefl _ hbelow
    · apply hanchor
      rw [← hr, ← Nat.sub_add_cancel hpos, deltaRun_add, deltaRun_one, ← List.append_assoc]
      exact List.suffix_append _ _
  have hkey' : key = u ++ deltaRun j ++ deltaSuffix ++ deltaRun (m - 1 - j) := by
    rw [hm, ← deltaRun_one, List.append_assoc, List.append_assoc, ← deltaRun_add, ← deltaRun_add]
    congr 2
    omega
  -- the key continues the run with `.delta` where the anchor has `r`
  have hrD : r < deltaSuffix := by
    have hlt : r < deltaSuffix ++ deltaRun (m - 1 - j) := by
      rw [← hr, hkey', List.append_assoc (u ++ deltaRun j)] at hkey
      exact (append_lt_append_iff_left _).mp hkey
    by_cases hlast : j = m - 1
    · rwa [hlast, Nat.sub_self, deltaRun, List.replicate_zero, List.flatten_nil,
        List.append_nil] at hlt
    · have hnotD : ¬ deltaSuffix <+: r := by
        rintro ⟨t, rfl⟩
        apply hmax (j + 1) (by omega) (by omega)
        refine ⟨t, ?_⟩
        rw [deltaRun_add, deltaRun_one, ← hr]
        simp [List.append_assoc]
      by_cases hrpre : r <+: deltaSuffix
      · exact lt_of_prefix_of_ne hrpre fun heq => hnotD (heq ▸ List.prefix_refl r)
      · exact (lt_append_iff_of_incomparable hrpre hnotD _).mp hlt
  refine ⟨u ++ deltaRun j ++ deltaSuffix, mem_lateDeltaCandidates.mpr
    ⟨(u ++ deltaRun j).length, ?_, ?_, ?_, ?_⟩, ?_⟩
  · have : u.length ≠ 0 := fun h => hne (List.eq_nil_of_length_eq_zero h)
    simp only [List.length_append]
    omega
  · have : r.length ≠ 0 := fun h => hrne (List.eq_nil_of_length_eq_zero h)
    rw [← hr]
    simp only [List.length_append]
    omega
  · rw [← hr, List.take_left]
  · rw [← hr]
    exact (append_lt_append_iff_left _).mpr hrD
  · exact (probeHitServesCandidate_iff _ _).mpr ⟨m - 1 - j, hkey'⟩

/-- **Late keys.**  When the delegated listing stops at an anchor that does
not end with `.delta`, a raw key above the anchor with a non-empty user key
is served by the probe of one of the anchor's late candidates exactly when
its user key sorts below the anchor: the probes find every key the page
still misses, and bring in none that sorts beyond it. -/
theorem late_keys_probed (hanchor : ¬ deltaSuffix <:+ anchor) (hkey : anchor < key)
    (hne : trimDelta key ≠ []) :
    (∃ c ∈ lateDeltaCandidates anchor, probeHitServesCandidate key c = true) ↔
      trimDelta key < anchor := by
  constructor
  · rintro ⟨c, hc, hhit⟩
    exact trimDelta_lt_of_probe hc hhit
  · exact probe_of_trimDelta_lt hanchor hkey hne

/-- `v1.delta` (the object `v1` stored as a delta) sorts after the anchor
`v1.2` while `v1` sorts before it; the candidate `v1.delta` catches it. -/
theorem late_keys_probed_v1 :
    ¬ deltaSuffix <:+ "v1.2".toList ∧ "v1.2".toList < "v1.delta".toList ∧ trimDelta "v1.delta".toList ≠ [] ∧
      ((∃ c ∈ lateDeltaCandidates "v1.2".toList, probeHitServesCandidate "v1.delta".toList c = true) ↔
        trimDelta "v1.delta".toList < "v1.2".toList) :=
  ⟨by decide, by decide, by decide, late_keys_probed (by decide) (by decide) (by decide)⟩

end Late

section Layout

theorem splitAtLast_of_not_mem {c : Char} {k : List Char} (h : c ∉ k) : splitAtLast c k = none := by
  cases hs : splitAtLast c k with
  | none => rfl
  | some p =>
    obtain ⟨hk, -⟩ := splitAtLast_eq_some hs
    exact absurd (hk ▸ List.mem_append_right p.1 List.mem_cons_self) h

theorem toList_slash : "/".toList = ['/'] := by decide

theorem toList_prefixedKey (deltaspace filename : String) :
    (prefixedKey deltaspace filename).toList =
      if deltaspace = "" then filename.toList else deltaspace.toList ++ '/' :: filename.toList := by
  unfold prefixedKey
  by_cases hds : deltaspace = ""
  · simp [hds]
  · rw [if_neg (by simpa [String.isEmpty_iff] using hds), if_neg hds, String.toList_append,
      String.toList_append, toList_slash, List.append_assoc, List.singleton_append]

/-- A storage key of a filename with no `/` splits into its deltaspace and
that filename. -/
theorem splitKey_prefixedKey (deltaspace : String) {filename : String} (hf : '/' ∉ filename.toList) :
    splitKey (prefixedKey deltaspace filename).toList = (deltaspace.toList, filename.toList) := by
  rw [toList_prefixedKey, splitKey]
  by_cases hds : deltaspace = ""
  · rw [if_pos hds, splitAtLast_of_not_mem hf, hds]
    rfl
  · rw [if_neg hds, splitAtLast_append _ _ hf]

/-- The user key the classifier builds from a deltaspace and an original
name is the full key of the two. -/
theorem ofList_userKey (deltaspace filename : String) :
    String.ofList (if deltaspace.toList.isEmpty then filename.toList
      else deltaspace.toList ++ '/' :: filename.toList) = (ObjectKey.mk deltaspace filename).fullKey := by
  show _ = if deltaspace.isEmpty then filename else deltaspace ++ "/" ++ filename
  by_cases hds : deltaspace = ""
  · subst hds
    simp
  · have hne : deltaspace.toList.isEmpty = false := by simpa [String.toList_eq_nil_iff] using hds
    have hne' : deltaspace.isEmpty = false := by simpa [String.isEmpty_iff] using hds
    rw [hne, hne', if_neg Bool.false_ne_true, if_neg Bool.false_ne_true,
      ← String.ofList_toList (s := deltaspace ++ "/" ++ filename), String.toList_append,
      String.toList_append, toList_slash, List.append_assoc, List.singleton_append]

/-- The last char of a storage key is the last char of its filename. -/
theorem getLast?_prefixedKey (deltaspace : String) {filename : String} (hf : filename.toList ≠ []) :
    (prefixedKey deltaspace filename).toList.getLast? = filename.toList.getLast? := by
  rw [toList_prefixedKey]
  split
  · rfl
  · rw [← List.singleton_append, ← List.append_assoc, List.getLast?_append_of_ne_nil _ hf]

theorem isDirectoryMarker_of_getLast {obj : S3ListedObject} (h : obj.key.toList.getLast? ≠ some '/') :
    isDirectoryMarker obj = false := by
  simp [isDirectoryMarker, h]

/-- A key stored as is lists under its full key. -/
theorem classifiedOf_passthroughKey {o : ObjectKey} (ho : o.validateObject = .ok ()) {obj : S3ListedObject}
    (hkey : obj.key = passthroughKey o.prefixPath o.filename) :
    isDirectoryMarker obj = false ∧ classifiedOf obj = some ⟨o.fullKey, obj.key, obj⟩ := by
  obtain ⟨hempty, hslash, href, hdelta⟩ := ObjectKey.validateObject_filename ho
  have hne : o.filename.toList ≠ [] := by simpa [String.toList_eq_nil_iff] using hempty
  have hlast : o.filename.toList.getLast? ≠ some '/' := by
    intro h
    exact hslash (List.mem_of_getLast? h)
  have hrefList : o.filename.toList ≠ "reference.bin".toList := fun h =>
    href (by rw [← String.ofList_toList (s := o.filename), h]; rfl)
  -- the filename is the user key's last segment
  refine ⟨isDirectoryMarker_of_getLast (by rw [hkey, passthroughKey, getLast?_prefixedKey _ hne]; exact hlast), ?_⟩
  have hsplit : splitKey obj.key.toList = (o.prefixPath.toList, o.filename.toList) := by
    rw [hkey, passthroughKey, splitKey_prefixedKey _ hslash]
  unfold classifiedOf
  rw [hsplit]
  dsimp only
  rw [if_neg hrefList, decide_eq_false (show ¬ deltaSuffix <:+ o.filename.toList from hdelta),
    if_neg Bool.false_ne_true, ofList_userKey]

/-- A key stored as a delta lists under its full key: the suffix is cut
again. -/
theorem classifiedOf_deltaKey {o : ObjectKey} (ho : o.validateObject = .ok ()) {obj : S3ListedObject}
    (hkey : obj.key = deltaKey o.prefixPath o.filename) :
    isDirectoryMarker obj = false ∧ classifiedOf obj = some ⟨o.fullKey, obj.key, obj⟩ := by
  obtain ⟨-, hslash, -, hdelta⟩ := ObjectKey.validateObject_filename ho
  have hslash' : '/' ∉ (o.filename ++ ".delta").toList := by
    rw [String.toList_append]
    simp [hslash]
  have hne' : (o.filename ++ ".delta").toList ≠ [] := by simp [String.toList_append]
  have hlist : (o.filename ++ ".delta").toList = o.filename.toList ++ deltaRun 1 := by
    rw [String.toList_append, deltaRun_one]
    rfl
  refine ⟨isDirectoryMarker_of_getLast ?_, ?_⟩
  · rw [hkey, deltaKey, getLast?_prefixedKey _ hne', hlist, deltaRun_one,
      List.getLast?_append_of_ne_nil _ (by decide)]
    decide
  have hsplit : splitKey obj.key.toList = (o.prefixPath.toList, (o.filename ++ ".delta").toList) := by
    rw [hkey, deltaKey, splitKey_prefixedKey _ hslash']
  unfold classifiedOf
  rw [hsplit]
  dsimp only
  have hnotRef : (o.filename ++ ".delta").toList ≠ "reference.bin".toList := by
    rw [hlist, deltaRun_one]
    intro h
    have := congrArg List.getLast? h
    rw [List.getLast?_append_of_ne_nil _ (by decide)] at this
    exact absurd this (by decide)
  rw [if_neg hnotRef, decide_eq_true (by rw [hlist, deltaRun_one]; exact List.suffix_append _ _),
    if_pos rfl, hlist, trimDelta_append_deltaRun, trimDelta_of_not_suffix hdelta, ofList_userKey]

/-- A deltaspace's reference is never listed. -/
theorem classifiedOf_referenceKey (deltaspace : String) {obj : S3ListedObject}
    (hkey : obj.key = referenceKey deltaspace) : classifiedOf obj = none := by
  unfold classifiedOf
  rw [hkey, referenceKey, splitKey_prefixedKey _ (by decide)]
  rfl

/-- The storage key of a delta is its full key with the suffix. -/
theorem toList_deltaKey (deltaspace filename : String) :
    (deltaKey deltaspace filename).toList =
      (ObjectKey.mk deltaspace filename).fullKey.toList ++ deltaSuffix := by
  rw [deltaKey, toList_prefixedKey, ← ofList_userKey, String.toList_ofList, String.toList_append]
  by_cases hds : deltaspace = ""
  · simp [hds, deltaSuffix]
  · simp [hds, deltaSuffix, String.toList_eq_nil_iff]

/-- **Storage keys list as user keys.**  For every key `validate_object`
accepts, the object stored as is or as a delta is no directory marker, and
the classifier lists it under the key's full key; the deltaspace's reference
is never listed. -/
theorem listing_recovers_user_keys {o : ObjectKey} (ho : o.validateObject = .ok ()) (obj : S3ListedObject) :
    ((obj.key = passthroughKey o.prefixPath o.filename ∨ obj.key = deltaKey o.prefixPath o.filename) →
        isDirectoryMarker obj = false ∧ classifiedOf obj = some ⟨o.fullKey, obj.key, obj⟩) ∧
      (obj.key = referenceKey o.prefixPath → classifiedOf obj = none) := by
  refine ⟨fun hkey => ?_, classifiedOf_referenceKey o.prefixPath⟩
  rcases hkey with hkey | hkey
  · exact classifiedOf_passthroughKey ho hkey
  · exact classifiedOf_deltaKey ho hkey

/-- `docs/v1.zip`, stored as a delta. -/
theorem listing_recovers_user_keys_docs :
    (ObjectKey.mk "docs" "v1.zip").validateObject = .ok () ∧
      (((⟨"docs/v1.zip.delta", 10, none, none⟩ : S3ListedObject).key =
            passthroughKey "docs" "v1.zip" ∨
          (⟨"docs/v1.zip.delta", 10, none, none⟩ : S3ListedObject).key = deltaKey "docs" "v1.zip") →
        isDirectoryMarker ⟨"docs/v1.zip.delta", 10, none, none⟩ = false ∧
          classifiedOf ⟨"docs/v1.zip.delta", 10, none, none⟩ =
            some ⟨(ObjectKey.mk "docs" "v1.zip").fullKey, "docs/v1.zip.delta", ⟨"docs/v1.zip.delta", 10, none, none⟩⟩) ∧
      ((⟨"docs/v1.zip.delta", 10, none, none⟩ : S3ListedObject).key = referenceKey "docs" →
        classifiedOf ⟨"docs/v1.zip.delta", 10, none, none⟩ = none) :=
  have ho : (ObjectKey.mk "docs" "v1.zip").validateObject = .ok () := by decide
  ⟨ho, listing_recovers_user_keys ho ⟨"docs/v1.zip.delta", 10, none, none⟩⟩

end Layout

end S3Backend

end DeltaGlider
