import DeltaGlider.Storage.DelegatedListing

/-!
# The delegated listing's early exit

The fetch loop of `list_objects_delegated` with `list_anchor` and
`confirmable_candidates` of `src/storage/s3.rs`.  The loop reads upstream
pages until the last raw key read sorts above the anchor, the
`max_keys + 1`-th distinct user key past the token among the keys read; the
raw keys it may still be missing at that point sort above the anchor yet
list below it (`p.delta` for `p` a proper prefix of the anchor), and one
probe each confirms them.

Over a bucket laid out as the proxy lays it out (no key begins with `/`,
none ends in `.delta` twice), and without a delimiter, the early exit is
exact:

    delegated_listing_agrees   whatever the upstream's page boundaries, the page the
                               delegated listing serves is the page of a full read of
                               the prefix
-/

namespace DeltaGlider.S3Backend

open RustStd

/-! ## Algorithm -/

/-- One upstream `ListObjectsV2` page: its objects and common prefixes. -/
structure UpstreamPage where
  contents : List S3ListedObject
  commonPrefixes : List String

/-- A common prefix of the internal `.dg/` directory: its last segment,
trailing `/` trimmed, is `.dg`. -/
def isInternalDir (p : String) : Bool :=
  (splitKey (trimEndMatches '/' p.toList)).2 == ".dg".toList

/-- The user-visible keys `list_anchor` counts: every raw key but a
reference, each trailing `.delta` cut, and every common prefix, when above
the token. -/
def anchorCandidates (rawKeys commonPrefixes : List String) (token : String) : List String :=
  rawKeys.filterMap (fun key =>
      if (splitKey key.toList).2 = "reference.bin".toList then none
      else
        let userKey := String.ofList (trimDelta key.toList)
        if token < userKey then some userKey else none) ++
    commonPrefixes.filter fun cp => token < cp

/-- `list_anchor`: the `max_keys + 1`-th distinct candidate, in order. -/
def listAnchor (rawKeys commonPrefixes : List String) (maxKeys : Nat)
    (continuationToken : Option String) : Option String :=
  let candidates := (anchorCandidates rawKeys commonPrefixes (continuationToken.getD "")).foldl
    (fun s k => s.insert k) OrdSet.empty
  candidates.toList[maxKeys]?

/-- `confirmable_candidates`: the late candidates under the request prefix,
outside a collapsed subtree, and not already read. -/
def confirmableCandidates (anchor requestPrefix : String) (delimiter lastRead : Option String) :
    List (List Char) :=
  (((lateDeltaCandidates anchor.toList).filter fun c => requestPrefix.toList.isPrefixOf c).filter
      fun c => match delimiter with
        | some d =>
          if d.isEmpty then true
          else
            -- a candidate is a user key with one `.delta`
            let user := if deltaSuffix <:+ c then c.take (c.length - deltaSuffix.length) else c
            !decide (d.toList <:+: user.drop (min requestPrefix.length user.length))
        | none => true).filter
    fun c => match lastRead with
      | some last => decide (last.toList ≤ c) || c.isPrefixOf last.toList
      | none => true

/-- A confirmation probe, `LIST prefix=candidate max-keys=3` over the
bucket's objects in key order, kept to the keys that serve the candidate. -/
def probeHits (bucket : List S3ListedObject) (candidate : List Char) : List S3ListedObject :=
  ((bucket.filter fun o => candidate.isPrefixOf o.key.toList).take 3).filter fun o =>
    probeHitServesCandidate o.key.toList candidate

/-- The fetch loop over the pages the upstream returns: the raw objects and
the common prefixes read, and the anchor it stopped at when it stopped
before the last page. -/
def fetchLoop (maxKeys : Nat) (continuationToken : Option String) :
    List S3ListedObject → OrdSet String → List UpstreamPage →
      List S3ListedObject × OrdSet String × Option String
  | rawObjects, commonPrefixes, [] => (rawObjects, commonPrefixes, none)
  | rawObjects, commonPrefixes, page :: rest =>
    let commonPrefixes := (page.commonPrefixes.filter fun p => !isInternalDir p).foldl
      (fun s p => s.insert p) commonPrefixes
    let rawObjects := rawObjects ++ page.contents
    match rest with
    | [] => (rawObjects, commonPrefixes, none)
    | _ :: _ =>
      match listAnchor (rawObjects.map (·.key)) commonPrefixes.toList maxKeys continuationToken with
      | some anchor =>
        if (rawObjects.getLast?.map fun o => decide (anchor < o.key)).getD false then
          (rawObjects, commonPrefixes, some anchor)
        else fetchLoop maxKeys continuationToken rawObjects commonPrefixes rest
      | none => fetchLoop maxKeys continuationToken rawObjects commonPrefixes rest

/-- `list_objects_delegated` over the upstream pages of the request and the
bucket the probes read. -/
def listObjectsDelegated (now : Int) (bucket : List S3ListedObject) (pages : List UpstreamPage)
    (requestPrefix : String) (delimiter : Option String) (maxKeys : Nat)
    (continuationToken : Option String) : Engine.InterleavedPage FileMetadata :=
  let fetched := fetchLoop maxKeys continuationToken [] OrdSet.empty pages
  let probed := match fetched.2.2 with
    | some anchor =>
      (confirmableCandidates anchor requestPrefix delimiter (fetched.1.getLast?.map (·.key))).flatMap
        (probeHits bucket)
    | none => []
  listObjectsDelegatedPage now (fetched.1 ++ probed) fetched.2.1.toList maxKeys continuationToken

/-! ## Lemmas -/

/-- A key as the proxy stores it: it does not begin with `/`, it does not
end with `.delta` twice, and it is not all `.delta`. -/
def LayoutKey (key : String) : Prop :=
  key.toList.head? ≠ some '/' ∧ ¬ (deltaSuffix ++ deltaSuffix) <:+ key.toList ∧ trimDelta key.toList ≠ []

/-- S3's `start-after`: the keys above the token. -/
def afterToken (token : Option String) (key : String) : Bool :=
  match token with
  | some t => decide (t < key)
  | none => true

section Keys

/-- Cutting `.delta` off a key stops at its last `/`. -/
theorem trimDelta_append_slash (l t : List Char) : trimDelta (l ++ '/' :: t) = l ++ '/' :: trimDelta t := by
  obtain ⟨m, hm, hnot⟩ := trimDelta_spec t
  have hnot' : ¬ deltaSuffix <:+ l ++ '/' :: trimDelta t := by
    intro hsuf
    rw [← List.reverse_prefix, List.reverse_append, List.reverse_cons, List.append_assoc,
      List.singleton_append] at hsuf
    have hnotu : ¬ deltaSuffix.reverse <+: (trimDelta t).reverse := fun h => hnot (List.reverse_prefix.mp h)
    -- the suffix would reach over the `/`, which `.delta` does not hold
    obtain ⟨i, hi, -, heq⟩ := (not_prefix_iff_of_prefix_append hsuf).mp hnotu
    have hslash : '/' ∈ deltaSuffix.reverse := by
      rw [heq]
      cases i with
      | zero => omega
      | succ i => simp
    exact absurd hslash (by decide)
  calc trimDelta (l ++ '/' :: t)
      = trimDelta ((l ++ '/' :: trimDelta t) ++ deltaRun m) := by
        conv_lhs => rw [hm]
        simp
    _ = l ++ '/' :: trimDelta t := by rw [trimDelta_append_deltaRun, trimDelta_of_not_suffix hnot']

theorem trimDelta_of_getLast {l : List Char} (h : l.getLast? = some '/') : trimDelta l = l := by
  refine trimDelta_of_not_suffix fun hsuf => ?_
  obtain ⟨t, rfl⟩ := hsuf
  rw [List.getLast?_append_of_ne_nil _ (by decide)] at h
  exact absurd h (by decide)

/-- The classifier lists an object under its key with every trailing
`.delta` cut, for a key that does not begin with `/`. -/
theorem userKey_of_classifiedOf {obj : S3ListedObject} {c : ClassifiedObject}
    (hslash : obj.key.toList.head? ≠ some '/') (hc : classifiedOf obj = some c) :
    c.userKey = String.ofList (trimDelta obj.key.toList) := by
  unfold classifiedOf at hc
  generalize hs : splitKey obj.key.toList = parts at hc
  obtain ⟨keyPrefix, filename⟩ := parts
  dsimp only at hc
  by_cases href : filename = "reference.bin".toList
  · rw [if_pos href] at hc
    cases hc
  rw [if_neg href] at hc
  obtain rfl := Option.some.inj hc
  have horig : (if deltaSuffix <:+ filename then trimDelta filename else filename) = trimDelta filename := by
    split_ifs with hd
    · rfl
    · exact (trimDelta_of_not_suffix hd).symm
  show String.ofList (if keyPrefix.isEmpty then _ else _) = _
  simp only [decide_eq_true_eq]
  rw [horig]
  unfold splitKey at hs
  cases hsplit : splitAtLast '/' obj.key.toList with
  | none =>
    rw [hsplit] at hs
    cases hs
    rfl
  | some p =>
    obtain ⟨before, after⟩ := p
    rw [hsplit] at hs
    simp only [Prod.mk.injEq] at hs
    obtain ⟨rfl, rfl⟩ := hs
    obtain ⟨hkey, -⟩ := splitAtLast_eq_some hsplit
    -- a key that does not begin with `/` has text before its last `/`
    have hne : before ≠ [] := by
      rintro rfl
      rw [hkey] at hslash
      exact hslash rfl
    rw [hkey, trimDelta_append_slash, if_neg (by simpa using hne)]

/-- A key that does not end in `.delta` twice, and lists under a shorter
key, is that key with one `.delta`. -/
theorem key_eq_of_trimDelta {key k : List Char} (hno : ¬ (deltaSuffix ++ deltaSuffix) <:+ key)
    (htrim : trimDelta key = k) (hne : key ≠ k) : key = k ++ deltaSuffix := by
  obtain ⟨m, hm, -⟩ := trimDelta_spec key
  rw [htrim] at hm
  match m, hm with
  | 0, hm => exact absurd (by simpa [deltaRun] using hm) hne
  | 1, hm => rw [hm, deltaRun_one]
  | j + 2, hm =>
    have htwo : deltaRun 2 = deltaSuffix ++ deltaSuffix := by rw [deltaRun_succ, deltaRun_one]
    refine absurd ⟨k ++ deltaRun j, ?_⟩ hno
    rw [hm, deltaRun_add, htwo, List.append_assoc]

end Keys

section Anchor

variable {rawKeys commonPrefixes : List String} {token : String}

theorem mem_foldl_insert {s : OrdSet String} {l : List String} {x : String} :
    x ∈ (l.foldl (fun s k => s.insert k) s).toList ↔ x ∈ s.toList ∨ x ∈ l := by
  induction l generalizing s with
  | nil => simp
  | cons k l ih =>
    rw [List.foldl_cons, ih, OrdSet.mem_insert, List.mem_cons]
    tauto

theorem mem_anchorCandidates {k : String} :
    k ∈ anchorCandidates rawKeys commonPrefixes token ↔
      (∃ key ∈ rawKeys, (splitKey key.toList).2 ≠ "reference.bin".toList ∧
        String.ofList (trimDelta key.toList) = k ∧ token < k) ∨ (k ∈ commonPrefixes ∧ token < k) := by
  unfold anchorCandidates
  rw [List.mem_append, List.mem_filterMap, List.mem_filter, decide_eq_true_iff]
  refine or_congr (exists_congr fun key => and_congr_right fun _ => ?_) Iff.rfl
  by_cases href : (splitKey key.toList).2 = "reference.bin".toList
  · rw [if_pos href]
    constructor
    · intro h
      cases h
    · intro h
      exact absurd href h.1
  · rw [if_neg href]
    dsimp only
    by_cases htok : token < String.ofList (trimDelta key.toList)
    · rw [if_pos htok, Option.some.injEq]
      constructor
      · rintro rfl
        exact ⟨href, rfl, htok⟩
      · rintro ⟨-, rfl, -⟩
        rfl
    · rw [if_neg htok]
      constructor
      · intro h
        cases h
      · rintro ⟨-, rfl, hlt⟩
        exact absurd hlt htok

/-- The anchor is a candidate, with `max_keys` distinct candidates below
it. -/
theorem listAnchor_spec {maxKeys : Nat} {continuationToken : Option String} {a : String}
    (h : listAnchor rawKeys commonPrefixes maxKeys continuationToken = some a) :
    a ∈ anchorCandidates rawKeys commonPrefixes (continuationToken.getD "") ∧
      ∃ below : List String, below.length = maxKeys ∧ below.Nodup ∧
        ∀ v ∈ below, v ∈ anchorCandidates rawKeys commonPrefixes (continuationToken.getD "") ∧ v < a := by
  unfold listAnchor at h
  generalize hs : (anchorCandidates rawKeys commonPrefixes (continuationToken.getD "")).foldl
    (fun s k => s.insert k) OrdSet.empty = s at h
  have hmem : ∀ x, x ∈ s.toList ↔ x ∈ anchorCandidates rawKeys commonPrefixes (continuationToken.getD "") := by
    intro x
    rw [← hs, mem_foldl_insert]
    simp
  obtain ⟨hlen, hget⟩ := List.getElem?_eq_some_iff.mp h
  refine ⟨(hmem a).mp (hget ▸ List.getElem_mem hlen), s.toList.take maxKeys, ?_, ?_, ?_⟩
  · rw [List.length_take]
    omega
  · exact s.nodup.sublist (List.take_sublist _ _)
  · intro v hv
    obtain ⟨j, hj, rfl⟩ := List.getElem_of_mem hv
    rw [List.length_take] at hj
    refine ⟨(hmem _).mp (List.mem_of_mem_take hv), ?_⟩
    -- the set is strictly increasing, and `v` stands before the anchor
    rw [List.getElem_take, ← hget]
    exact List.pairwise_iff_getElem.mp s.sorted j maxKeys (by omega) hlen (by omega)

end Anchor

section Loop

variable {maxKeys : Nat} {token : Option String}

/-- What the fetch loop leaves, against the pages it was given: the objects
of the first pages, all of them when it ran out of pages, and the last of
them above the anchor when it stopped early. -/
structure FetchResult (maxKeys : Nat) (token : Option String) (raw : List S3ListedObject)
    (cps : OrdSet String) (pages : List UpstreamPage)
    (r : List S3ListedObject × OrdSet String × Option String) : Prop where
  read : ∃ n, r.1 = raw ++ (pages.take n).flatMap (·.contents)
  prefixes : r.2.1 = cps
  exhausted : r.2.2 = none → r.1 = raw ++ pages.flatMap (·.contents)
  settled : ∀ a, r.2.2 = some a →
    listAnchor (r.1.map (·.key)) r.2.1.toList maxKeys token = some a ∧
      ∃ last, r.1.getLast? = some last ∧ a < last.key

/-- A result of the loop over the pages after the first is one over all
of them. -/
theorem FetchResult.cons {raw : List S3ListedObject} {cps : OrdSet String} {page : UpstreamPage}
    {rest : List UpstreamPage} {r : List S3ListedObject × OrdSet String × Option String}
    (h : FetchResult maxKeys token (raw ++ page.contents) cps rest r) :
    FetchResult maxKeys token raw cps (page :: rest) r := by
  obtain ⟨⟨n, hn⟩, hpre, hexh, hset⟩ := h
  refine ⟨⟨n + 1, ?_⟩, hpre, fun hnone => ?_, hset⟩
  · rw [hn, List.take_succ_cons, List.flatMap_cons, List.append_assoc]
  · rw [hexh hnone, List.flatMap_cons, List.append_assoc]

/-- Without common prefixes, the loop's result is a `FetchResult`. -/
theorem fetchLoop_result (raw : List S3ListedObject) (cps : OrdSet String) (pages : List UpstreamPage)
    (hcps : ∀ p ∈ pages, p.commonPrefixes = []) :
    FetchResult maxKeys token raw cps pages (fetchLoop maxKeys token raw cps pages) := by
  induction pages generalizing raw cps with
  | nil => exact ⟨⟨0, by simp [fetchLoop]⟩, rfl, fun _ => by simp [fetchLoop], fun a h => by cases h⟩
  | cons page rest ih =>
    have hpage : (page.commonPrefixes.filter fun p => !isInternalDir p).foldl
        (fun s p => s.insert p) cps = cps := by
      rw [hcps page List.mem_cons_self]
      rfl
    have ih' := ih (raw ++ page.contents) cps fun p hp => hcps p (List.mem_cons_of_mem _ hp)
    -- the page is read; the loop ends with the last page, or stops at the
    -- anchor, or goes on with the rest
    cases rest with
    | nil =>
      rw [fetchLoop, hpage]
      exact ⟨⟨1, by simp⟩, rfl, fun _ => by simp, fun a h => by cases h⟩
    | cons page' rest' =>
      rw [fetchLoop, hpage]
      split
      · rename_i anchor hanchor
        split
        · rename_i hlast
          refine ⟨⟨1, by simp⟩, rfl, fun h => (by cases h), fun a ha => ?_⟩
          obtain rfl := Option.some.inj ha
          refine ⟨hanchor, ?_⟩
          cases hl : (raw ++ page.contents).getLast? with
          | none => simp [hl] at hlast
          | some last => exact ⟨last, rfl, by simpa [hl] using hlast⟩
        · exact ih'.cons
      · exact ih'.cons

end Loop

section Probe

variable {bucket : List S3ListedObject}

theorem mem_of_mem_probeHits {c : List Char} {o : S3ListedObject} (h : o ∈ probeHits bucket c) :
    o ∈ bucket ∧ probeHitServesCandidate o.key.toList c = true := by
  unfold probeHits at h
  rw [List.mem_filter] at h
  exact ⟨(List.mem_filter.mp (List.mem_of_mem_take h.1)).1, h.2⟩

/-- A probe of an object's own key finds it: no key under it sorts
first. -/
theorem mem_probeHits_self (hsorted : bucket.Pairwise fun a b => a.key < b.key) {o : S3ListedObject}
    (ho : o ∈ bucket) : o ∈ probeHits bucket o.key.toList := by
  have hunder : Cursor.KeySorted (fun x : S3ListedObject => x.key)
      (bucket.filter fun x => o.key.toList.isPrefixOf x.key.toList) := hsorted.filter _
  have hhead := hunder.head?_eq (List.mem_filter.mpr ⟨ho, List.isPrefixOf_iff_prefix.mpr (List.prefix_refl _)⟩)
    fun y hy => by
      have hpre := List.isPrefixOf_iff_prefix.mp (List.mem_filter.mp hy).2
      rw [String.le_iff_toList_le]
      by_cases heq : o.key.toList = y.key.toList
      · rw [heq]
      · exact (lt_of_prefix_of_ne hpre heq).le
  obtain ⟨rest, hrest⟩ := List.head?_eq_some_iff.mp hhead
  -- the first key under the candidate is among the three the probe reads
  unfold probeHits
  rw [hrest]
  refine List.mem_filter.mpr ⟨by simp, (probeHitServesCandidate_iff _ _).mpr ⟨0, by simp [deltaRun]⟩⟩

theorem suffix_append_deltaRun {c : List Char} (hc : deltaSuffix <:+ c) (j : Nat) :
    deltaSuffix <:+ c ++ deltaRun j := by
  cases j with
  | zero => simpa [deltaRun] using hc
  | succ j =>
    rw [deltaRun_add, deltaRun_one, ← List.append_assoc]
    exact List.suffix_append _ _

/-- A key with no double `.delta` that serves a candidate ending in
`.delta` is the candidate. -/
theorem key_eq_of_probe {key c : List Char} (hno : ¬ (deltaSuffix ++ deltaSuffix) <:+ key)
    (hc : deltaSuffix <:+ c) (hhit : probeHitServesCandidate key c = true) : key = c := by
  obtain ⟨j, rfl⟩ := (probeHitServesCandidate_iff _ _).mp hhit
  cases j with
  | zero => simp [deltaRun]
  | succ j =>
    obtain ⟨t, ht⟩ := suffix_append_deltaRun hc j
    refine absurd ⟨t, ?_⟩ hno
    rw [deltaRun_add, deltaRun_one, ← List.append_assoc c, ← ht, List.append_assoc]

theorem suffix_of_mem_lateDeltaCandidates {anchor c : List Char} (hc : c ∈ lateDeltaCandidates anchor) :
    deltaSuffix <:+ c := by
  obtain ⟨n, -, -, rfl, -⟩ := mem_lateDeltaCandidates.mp hc
  exact List.suffix_append _ _

/-- Every raw key the loop did not read that lists below the anchor is
found by the probes. -/
theorem mem_probed_of_late (hsorted : bucket.Pairwise fun a b => a.key < b.key)
    {requestPrefix anchor last : String} {o : S3ListedObject} (ho : o ∈ bucket)
    (hno : ¬ (deltaSuffix ++ deltaSuffix) <:+ o.key.toList) (hpfx : requestPrefix.toList <+: o.key.toList)
    (hanchor : ¬ deltaSuffix <:+ anchor.toList) (hlast : anchor < last) (hlate : last < o.key)
    (hne : trimDelta o.key.toList ≠ []) (hbelow : trimDelta o.key.toList < anchor.toList) :
    o ∈ (confirmableCandidates anchor requestPrefix none (some last)).flatMap (probeHits bucket) := by
  have hkey : anchor.toList < o.key.toList := String.lt_iff_toList_lt.mp (hlast.trans hlate)
  obtain ⟨c, hc, hhit⟩ := probe_of_trimDelta_lt hanchor hkey hne hbelow
  have hoc : o.key.toList = c := key_eq_of_probe hno (suffix_of_mem_lateDeltaCandidates hc) hhit
  refine List.mem_flatMap.mpr ⟨c, ?_, by rw [← hoc]; exact mem_probeHits_self hsorted ho⟩
  -- the candidate is under the request prefix, and above the last key read
  have hread : last.toList ≤ c := by
    rw [← hoc]
    exact (String.lt_iff_toList_lt.mp hlate).le
  unfold confirmableCandidates
  refine List.mem_filter.mpr ⟨List.mem_filter.mpr ⟨List.mem_filter.mpr ⟨hc, ?_⟩, rfl⟩, ?_⟩
  · rw [← hoc]
    exact List.isPrefixOf_iff_prefix.mpr hpfx
  · simp [hread]

/-- What a probe finds is in the bucket, under the request prefix, and its
key is the candidate it serves. -/
theorem of_mem_probed {requestPrefix anchor : String} {delimiter lastRead : Option String}
    {o : S3ListedObject}
    (h : o ∈ (confirmableCandidates anchor requestPrefix delimiter lastRead).flatMap (probeHits bucket)) :
    o ∈ bucket ∧ requestPrefix.toList <+: o.key.toList ∧
      ∃ c, deltaSuffix <:+ c ∧ probeHitServesCandidate o.key.toList c = true := by
  obtain ⟨c, hc, hhit⟩ := List.mem_flatMap.mp h
  obtain ⟨hb, hserve⟩ := mem_of_mem_probeHits hhit
  unfold confirmableCandidates at hc
  obtain ⟨⟨⟨hlate, hpfx⟩, -⟩, -⟩ := List.mem_filter.mp hc |>.imp_left List.mem_filter.mp
    |>.imp_left (And.imp_left List.mem_filter.mp)
  obtain ⟨j, hj⟩ := (probeHitServesCandidate_iff _ _).mp hserve
  refine ⟨hb, ?_, c, suffix_of_mem_lateDeltaCandidates hlate, hserve⟩
  rw [hj]
  exact (List.isPrefixOf_iff_prefix.mp hpfx).trans (List.prefix_append _ _)

end Probe

section Pairs

variable {now : Int}

/-- The key an object is listed under: its key with every trailing
`.delta` cut. -/
def listedKey (o : S3ListedObject) : String := String.ofList (trimDelta o.key.toList)

/-- The version a directory marker is listed with. -/
def markerPair (now : Int) (o : S3ListedObject) : Option (String × FileMetadata) :=
  if isDirectoryMarker o then some (o.key, FileMetadata.directoryMarker o.key now) else none

/-- The version any other object is listed with. -/
def classifiedPair (now : Int) (o : S3ListedObject) : Option (String × FileMetadata) :=
  if isDirectoryMarker o then none
  else (classifiedOf o).map fun entry =>
    (entry.userKey, fallbackMetadataFromListing now entry.listingMeta entry.userKey
      (if deltaSuffix <:+ entry.s3Key.toList then StorageInfo.deltaStub entry.listingMeta.size
        else .passthrough))

/-- The versions `resolve_classified_lite` deduplicates: the directory
markers, then the other objects. -/
def listedPairs (now : Int) (raw : List S3ListedObject) : List (String × FileMetadata) :=
  raw.filterMap (markerPair now) ++ raw.filterMap (classifiedPair now)

theorem delegatedObjects_eq (raw : List S3ListedObject) :
    delegatedObjects now raw = Engine.dedupKeepLatest (listedPairs now raw) := by
  unfold delegatedObjects resolveClassifiedLite classifyListedObjects listedPairs
  dsimp only
  rw [List.map_filterMap]
  congr 2
  refine List.filterMap_congr fun o _ => ?_
  unfold classifiedPair
  split <;> rfl

/-- The listed key is no later than the key. -/
theorem listedKey_le (o : S3ListedObject) : listedKey o ≤ o.key := by
  rw [String.le_iff_toList_le, listedKey, String.toList_ofList]
  by_cases heq : trimDelta o.key.toList = o.key.toList
  · rw [heq]
  · exact (lt_of_prefix_of_ne (trimDelta_prefix_self _) heq).le

theorem listedKey_of_marker {o : S3ListedObject} (h : isDirectoryMarker o = true) : listedKey o = o.key := by
  have hlast : o.key.toList.getLast? = some '/' := by
    simp only [isDirectoryMarker, Bool.and_eq_true, beq_iff_eq] at h
    exact h.1
  rw [listedKey, trimDelta_of_getLast hlast, String.ofList_toList]

theorem fst_of_markerPair {o : S3ListedObject} {x : String × FileMetadata} (h : markerPair now o = some x) :
    x.1 = listedKey o := by
  unfold markerPair at h
  split at h
  · rename_i hmarker
    cases h
    exact (listedKey_of_marker hmarker).symm
  · cases h

theorem fst_of_classifiedPair {o : S3ListedObject} {x : String × FileMetadata}
    (hslash : o.key.toList.head? ≠ some '/') (h : classifiedPair now o = some x) : x.1 = listedKey o := by
  unfold classifiedPair at h
  split at h
  · cases h
  · obtain ⟨c, hc, rfl⟩ := Option.map_eq_some_iff.mp h
    exact userKey_of_classifiedOf hslash hc

/-- The versions of one key are those of the objects listed under it. -/
theorem filter_listedPairs {raw : List S3ListedObject} (hslash : ∀ o ∈ raw, o.key.toList.head? ≠ some '/')
    (k : String) :
    (listedPairs now raw).filter (fun x => x.1 = k) =
      (raw.filter fun o => listedKey o = k).filterMap (markerPair now) ++
        (raw.filter fun o => listedKey o = k).filterMap (classifiedPair now) := by
  rw [listedPairs, List.filter_append,
    Cursor.filter_filterMap_key (markerPair now) Prod.fst listedKey (fun _ _ _ hx => fst_of_markerPair hx) k,
    Cursor.filter_filterMap_key (classifiedPair now) Prod.fst listedKey
      (fun o ho _ hx => fst_of_classifiedPair (hslash o ho) hx) k]

theorem mem_delegatedObjects_iff (raw : List S3ListedObject) (x : String × FileMetadata) :
    x ∈ delegatedObjects now raw ↔
      (((listedPairs now raw).filter fun y => y.1 = x.1).foldl Engine.keepLatest ∅).lookup x.1 = some x.2 := by
  rw [delegatedObjects_eq, Engine.mem_dedupKeepLatest_iff, Engine.lookup_foldl_keepLatest_filter x.1 _ rfl]

theorem nodup_delegatedObjects (raw : List S3ListedObject) : ((delegatedObjects now raw).map Prod.fst).Nodup := by
  rw [delegatedObjects_eq]
  exact Engine.keySorted_dedupKeepLatest.nodup

/-- An object that is no reference is listed under its listed key. -/
theorem listedKey_mem_delegatedObjects {raw : List S3ListedObject} {o : S3ListedObject} (ho : o ∈ raw)
    (hslash : o.key.toList.head? ≠ some '/') (href : (splitKey o.key.toList).2 ≠ "reference.bin".toList) :
    ∃ x ∈ delegatedObjects now raw, x.1 = listedKey o := by
  have hpair : ∃ x ∈ listedPairs now raw, x.1 = listedKey o := by
    by_cases hmarker : isDirectoryMarker o = true
    · have hx : markerPair now o = some (o.key, FileMetadata.directoryMarker o.key now) := by
        simp [markerPair, hmarker]
      exact ⟨_, List.mem_append_left _ (List.mem_filterMap.mpr ⟨o, ho, hx⟩), fst_of_markerPair hx⟩
    · obtain ⟨c, hc⟩ : ∃ c, classifiedOf o = some c := by
        unfold classifiedOf
        generalize splitKey o.key.toList = parts at href
        obtain ⟨keyPrefix, filename⟩ := parts
        exact ⟨_, if_neg href⟩
      obtain ⟨x, hx⟩ : ∃ x, classifiedPair now o = some x := by
        simp [classifiedPair, hmarker, hc]
      exact ⟨x, List.mem_append_right _ (List.mem_filterMap.mpr ⟨o, ho, hx⟩), fst_of_classifiedPair hslash hx⟩
  obtain ⟨x, hx, hkey⟩ := hpair
  have hmem : x.1 ∈ (Engine.dedupKeepLatest (listedPairs now raw)).map Prod.fst :=
    Engine.fst_mem_dedupKeepLatest.mpr (List.mem_map_of_mem hx)
  obtain ⟨y, hy, hyx⟩ := List.mem_map.mp hmem
  exact ⟨y, by rw [delegatedObjects_eq]; exact hy, by rw [hyx, hkey]⟩

end Pairs

section Page

variable {O : Type*} {objs₁ objs₂ : List (String × O)} {token : Option String}

theorem mem_after_iff {l : List (String × Engine.Entry O)} {e : String × Engine.Entry O} :
    e ∈ Cursor.after Prod.fst token l ↔ e ∈ l ∧ afterToken token e.1 = true := by
  cases token with
  | none => simp [afterToken]
  | some t => simp [afterToken]

theorem mem_interleavedEntries_nil {e : String × Engine.Entry O} :
    e ∈ Engine.interleavedEntries objs₁ [] ↔ ∃ o ∈ objs₁, e = (o.1, .obj o.1 o.2) := by
  rw [Engine.mem_interleavedEntries]
  simp

/-- Two sets of objects that agree past the cursor are served the same
page. -/
theorem interleaveAndPaginate_congr_after (h₁ : (objs₁.map Prod.fst).Nodup) (h₂ : (objs₂.map Prod.fst).Nodup)
    (hagree : ∀ x, afterToken token x.1 = true → (x ∈ objs₁ ↔ x ∈ objs₂)) (maxKeys : Nat) :
    Engine.interleaveAndPaginate objs₁ [] maxKeys token = Engine.interleaveAndPaginate objs₂ [] maxKeys token := by
  have hs₁ := Engine.keySorted_interleavedEntries h₁ List.nodup_nil fun _ _ => List.not_mem_nil
  have hs₂ := Engine.keySorted_interleavedEntries h₂ List.nodup_nil fun _ _ => List.not_mem_nil
  have hafter : Cursor.after Prod.fst token (Engine.interleavedEntries objs₁ []) =
      Cursor.after Prod.fst token (Engine.interleavedEntries objs₂ []) := by
    refine hs₁.after.eq_of_mem_iff hs₂.after fun e => ?_
    rw [mem_after_iff, mem_after_iff, mem_interleavedEntries_nil, mem_interleavedEntries_nil]
    constructor
    · rintro ⟨⟨o, ho, rfl⟩, ht⟩
      exact ⟨⟨o, (hagree o ht).mp ho, rfl⟩, ht⟩
    · rintro ⟨⟨o, ho, rfl⟩, ht⟩
      exact ⟨⟨o, (hagree o ht).mpr ho, rfl⟩, ht⟩
  rw [Engine.interleaveAndPaginate_eq, Engine.interleaveAndPaginate_eq]
  simp only [Cursor.page_def, Cursor.next_def, hafter]

/-- Two sets of objects that agree between the cursor and a key both hold,
with at least `maxKeys` objects there, are served the same page. -/
theorem interleaveAndPaginate_congr_below (h₁ : (objs₁.map Prod.fst).Nodup) (h₂ : (objs₂.map Prod.fst).Nodup)
    {a : String} (hagree : ∀ x, afterToken token x.1 = true → x.1 < a → (x ∈ objs₁ ↔ x ∈ objs₂))
    (ha₁ : ∃ x ∈ objs₁, x.1 = a) (ha₂ : ∃ x ∈ objs₂, x.1 = a) (hta : afterToken token a = true)
    {maxKeys : Nat} (hcount : maxKeys ≤ (objs₁.filter fun x => afterToken token x.1 && decide (x.1 < a)).length) :
    Engine.interleaveAndPaginate objs₁ [] maxKeys token = Engine.interleaveAndPaginate objs₂ [] maxKeys token := by
  have hs₁ := Engine.keySorted_interleavedEntries h₁ List.nodup_nil fun _ _ => List.not_mem_nil
  have hs₂ := Engine.keySorted_interleavedEntries h₂ List.nodup_nil fun _ _ => List.not_mem_nil
  have hbelow : (Cursor.after Prod.fst token (Engine.interleavedEntries objs₁ [])).filter (fun e => e.1 < a) =
      (Cursor.after Prod.fst token (Engine.interleavedEntries objs₂ [])).filter (fun e => e.1 < a) := by
    refine (hs₁.after.filter _).eq_of_mem_iff (hs₂.after.filter _) fun e => ?_
    simp only [List.mem_filter, mem_after_iff, mem_interleavedEntries_nil, decide_eq_true_eq]
    constructor
    · rintro ⟨⟨⟨o, ho, rfl⟩, ht⟩, hlt⟩
      exact ⟨⟨⟨o, (hagree o ht hlt).mp ho, rfl⟩, ht⟩, hlt⟩
    · rintro ⟨⟨⟨o, ho, rfl⟩, ht⟩, hlt⟩
      exact ⟨⟨⟨o, (hagree o ht hlt).mpr ho, rfl⟩, ht⟩, hlt⟩
  -- the entries below the key are the objects below it, each once
  have hlen : maxKeys ≤ ((Cursor.after Prod.fst token (Engine.interleavedEntries objs₁ [])).filter
      fun e => e.1 < a).length := by
    have hnodup₁ : objs₁.Nodup := h₁.of_map
    have hperm : ((Cursor.after Prod.fst token (Engine.interleavedEntries objs₁ [])).filter fun e => e.1 < a).Perm
        ((objs₁.filter fun x => afterToken token x.1 && decide (x.1 < a)).map
          fun o => (o.1, Engine.Entry.obj o.1 o.2)) := by
      refine (List.perm_ext_iff_of_nodup (hs₁.after.filter _).nodup ?_).mpr fun e => ?_
      · refine (hnodup₁.filter _).map_on fun x _ y _ hxy => ?_
        simp only [Prod.mk.injEq, Engine.Entry.obj.injEq] at hxy
        exact Prod.ext hxy.1 hxy.2.2
      · simp only [List.mem_filter, mem_after_iff, mem_interleavedEntries_nil, List.mem_map,
          Bool.and_eq_true, decide_eq_true_eq]
        constructor
        · rintro ⟨⟨⟨o, ho, rfl⟩, ht⟩, hlt⟩
          exact ⟨o, ⟨ho, ht, hlt⟩, rfl⟩
        · rintro ⟨o, ⟨ho, ht, hlt⟩, rfl⟩
          exact ⟨⟨⟨o, ho, rfl⟩, ht⟩, hlt⟩
    rw [hperm.length_eq, List.length_map]
    exact hcount
  have habove : ∀ objs : List (String × O), (∃ x ∈ objs, x.1 = a) →
      ∃ e ∈ Cursor.after Prod.fst token (Engine.interleavedEntries objs []), ¬ e.1 < a := by
    rintro objs ⟨x, hx, rfl⟩
    exact ⟨(x.1, .obj x.1 x.2), mem_after_iff.mpr ⟨mem_interleavedEntries_nil.mpr ⟨x, hx, rfl⟩, hta⟩,
      lt_irrefl _⟩
  obtain ⟨hpage, ht₁, ht₂⟩ :=
    Cursor.page_eq_of_agree_below hs₁ hs₂ a hbelow hlen (habove objs₁ ha₁) (habove objs₂ ha₂)
  rw [Engine.interleaveAndPaginate_eq, Engine.interleaveAndPaginate_eq]
  simp only [Cursor.next_def, hpage, ht₁, ht₂, if_true, decide_true]

end Page

section Agreement

variable {now : Int} {bucket : List S3ListedObject} {requestPrefix : String} {token : Option String}

theorem afterToken_of_le {k key : String} (hk : afterToken token k = true) (hle : k ≤ key) :
    afterToken token key = true := by
  cases token with
  | none => rfl
  | some t => exact decide_eq_true (lt_of_lt_of_le (of_decide_eq_true hk) hle)

theorem afterToken_of_getD_lt {k : String} (h : token.getD "" < k) : afterToken token k = true := by
  cases token with
  | none => rfl
  | some t => exact decide_eq_true h

theorem listedKey_eq_iff {o : S3ListedObject} {k : String} :
    listedKey o = k ↔ trimDelta o.key.toList = k.toList := by
  rw [listedKey]
  constructor
  · rintro rfl
    rw [String.toList_ofList]
  · intro h
    rw [h, String.ofList_toList]

theorem not_suffix_listedKey (o : S3ListedObject) : ¬ deltaSuffix <:+ (listedKey o).toList := by
  rw [listedKey, String.toList_ofList]
  exact (trimDelta_spec _).choose_spec.2

/-- An object listed under a key it does not carry is that key with one
`.delta`. -/
theorem key_eq_of_listedKey {o : S3ListedObject} {k : String} (hlayout : LayoutKey o.key)
    (hk : listedKey o = k) (hne : o.key ≠ k) : o.key.toList = k.toList ++ deltaSuffix :=
  key_eq_of_trimDelta hlayout.2.1 (listedKey_eq_iff.mp hk) fun h => hne (String.toList_inj.mp h)

theorem key_ne_listedKey {o : S3ListedObject} (h : deltaSuffix <:+ o.key.toList) : o.key ≠ listedKey o := by
  intro heq
  exact not_suffix_listedKey o (heq ▸ h)

theorem isDirectoryMarker_of_suffix {o : S3ListedObject} (h : deltaSuffix <:+ o.key.toList) :
    isDirectoryMarker o = false := by
  obtain ⟨t, ht⟩ := h
  simp [isDirectoryMarker, ← ht, deltaSuffix]

theorem eq_of_key_eq (hsorted : bucket.Pairwise fun a b => a.key < b.key) {o o' : S3ListedObject}
    (ho : o ∈ bucket) (ho' : o' ∈ bucket) (h : o.key = o'.key) : o = o' :=
  List.inj_on_of_nodup_map (List.pairwise_map.mpr (hsorted.imp ne_of_lt)) ho ho' h

theorem suffix_of_mem_probed {anchor : String} {delimiter lastRead : Option String} {o : S3ListedObject}
    (h : o ∈ (confirmableCandidates anchor requestPrefix delimiter lastRead).flatMap (probeHits bucket)) :
    deltaSuffix <:+ o.key.toList := by
  obtain ⟨-, -, c, hc, hhit⟩ := of_mem_probed h
  obtain ⟨j, hj⟩ := (probeHitServesCandidate_iff _ _).mp hhit
  rw [hj]
  exact suffix_append_deltaRun hc j

theorem last_lt_of_mem_unread {read unread : List S3ListedObject}
    (hsorted : (read ++ unread).Pairwise fun a b => a.key < b.key) {last o : S3ListedObject}
    (hlast : read.getLast? = some last) (ho : o ∈ unread) : last.key < o.key :=
  (List.pairwise_append.mp hsorted).2.2 last (List.mem_of_getLast? hlast) o ho

theorem exists_of_mem_anchorCandidates {raw : List S3ListedObject} {t v : String}
    (h : v ∈ anchorCandidates (raw.map (·.key)) [] t) :
    ∃ o ∈ raw, (splitKey o.key.toList).2 ≠ "reference.bin".toList ∧ listedKey o = v ∧ t < v := by
  rcases mem_anchorCandidates.mp h with ⟨key, hkey, href, hv, ht⟩ | ⟨hnil, -⟩
  · obtain ⟨o, ho, rfl⟩ := List.mem_map.mp hkey
    exact ⟨o, ho, href, hv, ht⟩
  · exact absurd hnil List.not_mem_nil

theorem mem_delegatedObjects_congr {raw₁ raw₂ : List S3ListedObject}
    (h₁ : ∀ o ∈ raw₁, o.key.toList.head? ≠ some '/') (h₂ : ∀ o ∈ raw₂, o.key.toList.head? ≠ some '/')
    {x : String × FileMetadata}
    (h : raw₁.filter (fun o => listedKey o = x.1) = raw₂.filter fun o => listedKey o = x.1) :
    x ∈ delegatedObjects now raw₁ ↔ x ∈ delegatedObjects now raw₂ := by
  rw [mem_delegatedObjects_iff, mem_delegatedObjects_iff, filter_listedPairs h₁, filter_listedPairs h₂, h]

/-- The objects listed under a key above the token are those the upstream
listing from the token holds. -/
theorem filter_listedKey_eq {k : String} (hk : afterToken token k = true) :
    (bucket.filter fun o => requestPrefix.toList.isPrefixOf o.key.toList).filter (fun o => listedKey o = k) =
      (bucket.filter fun o => requestPrefix.toList.isPrefixOf o.key.toList && afterToken token o.key).filter
        fun o => listedKey o = k := by
  rw [List.filter_filter, List.filter_filter]
  refine List.filter_congr fun o _ => ?_
  by_cases hlk : listedKey o = k
  · have hafter : afterToken token o.key = true := afterToken_of_le hk (hlk ▸ listedKey_le o)
    simp [hlk, hafter]
  · simp [hlk]

/-- Past the anchor, the objects listed under a key below it give the same
version whether the loop read them or the probes found them. -/
theorem foldl_listedPairs_settled (hsorted : bucket.Pairwise fun a b => a.key < b.key)
    (hlayout : ∀ o ∈ bucket, LayoutKey o.key) {read unread : List S3ListedObject}
    (hsplit : read ++ unread =
      bucket.filter fun o => requestPrefix.toList.isPrefixOf o.key.toList && afterToken token o.key)
    {anchor : String} (hanchor : ¬ deltaSuffix <:+ anchor.toList) {last : S3ListedObject}
    (hlast : read.getLast? = some last) (hpast : anchor < last.key) {k : String}
    (hk : afterToken token k = true) (hka : k < anchor) :
    ((listedPairs now (read ++ (confirmableCandidates anchor requestPrefix none (some last.key)).flatMap
        (probeHits bucket))).filter fun x => x.1 = k).foldl Engine.keepLatest ∅ =
      ((listedPairs now (bucket.filter fun o => requestPrefix.toList.isPrefixOf o.key.toList)).filter
        fun x => x.1 = k).foldl Engine.keepLatest ∅ := by
  set probed := (confirmableCandidates anchor requestPrefix none (some last.key)).flatMap (probeHits bucket)
  have hread : ∀ o ∈ read ++ unread,
      o ∈ bucket ∧ requestPrefix.toList <+: o.key.toList ∧ afterToken token o.key = true := by
    intro o ho
    rw [hsplit, List.mem_filter, Bool.and_eq_true, List.isPrefixOf_iff_prefix] at ho
    exact ⟨ho.1, ho.2⟩
  have hunread : ∀ o ∈ unread, k < o.key := fun o ho =>
    hka.trans (hpast.trans (last_lt_of_mem_unread (hsplit ▸ hsorted.filter _) hlast ho))
  -- what the probes found or the loop left unread under `k` is the one
  -- object `k ++ .delta`
  have hdelta : ∀ o ∈ probed ++ unread, listedKey o = k →
      o ∈ bucket ∧ o.key.toList = k.toList ++ deltaSuffix := by
    intro o ho hlk
    rcases List.mem_append.mp ho with hp | hu
    · have hb := (of_mem_probed hp).1
      exact ⟨hb, key_eq_of_listedKey (hlayout o hb) hlk (hlk ▸ key_ne_listedKey (suffix_of_mem_probed hp))⟩
    · have hb := (hread o (List.mem_append_right _ hu)).1
      exact ⟨hb, key_eq_of_listedKey (hlayout o hb) hlk (hunread o hu).ne'⟩
  have hmarkers : ∀ l : List S3ListedObject, (∀ o ∈ l, listedKey o = k → isDirectoryMarker o = false) →
      (l.filter fun o => listedKey o = k).filterMap (markerPair now) = [] := by
    intro l hl
    refine List.filterMap_eq_nil_iff.mpr fun o ho => ?_
    obtain ⟨hol, hlk⟩ := List.mem_filter.mp ho
    simp [markerPair, hl o hol (of_decide_eq_true hlk)]
  have hmP : (probed.filter fun o => listedKey o = k).filterMap (markerPair now) = [] :=
    hmarkers probed fun o ho _ => isDirectoryMarker_of_suffix (suffix_of_mem_probed ho)
  have hmU : (unread.filter fun o => listedKey o = k).filterMap (markerPair now) = [] := by
    refine hmarkers unread fun o ho hlk => Bool.eq_false_iff.mpr fun hm => ?_
    exact (hunread o ho).ne (hlk.symm.trans (listedKey_of_marker hm))
  have hslash : ∀ o ∈ read ++ probed, o.key.toList.head? ≠ some '/' := by
    intro o ho
    rcases List.mem_append.mp ho with hr | hp
    · exact (hlayout o (hread o (List.mem_append_left _ hr)).1).1
    · exact (hlayout o (of_mem_probed hp).1).1
  rw [filter_listedPairs hslash, filter_listedPairs fun o ho => (hlayout o (List.mem_filter.mp ho).1).1,
    filter_listedKey_eq hk, ← hsplit]
  simp only [List.filter_append, List.filterMap_append, hmP, hmU, List.append_nil]
  rw [← List.append_assoc, ← List.append_assoc]
  apply Engine.foldl_keepLatest_append_congr
  · -- one object at most is listed under `k` past the anchor
    intro x hx y hy
    rw [← List.filterMap_append, ← List.filter_append] at hx hy
    obtain ⟨o, ho, hox⟩ := List.mem_filterMap.mp hx
    obtain ⟨o', ho', hoy⟩ := List.mem_filterMap.mp hy
    obtain ⟨hom, hlk⟩ := List.mem_filter.mp ho
    obtain ⟨hom', hlk'⟩ := List.mem_filter.mp ho'
    obtain ⟨hb, hkey⟩ := hdelta o hom (of_decide_eq_true hlk)
    obtain ⟨hb', hkey'⟩ := hdelta o' hom' (of_decide_eq_true hlk')
    obtain rfl : o = o' := eq_of_key_eq hsorted hb hb' (String.toList_inj.mp (hkey.trans hkey'.symm))
    exact Option.some.inj (hox.symm.trans hoy)
  · -- an unread object under `k` is found by a probe
    intro hU
    obtain ⟨y, hy⟩ := List.exists_mem_of_ne_nil _ hU
    obtain ⟨o, ho, hoy⟩ := List.mem_filterMap.mp hy
    obtain ⟨hou, hlk⟩ := List.mem_filter.mp ho
    obtain ⟨hb, hpfx, -⟩ := hread o (List.mem_append_right _ hou)
    have hbelow : trimDelta o.key.toList < anchor.toList := by
      rw [listedKey_eq_iff.mp (of_decide_eq_true hlk)]
      exact String.lt_iff_toList_lt.mp hka
    have hprobed : o ∈ probed := mem_probed_of_late hsorted hb (hlayout o hb).2.1 hpfx hanchor hpast
      (last_lt_of_mem_unread (hsplit ▸ hsorted.filter _) hlast hou) (hlayout o hb).2.2 hbelow
    exact List.ne_nil_of_mem (List.mem_filterMap.mpr ⟨o, List.mem_filter.mpr ⟨hprobed, hlk⟩, hoy⟩)
  · -- with nothing unread under `k`, what the probes found was read
    intro hU x hx
    obtain ⟨o, ho, hox⟩ := List.mem_filterMap.mp hx
    obtain ⟨hop, hlk⟩ := List.mem_filter.mp ho
    have hb := (of_mem_probed hop).1
    have hmem : o ∈ read ++ unread := by
      rw [hsplit, List.mem_filter, Bool.and_eq_true]
      exact ⟨hb, List.isPrefixOf_iff_prefix.mpr (of_mem_probed hop).2.1,
        afterToken_of_le hk (of_decide_eq_true hlk ▸ listedKey_le o)⟩
    rcases List.mem_append.mp hmem with hr | hu
    · exact List.mem_append_right _ (List.mem_filterMap.mpr ⟨o, List.mem_filter.mpr ⟨hr, hlk⟩, hox⟩)
    · have hy : x ∈ (unread.filter fun o => listedKey o = k).filterMap (classifiedPair now) :=
        List.mem_filterMap.mpr ⟨o, List.mem_filter.mpr ⟨hu, hlk⟩, hox⟩
      rw [hU] at hy
      exact absurd hy List.not_mem_nil

/-- **The early exit is invisible.**  Over a bucket of keys in the proxy's
layout whose upstream pages, read from the token, hold no common prefix, the
delegated listing that stops at the anchor and probes the late `.delta`
keys serves the page a listing of every object under the prefix serves. -/
theorem delegated_listing_agrees (hsorted : bucket.Pairwise fun a b => a.key < b.key)
    (hlayout : ∀ o ∈ bucket, LayoutKey o.key) {maxKeys : Nat} {pages : List UpstreamPage}
    (hcontents : pages.flatMap (·.contents) =
      bucket.filter fun o => requestPrefix.toList.isPrefixOf o.key.toList && afterToken token o.key)
    (hcps : ∀ p ∈ pages, p.commonPrefixes = []) :
    listObjectsDelegated now bucket pages requestPrefix none maxKeys token =
      listObjectsDelegatedPage now (bucket.filter fun o => requestPrefix.toList.isPrefixOf o.key.toList) []
        maxKeys token := by
  have hr : FetchResult maxKeys token [] OrdSet.empty pages (fetchLoop maxKeys token [] OrdSet.empty pages) :=
    fetchLoop_result _ _ _ hcps
  unfold listObjectsDelegated
  generalize fetchLoop maxKeys token [] OrdSet.empty pages = r at hr ⊢
  obtain ⟨read, cps, settled⟩ := r
  obtain ⟨⟨n, hn⟩, hpre, hexh, hset⟩ := hr
  dsimp only at hn hpre hexh hset ⊢
  subst hpre
  rw [List.nil_append] at hn
  have hslashF : ∀ o ∈ bucket.filter (fun o => requestPrefix.toList.isPrefixOf o.key.toList),
      o.key.toList.head? ≠ some '/' := fun o ho => (hlayout o (List.mem_filter.mp ho).1).1
  cases settled with
  | none =>
    -- the loop read every page
    have hall : read = pages.flatMap (·.contents) := by simpa using hexh rfl
    dsimp only
    rw [List.append_nil, OrdSet.toList_empty, listObjectsDelegatedPage, listObjectsDelegatedPage]
    refine interleaveAndPaginate_congr_after (nodup_delegatedObjects _) (nodup_delegatedObjects _)
      (fun x hx => mem_delegatedObjects_congr ?_ hslashF ?_) maxKeys
    · intro o ho
      rw [hall, hcontents] at ho
      exact (hlayout o (List.mem_filter.mp ho).1).1
    · rw [filter_listedKey_eq hx, hall, hcontents]
  | some anchor =>
    obtain ⟨hanch, last, hlast, hpast⟩ := hset anchor rfl
    rw [OrdSet.toList_empty] at hanch
    dsimp only
    rw [hlast, Option.map_some, OrdSet.toList_empty, listObjectsDelegatedPage, listObjectsDelegatedPage]
    have hsplit : read ++ (pages.drop n).flatMap (·.contents) =
        bucket.filter fun o => requestPrefix.toList.isPrefixOf o.key.toList && afterToken token o.key := by
      rw [hn, ← List.flatMap_append, List.take_append_drop, hcontents]
    have hreadF : ∀ o ∈ read, o ∈ bucket.filter fun o => requestPrefix.toList.isPrefixOf o.key.toList := by
      intro o ho
      have hmem := List.mem_filter.mp (hsplit ▸ List.mem_append_left _ ho)
      rw [Bool.and_eq_true] at hmem
      exact List.mem_filter.mpr ⟨hmem.1, hmem.2.1⟩
    have hslash : ∀ o ∈ read ++ (confirmableCandidates anchor requestPrefix none (some last.key)).flatMap
        (probeHits bucket), o.key.toList.head? ≠ some '/' := by
      intro o ho
      rcases List.mem_append.mp ho with hr | hp
      · exact hslashF o (hreadF o hr)
      · exact (hlayout o (of_mem_probed hp).1).1
    obtain ⟨hmemA, below, hlen, hnd, hbelow⟩ := listAnchor_spec hanch
    obtain ⟨oa, hoa, hrefa, hlka, hta⟩ := exists_of_mem_anchorCandidates hmemA
    have hanchor : ¬ deltaSuffix <:+ anchor.toList := hlka ▸ not_suffix_listedKey oa
    -- the page is decided below the anchor, which both listings hold
    refine interleaveAndPaginate_congr_below (nodup_delegatedObjects _) (nodup_delegatedObjects _)
      (fun x hx hxa => ?_) ?_ ?_ (afterToken_of_getD_lt hta) ?_
    · rw [mem_delegatedObjects_iff, mem_delegatedObjects_iff,
        foldl_listedPairs_settled hsorted hlayout hsplit hanchor hlast hpast hx hxa]
    · obtain ⟨x, hx, hxa⟩ := listedKey_mem_delegatedObjects (List.mem_append_left _ hoa) (hslash oa
        (List.mem_append_left _ hoa)) hrefa
      exact ⟨x, hx, hxa.trans hlka⟩
    · obtain ⟨x, hx, hxa⟩ := listedKey_mem_delegatedObjects (hreadF oa hoa) (hslashF oa (hreadF oa hoa)) hrefa
      exact ⟨x, hx, hxa.trans hlka⟩
    · -- the `max_keys` candidates below the anchor are listed, each once
      rw [← hlen, ← List.length_map Prod.fst]
      refine (hnd.subperm fun v hv => ?_).length_le
      obtain ⟨hvc, hva⟩ := hbelow v hv
      obtain ⟨o, ho, href, hlk, ht⟩ := exists_of_mem_anchorCandidates hvc
      obtain ⟨x, hx, hxv⟩ := listedKey_mem_delegatedObjects (List.mem_append_left _ ho)
        (hslash o (List.mem_append_left _ ho)) href
      refine List.mem_map.mpr ⟨x, List.mem_filter.mpr ⟨hx, ?_⟩, hxv.trans hlk⟩
      rw [Bool.and_eq_true, hxv, hlk]
      exact ⟨afterToken_of_getD_lt ht, decide_eq_true hva⟩

theorem delegated_listing_agrees_docs :
    listObjectsDelegated 0
        [⟨"docs/a", 1, none, none⟩, ⟨"docs/b.delta", 2, none, none⟩, ⟨"docs/c", 3, none, none⟩]
        [⟨[⟨"docs/a", 1, none, none⟩, ⟨"docs/b.delta", 2, none, none⟩], []⟩,
          ⟨[⟨"docs/c", 3, none, none⟩], []⟩] "docs/" none 1 none =
      listObjectsDelegatedPage 0
        ([⟨"docs/a", 1, none, none⟩, ⟨"docs/b.delta", 2, none, none⟩, ⟨"docs/c", 3, none, none⟩].filter
          fun o : S3ListedObject => "docs/".toList.isPrefixOf o.key.toList) [] 1 none :=
  delegated_listing_agrees (by decide) (by unfold LayoutKey; decide) (by decide) (by decide)

end Agreement

end DeltaGlider.S3Backend
