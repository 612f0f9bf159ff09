import DeltaGlider.Types
import DeltaGlider.Lib.RustStd
import DeltaGlider.Lib.Cursor

/-!
# Listing a bucket page by page

`list_objects_bulk` of `src/deltaglider/engine/mod.rs`, with the helpers it
calls: `paginate_sorted`, `interleave_and_paginate` and `dedup_keep_latest`
of `src/types.rs`.  The storage's bulk listing is the argument `bulk`, any
listing the backend may answer, and a client reads a bucket by
calling again with the page's `next_continuation_token` while the page is
truncated (`listAll`).  Keys compare as Lean strings, by code point, which is
the byte order Rust's `str` comparison uses on UTF-8.

Both branches of `list_objects_bulk` serve the cursor pages (`Cursor`) of one
list strictly sorted by key: the deduplicated objects under the prefix
without a delimiter, and with one the objects with no delimiter after the
prefix interleaved with the common prefixes the others roll up into.  So a
client that starts without a token stops within `bulk.length + 1` calls and
reads every listed object and every common prefix exactly once, in
increasing order, at most `max_keys` to a page (`list_objects_pages`).
-/

namespace DeltaGlider.Engine

open RustStd Cursor

/-! ## `dedup_keep_latest` -/

/-- The map `dedup_keep_latest` builds: the metadata kept for each key. -/
abbrev LatestMap := AList fun _ : String => FileMetadata

/-- One entry of `dedup_keep_latest`'s loop: it replaces the map's version of
its key only when it is strictly more recent. -/
def keepLatest (latest : LatestMap) (item : String × FileMetadata) : LatestMap :=
  match latest.lookup item.1 with
  | none => latest.insert item.1 item.2
  | some old => if old.createdAt < item.2.createdAt then latest.insert item.1 item.2 else latest

theorem keepLatest_of_lookup_none {latest : LatestMap} {item : String × FileMetadata}
    (h : latest.lookup item.1 = none) : keepLatest latest item = latest.insert item.1 item.2 := by
  delta keepLatest
  rw [h]

theorem keepLatest_of_lookup_some {latest : LatestMap} {item : String × FileMetadata} {old : FileMetadata}
    (h : latest.lookup item.1 = some old) :
    keepLatest latest item = if old.createdAt < item.2.createdAt then latest.insert item.1 item.2 else latest := by
  delta keepLatest
  rw [h]

/-- `dedup_keep_latest`: one entry per key, the one with the latest
`created_at` (the first of equally recent ones), sorted by key. -/
def dedupKeepLatest (items : List (String × FileMetadata)) : List (String × FileMetadata) :=
  ((items.foldl keepLatest ∅).entries.map fun e => (e.1, e.2)).mergeSort fun a b => a.1 ≤ b.1

/-! ## `paginate_sorted` and `interleave_and_paginate` -/

section Paginate

variable {T : Type*}

/-- `if let Some(token) = continuation_token { items.retain(|item|
sort_key(item).as_str() > token) }`, as both pagination helpers do it. -/
def retainAfter (sortKey : T → String) (continuationToken : Option String) (items : List T) :
    List T :=
  match continuationToken with
  | some token => items.filter fun item => token < sortKey item
  | none => items

/-- The cut both pagination helpers make after the retain: at most `maxKeys`
items, whether items were dropped, and the key of the last item kept when
they were. -/
def truncateToMaxKeys (items : List T) (maxKeys : Nat) (sortKey : T → String) :
    List T × Bool × Option String :=
  let isTruncated := decide (maxKeys < items.length)
  let items := if isTruncated then items.take maxKeys else items
  (items, isTruncated, if isTruncated then items.getLast?.map sortKey else none)

/-- `paginate_sorted`: the page of `items` after the continuation token, with
`(is_truncated, next_continuation_token)`. -/
def paginateSorted (items : List T) (maxKeys : Nat) (continuationToken : Option String)
    (sortKey : T → String) : List T × Bool × Option String :=
  truncateToMaxKeys (retainAfter sortKey continuationToken items) maxKeys sortKey

end Paginate

/-- `Entry` of `interleave_and_paginate`: an object or a common prefix. -/
inductive Entry (O : Type*) where
  | obj (key : String) (o : O)
  | commonPrefix (p : String)

namespace Entry

variable {O : Type*}

/-- The key an entry is listed under. -/
def key : Entry O → String
  | obj k _ => k
  | commonPrefix p => p

/-- The object of an `Entry::Obj`. -/
def object? : Entry O → Option (String × O)
  | obj k o => some (k, o)
  | commonPrefix _ => none

/-- The prefix of an `Entry::Prefix`. -/
def commonPrefix? : Entry O → Option String
  | obj _ _ => none
  | commonPrefix p => some p

end Entry

/-- `InterleavedPage`. -/
structure InterleavedPage (O : Type*) where
  objects : List (String × O)
  commonPrefixes : List String
  isTruncated : Bool
  nextContinuationToken : Option String

section Interleave

variable {O : Type*}

/-- The entries of `interleave_and_paginate` before the token: the objects,
then the common prefixes, each under its key, sorted by key (`sort_by` is
stable, as `mergeSort` is). -/
def interleavedEntries (objects : List (String × O)) (commonPrefixes : List String) :
    List (String × Entry O) :=
  (objects.map (fun o : String × O => (o.1, Entry.obj o.1 o.2)) ++
    commonPrefixes.map fun cp => (cp, Entry.commonPrefix cp)).mergeSort fun a b => a.1 ≤ b.1

/-- `interleave_and_paginate`: objects and common prefixes paginated as one
sorted list, then split back. -/
def interleaveAndPaginate (objects : List (String × O)) (commonPrefixes : List String)
    (maxKeys : Nat) (continuationToken : Option String) : InterleavedPage O :=
  let cut := truncateToMaxKeys
    (retainAfter Prod.fst continuationToken (interleavedEntries objects commonPrefixes)) maxKeys Prod.fst
  { objects := cut.1.filterMap (·.2.object?),
    commonPrefixes := cut.1.filterMap (·.2.commonPrefix?),
    isTruncated := cut.2.1,
    nextContinuationToken := cut.2.2 }

end Interleave

/-! ## `list_objects_bulk` -/

/-- `ListObjectsPage`. -/
structure ListObjectsPage where
  objects : List (String × FileMetadata)
  commonPrefixes : List String
  isTruncated : Bool
  nextContinuationToken : Option String

/-- The items `list_objects_bulk` pages: the deduplicated listing, kept to the
keys under the prefix when there is one. -/
def listedItems (bulk : List (String × FileMetadata)) (pfx : String) : List (String × FileMetadata) :=
  let items := dedupKeepLatest bulk
  if pfx.isEmpty then items else items.filter fun item => startsWith item.1 pfx

/-- The common prefix a key under `pfx` rolls up into: `pfx`, the key's text
after it up to the first `delim`, and `delim`; `none` when no `delim`
follows `pfx`. -/
def collapsedPrefix (pfx delim key : String) : Option String :=
  let after := key.toList.drop pfx.length
  (strFind after delim.toList).map fun pos => pfx ++ String.ofList (after.take pos) ++ delim

/-- One item of the delimiter loop: its key rolls up into a common prefix (a
`BTreeSet`), or it stays an object. -/
def collapseStep (pfx delim : String) (acc : List (String × FileMetadata) × OrdSet String)
    (item : String × FileMetadata) : List (String × FileMetadata) × OrdSet String :=
  match collapsedPrefix pfx delim item.1 with
  | some cp => (acc.1, acc.2.insert cp)
  | none => (acc.1 ++ [item], acc.2)

theorem collapseStep_of_some {pfx delim cp : String} {acc : List (String × FileMetadata) × OrdSet String}
    {item : String × FileMetadata} (h : collapsedPrefix pfx delim item.1 = some cp) :
    collapseStep pfx delim acc item = (acc.1, acc.2.insert cp) := by
  delta collapseStep
  rw [h]

theorem collapseStep_of_none {pfx delim : String} {acc : List (String × FileMetadata) × OrdSet String}
    {item : String × FileMetadata} (h : collapsedPrefix pfx delim item.1 = none) :
    collapseStep pfx delim acc item = (acc.1 ++ [item], acc.2) := by
  delta collapseStep
  rw [h]

/-- The delimiter loop of `list_objects_bulk`. -/
def collapse (pfx delim : String) (items : List (String × FileMetadata)) :
    List (String × FileMetadata) × OrdSet String :=
  items.foldl (collapseStep pfx delim) ([], OrdSet.empty)

/-- `list_objects_bulk` over the storage's listing `bulk`. -/
def listObjectsBulk (bulk : List (String × FileMetadata)) (pfx : String) (delimiter : Option String)
    (maxKeys : Nat) (continuationToken : Option String) : ListObjectsPage :=
  let items := listedItems bulk pfx
  match delimiter with
  | some delim =>
    let collapsed := collapse pfx delim items
    let page := interleaveAndPaginate collapsed.1 collapsed.2.toList maxKeys continuationToken
    { objects := page.objects, commonPrefixes := page.commonPrefixes,
      isTruncated := page.isTruncated, nextContinuationToken := page.nextContinuationToken }
  | none =>
    let page := paginateSorted items maxKeys continuationToken Prod.fst
    { objects := page.1, commonPrefixes := [], isTruncated := page.2.1,
      nextContinuationToken := page.2.2 }

/-- A client listing a bucket to the end: no continuation token first, then
the page's `next_continuation_token` while the page is truncated; `none` when
`fuel` calls were not enough. -/
def listAll (list : Option String → ListObjectsPage) (fuel : Nat) (token : Option String) :
    Option (List ListObjectsPage) :=
  follow list (·.isTruncated) (·.nextContinuationToken) fuel token

/-! ## What a listing is to hold -/

/-- The key is listed as an object: it is under `pfx` and, with a delimiter,
has none after `pfx`. -/
def IsObjectKey (pfx : String) (delimiter : Option String) (key : String) : Prop :=
  pfx.toList <+: key.toList ∧ ∀ delim ∈ delimiter, ¬ delim.toList <:+: key.toList.drop pfx.length

/-- `cp` is the common prefix `key` rolls up into: `pfx`, then the key's text
up to the first `delim` after `pfx`, then `delim`. -/
def RollsUpTo (pfx delim key cp : String) : Prop :=
  ∃ seg rest, key.toList = pfx.toList ++ seg ++ delim.toList ++ rest ∧
    ¬ delim.toList <:+: (seg ++ delim.toList).dropLast ∧ cp.toList = pfx.toList ++ seg ++ delim.toList

/-- The keys a page lists. -/
def ListObjectsPage.keys (p : ListObjectsPage) : List String := p.objects.map Prod.fst ++ p.commonPrefixes

/-- A complete listing of `bulk` under `pfx` and `delimiter`: pages of at most
`maxKeys` entries, every entry of a page below every entry of a later one, and
across the pages each deduplicated object key that is listed and each common
prefix exactly once, in increasing order. -/
structure ListsExactly (bulk : List (String × FileMetadata)) (pfx : String) (delimiter : Option String)
    (maxKeys : Nat) (pages : List ListObjectsPage) : Prop where
  page_size : ∀ p ∈ pages, p.objects.length + p.commonPrefixes.length ≤ maxKeys
  ordered : pages.Pairwise fun p q => ∀ a ∈ p.keys, ∀ b ∈ q.keys, a < b
  objects_sorted : (pages.flatMap (·.objects)).Pairwise fun a b => a.1 < b.1
  mem_objects : ∀ item, item ∈ pages.flatMap (·.objects) ↔
    item ∈ dedupKeepLatest bulk ∧ IsObjectKey pfx delimiter item.1
  prefixes_sorted : (pages.flatMap (·.commonPrefixes)).Pairwise (· < ·)
  mem_prefixes : ∀ cp, cp ∈ pages.flatMap (·.commonPrefixes) ↔
    ∃ delim ∈ delimiter, ∃ item ∈ dedupKeepLatest bulk, RollsUpTo pfx delim item.1 cp

/-! ## Deduplication -/

/-- What the map holds once the loop has seen `done`: every key seen, each
with a version seen that no version seen is more recent than. -/
structure LatestOf (done : List (String × FileMetadata)) (latest : LatestMap) : Prop where
  mem : ∀ k, k ∈ latest ↔ k ∈ done.map Prod.fst
  latest : ∀ k m, latest.lookup k = some m →
    (k, m) ∈ done ∧ ∀ m', (k, m') ∈ done → m'.createdAt ≤ m.createdAt

section Dedup

variable {done : List (String × FileMetadata)} {latest : LatestMap} {k₀ : String} {m₀ : FileMetadata}

theorem latestOf_nil : LatestOf [] ∅ :=
  ⟨fun k => by simp [AList.mem_keys], fun k m h => by rw [AList.lookup_empty] at h; cases h⟩

/-- Putting in a version at least as recent as every version of its key seen. -/
theorem LatestOf.insert (h : LatestOf done latest)
    (hmax : ∀ m', (k₀, m') ∈ done → m'.createdAt ≤ m₀.createdAt) :
    LatestOf (done ++ [(k₀, m₀)]) (latest.insert k₀ m₀) := by
  refine ⟨fun k => ?_, fun k m hm => ?_⟩
  · simp [AList.mem_insert, h.mem, or_comm]
  · by_cases hk : k = k₀
    · subst hk
      rw [AList.lookup_insert, Option.some_inj] at hm
      subst hm
      refine ⟨by simp, fun m' hm' => ?_⟩
      rcases List.mem_append.mp hm' with hd | hs
      · exact hmax m' hd
      · rw [List.mem_singleton, Prod.mk.injEq] at hs
        rw [hs.2]
    · rw [AList.lookup_insert_ne hk] at hm
      obtain ⟨hmem, hlatest⟩ := h.latest k m hm
      refine ⟨List.mem_append_left _ hmem, fun m' hm' => ?_⟩
      rcases List.mem_append.mp hm' with hd | hs
      · exact hlatest m' hd
      · rw [List.mem_singleton, Prod.mk.injEq] at hs
        exact absurd hs.1 hk

/-- Passing over a version no more recent than the one the map holds. -/
theorem LatestOf.keep (h : LatestOf done latest) {old : FileMetadata}
    (hlook : latest.lookup k₀ = some old) (hle : m₀.createdAt ≤ old.createdAt) :
    LatestOf (done ++ [(k₀, m₀)]) latest := by
  have hk₀ : k₀ ∈ done.map Prod.fst := (h.mem k₀).mp (AList.lookup_isSome.mp (by rw [hlook]; rfl))
  refine ⟨fun k => ?_, fun k m hm => ?_⟩
  · rw [h.mem, List.map_append, List.mem_append, List.map_singleton, List.mem_singleton]
    constructor
    · exact Or.inl
    · rintro (hk | rfl)
      · exact hk
      · exact hk₀
  · obtain ⟨hmem, hlatest⟩ := h.latest k m hm
    refine ⟨List.mem_append_left _ hmem, fun m' hm' => ?_⟩
    rcases List.mem_append.mp hm' with hd | hs
    · exact hlatest m' hd
    · rw [List.mem_singleton, Prod.mk.injEq] at hs
      obtain ⟨rfl, rfl⟩ := hs
      rw [hlook, Option.some_inj] at hm
      rw [← hm]
      exact hle

theorem LatestOf.step (h : LatestOf done latest) (item : String × FileMetadata) :
    LatestOf (done ++ [item]) (keepLatest latest item) := by
  obtain ⟨k₀, m₀⟩ := item
  cases hlook : latest.lookup k₀ with
  | none =>
    -- the key is new: no version of it was seen
    rw [keepLatest_of_lookup_none hlook]
    refine h.insert fun m' hm' => absurd ((h.mem k₀).mpr (List.mem_map.mpr ⟨_, hm', rfl⟩)) ?_
    rw [← AList.lookup_isSome, hlook]
    exact Bool.false_ne_true
  | some old =>
    obtain ⟨-, hold⟩ := h.latest k₀ old hlook
    rw [keepLatest_of_lookup_some hlook]
    split_ifs with hnewer
    · exact h.insert fun m' hm' => (hold m' hm').trans hnewer.le
    · exact h.keep hlook (not_lt.mp hnewer)

theorem latestOf_foldl (items : List (String × FileMetadata)) (h : LatestOf done latest) :
    LatestOf (done ++ items) (items.foldl keepLatest latest) := by
  induction items generalizing done latest with
  | nil => simpa using h
  | cons item items ih =>
    rw [List.foldl_cons, ← List.singleton_append, ← List.append_assoc]
    exact ih (h.step item)

theorem length_foldl_keepLatest (items : List (String × FileMetadata)) (latest : LatestMap) :
    (items.foldl keepLatest latest).entries.length ≤ latest.entries.length + items.length := by
  induction items generalizing latest with
  | nil => simp
  | cons item items ih =>
    -- one entry more at most: an insertion replaces any entry of its key
    have hstep : (keepLatest latest item).entries.length ≤ latest.entries.length + 1 := by
      have hins : (latest.insert item.1 item.2).entries.length ≤ latest.entries.length + 1 := by
        rw [AList.entries_insert, List.length_cons]
        exact Nat.succ_le_succ (List.kerase_sublist _ _).length_le
      cases hlook : latest.lookup item.1 with
      | none =>
        rw [keepLatest_of_lookup_none hlook]
        exact hins
      | some old =>
        rw [keepLatest_of_lookup_some hlook]
        split_ifs
        · exact hins
        · omega
    have := ih (keepLatest latest item)
    rw [List.foldl_cons, List.length_cons]
    omega

theorem lookup_keepLatest_of_ne {x : String × FileMetadata} {k : String} (hk : x.1 ≠ k) (m : LatestMap) :
    (keepLatest m x).lookup k = m.lookup k := by
  cases hlook : m.lookup x.1 with
  | none =>
    rw [keepLatest_of_lookup_none hlook]
    exact AList.lookup_insert_ne (Ne.symm hk)
  | some old =>
    rw [keepLatest_of_lookup_some hlook]
    split_ifs
    · exact AList.lookup_insert_ne (Ne.symm hk)
    · rfl

/-- A step answers for its own key from the map's answer for that key. -/
theorem lookup_keepLatest_congr (x : String × FileMetadata) {m₁ m₂ : LatestMap}
    (h : m₁.lookup x.1 = m₂.lookup x.1) : (keepLatest m₁ x).lookup x.1 = (keepLatest m₂ x).lookup x.1 := by
  cases h₂ : m₂.lookup x.1 with
  | none =>
    rw [h₂] at h
    rw [keepLatest_of_lookup_none h, keepLatest_of_lookup_none h₂, AList.lookup_insert, AList.lookup_insert]
  | some old =>
    rw [h₂] at h
    rw [keepLatest_of_lookup_some h, keepLatest_of_lookup_some h₂]
    split_ifs
    · rw [AList.lookup_insert, AList.lookup_insert]
    · rw [h, h₂]

/-- What the loop keeps for one key depends on that key's versions alone. -/
theorem lookup_foldl_keepLatest_filter (k : String) (items : List (String × FileMetadata))
    {m₁ m₂ : LatestMap} (h : m₁.lookup k = m₂.lookup k) :
    (items.foldl keepLatest m₁).lookup k =
      ((items.filter fun x => x.1 = k).foldl keepLatest m₂).lookup k := by
  induction items generalizing m₁ m₂ with
  | nil => exact h
  | cons x items ih =>
    rw [List.foldl_cons]
    by_cases hx : x.1 = k
    · rw [List.filter_cons_of_pos (by simpa using hx), List.foldl_cons]
      apply ih
      subst hx
      exact lookup_keepLatest_congr x h
    · rw [List.filter_cons_of_neg (by simpa using hx)]
      apply ih
      rw [lookup_keepLatest_of_ne hx, h]

/-- Versions already seen change nothing. -/
theorem foldl_keepLatest_of_mem (h : LatestOf done latest) {rest : List (String × FileMetadata)}
    (hmem : ∀ x ∈ rest, x ∈ done) : rest.foldl keepLatest latest = latest := by
  induction rest with
  | nil => rfl
  | cons x rest ih =>
    have hx := hmem x List.mem_cons_self
    obtain ⟨old, hold⟩ : ∃ old, latest.lookup x.1 = some old :=
      Option.isSome_iff_exists.mp (AList.lookup_isSome.mpr ((h.mem x.1).mpr (List.mem_map_of_mem hx)))
    -- the map holds a version of `x`'s key at least as recent as `x`
    have hle : x.2.createdAt ≤ old.createdAt := (h.latest x.1 old hold).2 x.2 hx
    have hkeep : keepLatest latest x = latest := by
      rw [keepLatest_of_lookup_some hold, if_neg (not_lt.mpr hle)]
    rw [List.foldl_cons, hkeep]
    exact ih fun y hy => hmem y (List.mem_cons_of_mem x hy)

/-- Two runs of the loop from one start that go on with copies of a single
version leave the same map, as long as one of them adds it only when the
start holds it or the other adds it too. -/
theorem foldl_keepLatest_append_congr {G H U : List (String × FileMetadata)}
    (hsame : ∀ x ∈ H ++ U, ∀ y ∈ H ++ U, x = y) (hUH : U ≠ [] → H ≠ [])
    (hHG : U = [] → ∀ x ∈ H, x ∈ G) :
    (G ++ H).foldl keepLatest ∅ = (G ++ U).foldl keepLatest ∅ := by
  have hG := latestOf_foldl G latestOf_nil
  rw [List.nil_append] at hG
  cases H with
  | nil =>
    cases U with
    | nil => rfl
    | cons y U => exact absurd rfl (hUH (List.cons_ne_nil y U))
  | cons x H =>
    cases U with
    | nil =>
      -- every copy is in the start already
      rw [List.append_nil, List.foldl_append, foldl_keepLatest_of_mem hG (hHG rfl)]
    | cons y U =>
      -- both add the version once, then only copies of it
      have hyx : y = x := hsame y (by simp) x (by simp)
      subst hyx
      have hGy := latestOf_foldl (G ++ [y]) latestOf_nil
      rw [List.nil_append] at hGy
      have hcopy : ∀ z ∈ (y :: H) ++ (y :: U), z ∈ G ++ [y] := fun z hz => by
        rw [hsame z hz y (by simp)]
        simp
      have hH : ∀ z ∈ H, z ∈ G ++ [y] := fun z hz => hcopy z (by simp [hz])
      have hU : ∀ z ∈ U, z ∈ G ++ [y] := fun z hz => hcopy z (by simp [hz])
      calc (G ++ y :: H).foldl keepLatest ∅
          = H.foldl keepLatest ((G ++ [y]).foldl keepLatest ∅) := by simp
        _ = (G ++ [y]).foldl keepLatest ∅ := foldl_keepLatest_of_mem hGy hH
        _ = U.foldl keepLatest ((G ++ [y]).foldl keepLatest ∅) := (foldl_keepLatest_of_mem hGy hU).symm
        _ = (G ++ y :: U).foldl keepLatest ∅ := by simp

end Dedup

section DedupKeepLatest

variable {items : List (String × FileMetadata)} {item : String × FileMetadata}

theorem mem_dedupKeepLatest_iff :
    item ∈ dedupKeepLatest items ↔ (items.foldl keepLatest ∅).lookup item.1 = some item.2 := by
  rw [dedupKeepLatest, List.mem_mergeSort, ← Option.mem_def, AList.mem_lookup_iff, List.mem_map]
  constructor
  · rintro ⟨⟨k, m⟩, he, rfl⟩
    exact he
  · intro he
    exact ⟨_, he, rfl⟩

/-- Which version `dedup_keep_latest` keeps: one listed, and no version of its
key in the listing is more recent. -/
theorem dedupKeepLatest_latest (h : item ∈ dedupKeepLatest items) :
    item ∈ items ∧ ∀ m', (item.1, m') ∈ items → m'.createdAt ≤ item.2.createdAt := by
  have hlatest := (latestOf_foldl items latestOf_nil).latest item.1 item.2 (mem_dedupKeepLatest_iff.mp h)
  simpa using hlatest

/-- Every key of the listing is kept, and no other. -/
theorem fst_mem_dedupKeepLatest {k : String} :
    k ∈ (dedupKeepLatest items).map Prod.fst ↔ k ∈ items.map Prod.fst := by
  have hof := latestOf_foldl items latestOf_nil
  rw [List.nil_append] at hof
  rw [← hof.mem k, ← AList.lookup_isSome, Option.isSome_iff_exists]
  simp only [List.mem_map, mem_dedupKeepLatest_iff]
  constructor
  · rintro ⟨⟨k', m⟩, hm, rfl⟩
    exact ⟨m, hm⟩
  · rintro ⟨m, hm⟩
    exact ⟨(k, m), hm, rfl⟩

theorem keySorted_dedupKeepLatest : KeySorted Prod.fst (dedupKeepLatest items) := by
  apply keySorted_mergeSort
  -- the keys listed are the map's keys, which it holds once each
  have hkeys : ((items.foldl keepLatest ∅).entries.map fun e => (e.1, e.2)).map Prod.fst =
      (items.foldl keepLatest ∅).keys := by
    rw [List.map_map]
    rfl
  rw [hkeys]
  exact (items.foldl keepLatest ∅).nodupKeys

theorem length_dedupKeepLatest_le : (dedupKeepLatest items).length ≤ items.length := by
  have h := length_foldl_keepLatest items ∅
  rw [dedupKeepLatest, List.length_mergeSort, List.length_map]
  simpa using h

end DedupKeepLatest

/-! ## The pagination helpers serve cursor pages -/

section Pages

variable {T : Type*} (sortKey : T → String) (maxKeys : Nat) (token : Option String) (items : List T)

theorem retainAfter_eq : retainAfter sortKey token items = after sortKey token items := by
  cases token <;> rfl

theorem truncateToMaxKeys_after :
    truncateToMaxKeys (after sortKey token items) maxKeys sortKey =
      (page sortKey maxKeys token items, decide (maxKeys < (after sortKey token items).length),
        next sortKey maxKeys token items) := by
  by_cases h : maxKeys < (after sortKey token items).length
  · simp [truncateToMaxKeys, page, next, h]
  · simp [truncateToMaxKeys, page, next, h, List.take_of_length_le (not_lt.mp h)]

theorem paginateSorted_eq :
    paginateSorted items maxKeys token sortKey =
      (page sortKey maxKeys token items, decide (maxKeys < (after sortKey token items).length),
        next sortKey maxKeys token items) := by
  rw [paginateSorted, retainAfter_eq, truncateToMaxKeys_after]

end Pages

section Entries

variable {O : Type*} {objects : List (String × O)} {commonPrefixes : List String}

theorem interleaveAndPaginate_eq (maxKeys : Nat) (token : Option String) :
    interleaveAndPaginate objects commonPrefixes maxKeys token =
      { objects := (page Prod.fst maxKeys token (interleavedEntries objects commonPrefixes)).filterMap
          (·.2.object?),
        commonPrefixes := (page Prod.fst maxKeys token (interleavedEntries objects commonPrefixes)).filterMap
          (·.2.commonPrefix?),
        isTruncated := decide (maxKeys < (after Prod.fst token (interleavedEntries objects commonPrefixes)).length),
        nextContinuationToken := next Prod.fst maxKeys token (interleavedEntries objects commonPrefixes) } := by
  rw [interleaveAndPaginate, retainAfter_eq, truncateToMaxKeys_after]

theorem mem_interleavedEntries {e : String × Entry O} :
    e ∈ interleavedEntries objects commonPrefixes ↔
      (∃ o ∈ objects, e = (o.1, .obj o.1 o.2)) ∨ ∃ cp ∈ commonPrefixes, e = (cp, .commonPrefix cp) := by
  simp only [interleavedEntries, List.mem_mergeSort, List.mem_append, List.mem_map]
  constructor
  · rintro (⟨o, ho, rfl⟩ | ⟨cp, hcp, rfl⟩)
    · exact .inl ⟨o, ho, rfl⟩
    · exact .inr ⟨cp, hcp, rfl⟩
  · rintro (⟨o, ho, rfl⟩ | ⟨cp, hcp, rfl⟩)
    · exact .inl ⟨o, ho, rfl⟩
    · exact .inr ⟨cp, hcp, rfl⟩

/-- Every entry is filed under its own key. -/
theorem fst_eq_key_of_mem {e : String × Entry O} (h : e ∈ interleavedEntries objects commonPrefixes) :
    e.1 = e.2.key := by
  rcases mem_interleavedEntries.mp h with ⟨o, -, rfl⟩ | ⟨cp, -, rfl⟩ <;> rfl

theorem mem_filterMap_object? {item : String × O} :
    item ∈ (interleavedEntries objects commonPrefixes).filterMap (·.2.object?) ↔ item ∈ objects := by
  rw [List.mem_filterMap]
  constructor
  · rintro ⟨e, he, hobj⟩
    rcases mem_interleavedEntries.mp he with ⟨o, ho, rfl⟩ | ⟨cp, -, rfl⟩
    · cases hobj
      exact ho
    · cases hobj
  · intro h
    exact ⟨_, mem_interleavedEntries.mpr (.inl ⟨item, h, rfl⟩), rfl⟩

theorem mem_filterMap_commonPrefix? {cp : String} :
    cp ∈ (interleavedEntries objects commonPrefixes).filterMap (·.2.commonPrefix?) ↔ cp ∈ commonPrefixes := by
  rw [List.mem_filterMap]
  constructor
  · rintro ⟨e, he, hcp⟩
    rcases mem_interleavedEntries.mp he with ⟨o, -, rfl⟩ | ⟨cp', hcp', rfl⟩
    · cases hcp
    · cases hcp
      exact hcp'
  · intro h
    exact ⟨_, mem_interleavedEntries.mpr (.inr ⟨cp, h, rfl⟩), rfl⟩

/-- A page's entries split into its objects and its common prefixes. -/
theorem length_filterMap_split (seg : List (String × Entry O)) :
    (seg.filterMap (·.2.object?)).length + (seg.filterMap (·.2.commonPrefix?)).length = seg.length := by
  induction seg with
  | nil => rfl
  | cons e seg ih =>
    obtain ⟨k, _ | _⟩ := e <;>
      simp only [List.filterMap_cons, Entry.object?.eq_1, Entry.object?.eq_2, Entry.commonPrefix?.eq_1,
        Entry.commonPrefix?.eq_2, List.length_cons] <;> omega

theorem key_eq_of_object? {e : Entry O} {item : String × O} (h : e.object? = some item) :
    item.1 = e.key := by
  cases e with
  | obj k o => cases h; rfl
  | commonPrefix p => cases h

theorem key_eq_of_commonPrefix? {e : Entry O} {cp : String} (h : e.commonPrefix? = some cp) :
    cp = e.key := by
  cases e with
  | obj k o => cases h
  | commonPrefix p => cases h; rfl

/-- With no key twice, the interleaved entries are strictly sorted. -/
theorem keySorted_interleavedEntries (hobjects : (objects.map Prod.fst).Nodup) (hprefixes : commonPrefixes.Nodup)
    (hdisjoint : ∀ o ∈ objects, o.1 ∉ commonPrefixes) :
    KeySorted Prod.fst (interleavedEntries objects commonPrefixes) := by
  apply keySorted_mergeSort
  have hkeys : ((objects.map fun o : String × O => (o.1, Entry.obj o.1 o.2)) ++
      commonPrefixes.map fun cp => (cp, (Entry.commonPrefix cp : Entry O))).map Prod.fst =
      objects.map Prod.fst ++ commonPrefixes := by
    simp [Function.comp_def]
  rw [hkeys, List.nodup_append]
  refine ⟨hobjects, hprefixes, fun a ha b hb hab => ?_⟩
  obtain ⟨o, ho, rfl⟩ := List.mem_map.mp ha
  exact hdisjoint o ho (hab ▸ hb)

/-- Sorted by the first component, the entries are sorted by their keys. -/
theorem pairwise_key_of_keySorted (hs : KeySorted Prod.fst (interleavedEntries objects commonPrefixes)) :
    (interleavedEntries objects commonPrefixes).Pairwise fun a b => a.2.key < b.2.key :=
  hs.imp_of_mem fun ha hb h => by rwa [← fst_eq_key_of_mem ha, ← fst_eq_key_of_mem hb]

end Entries

/-! ## The delimiter loop -/

section Collapse

variable {pfx delim : String}

theorem collapse_fst_foldl (items : List (String × FileMetadata))
    (acc : List (String × FileMetadata) × OrdSet String) :
    (items.foldl (collapseStep pfx delim) acc).1 =
      acc.1 ++ items.filter fun item => (collapsedPrefix pfx delim item.1).isNone := by
  induction items generalizing acc with
  | nil => simp
  | cons item items ih =>
    rw [List.foldl_cons, ih]
    cases h : collapsedPrefix pfx delim item.1 with
    | none => simp [collapseStep_of_none h, h]
    | some cp => simp [collapseStep_of_some h, h]

theorem mem_collapse_snd_foldl (items : List (String × FileMetadata))
    (acc : List (String × FileMetadata) × OrdSet String) {cp : String} :
    cp ∈ (items.foldl (collapseStep pfx delim) acc).2.toList ↔
      cp ∈ acc.2.toList ∨ ∃ item ∈ items, collapsedPrefix pfx delim item.1 = some cp := by
  induction items generalizing acc with
  | nil => simp
  | cons item items ih =>
    rw [List.foldl_cons, ih]
    cases h : collapsedPrefix pfx delim item.1 with
    | none => simp [collapseStep_of_none h, h]
    | some cp' =>
      simp only [collapseStep_of_some h, h, OrdSet.mem_insert, List.mem_cons, exists_eq_or_imp, Option.some_inj]
      tauto

theorem length_collapse_foldl (items : List (String × FileMetadata))
    (acc : List (String × FileMetadata) × OrdSet String) :
    (items.foldl (collapseStep pfx delim) acc).1.length + (items.foldl (collapseStep pfx delim) acc).2.toList.length ≤
      acc.1.length + acc.2.toList.length + items.length := by
  induction items generalizing acc with
  | nil => simp
  | cons item items ih =>
    rw [List.foldl_cons]
    refine (ih _).trans ?_
    -- each item adds an object or at most one common prefix
    have hstep : (collapseStep pfx delim acc item).1.length + (collapseStep pfx delim acc item).2.toList.length ≤
        acc.1.length + acc.2.toList.length + 1 := by
      cases h : collapsedPrefix pfx delim item.1 with
      | none => simp [collapseStep_of_none h]; omega
      | some cp =>
        simp only [collapseStep_of_some h]
        have := OrdSet.length_insert_le cp acc.2
        omega
    rw [List.length_cons]
    omega

theorem collapse_fst (items : List (String × FileMetadata)) :
    (collapse pfx delim items).1 = items.filter fun item => (collapsedPrefix pfx delim item.1).isNone := by
  rw [collapse, collapse_fst_foldl, List.nil_append]

theorem mem_collapse_snd {items : List (String × FileMetadata)} {cp : String} :
    cp ∈ (collapse pfx delim items).2.toList ↔ ∃ item ∈ items, collapsedPrefix pfx delim item.1 = some cp := by
  rw [collapse, mem_collapse_snd_foldl]
  simp

theorem length_collapse_le (items : List (String × FileMetadata)) :
    (collapse pfx delim items).1.length + (collapse pfx delim items).2.toList.length ≤ items.length := by
  have h : (collapse pfx delim items).1.length + (collapse pfx delim items).2.toList.length ≤
      ([] : List (String × FileMetadata)).length + (OrdSet.empty : OrdSet String).toList.length + items.length :=
    length_collapse_foldl items ([], OrdSet.empty)
  simpa using h

end Collapse

/-! ## Keys, objects and common prefixes -/

section Keys

variable {pfx delim key cp : String}

theorem toList_eq_of_prefix (h : pfx.toList <+: key.toList) :
    key.toList = pfx.toList ++ key.toList.drop pfx.length := by
  have htake := List.prefix_iff_eq_take.mp h
  rw [String.length_toList] at htake
  conv_lhs => rw [← List.take_append_drop pfx.length key.toList]
  rw [← htake]

theorem RollsUpTo.under (h : RollsUpTo pfx delim key cp) : pfx.toList <+: key.toList := by
  obtain ⟨seg, rest, hk, -, -⟩ := h
  rw [hk, List.append_assoc, List.append_assoc]
  exact List.prefix_append _ _

/-- A common prefix holds the delimiter after the prefix. -/
theorem infix_drop_of_rollsUpTo (h : RollsUpTo pfx delim key cp) :
    delim.toList <:+: cp.toList.drop pfx.length := by
  obtain ⟨seg, rest, -, -, hcp⟩ := h
  rw [hcp, List.append_assoc, ← String.length_toList, List.drop_left]
  exact (List.suffix_append seg _).isInfix

theorem collapsedPrefix_eq_none_iff :
    collapsedPrefix pfx delim key = none ↔ ¬ delim.toList <:+: key.toList.drop pfx.length := by
  simp only [collapsedPrefix, Option.map_eq_none_iff, strFind_eq_none_iff]

/-- The common prefix the delimiter loop computes is the one the key rolls up
into. -/
theorem collapsedPrefix_eq_some_iff (hdelim : delim ≠ "") (hpre : pfx.toList <+: key.toList) :
    collapsedPrefix pfx delim key = some cp ↔ RollsUpTo pfx delim key cp := by
  have hd : delim.toList ≠ [] := fun h => hdelim (String.toList_eq_nil_iff.mp h)
  have hkey := toList_eq_of_prefix hpre
  constructor
  · intro h
    simp only [collapsedPrefix, Option.map_eq_some_iff] at h
    obtain ⟨pos, hpos, rfl⟩ := h
    obtain ⟨seg, rest, hafter, rfl, hfirst⟩ := strFind_eq_some hd hpos
    refine ⟨seg, rest, by rw [hkey, hafter]; simp only [List.append_assoc], hfirst, ?_⟩
    rw [hafter, List.append_assoc, List.take_left]
    simp only [String.toList_append, String.toList_ofList]
  · rintro ⟨seg, rest, hk, hfirst, hcp⟩
    have hafter : key.toList.drop pfx.length = seg ++ delim.toList ++ rest := by
      rw [hk, List.append_assoc, List.append_assoc, ← String.length_toList, List.drop_left, List.append_assoc]
    simp only [collapsedPrefix, hafter, strFind_append hd hfirst, Option.map_some, Option.some_inj]
    rw [List.append_assoc, List.take_left, ← String.toList_inj, hcp]
    simp only [String.toList_append, String.toList_ofList]

end Keys

section Listing

variable (bulk : List (String × FileMetadata)) (pfx : String)

theorem mem_listedItems {item : String × FileMetadata} :
    item ∈ listedItems bulk pfx ↔ item ∈ dedupKeepLatest bulk ∧ pfx.toList <+: item.1.toList := by
  unfold listedItems
  by_cases h : pfx.isEmpty
  · obtain rfl : pfx = "" := String.isEmpty_iff.mp h
    simp
  · simp [h, startsWith_iff]

theorem listedItems_sublist : (listedItems bulk pfx).Sublist (dedupKeepLatest bulk) := by
  unfold listedItems
  split
  · exact List.Sublist.refl _
  · exact List.filter_sublist

theorem keySorted_listedItems : KeySorted Prod.fst (listedItems bulk pfx) :=
  keySorted_dedupKeepLatest.sublist (listedItems_sublist bulk pfx)

theorem length_listedItems_le : (listedItems bulk pfx).length ≤ bulk.length :=
  (listedItems_sublist bulk pfx).length_le.trans length_dedupKeepLatest_le

/-- The entries `list_objects_bulk` pages with a delimiter. -/
def delimitedEntries (delim : String) : List (String × Entry FileMetadata) :=
  interleavedEntries (collapse pfx delim (listedItems bulk pfx)).1 (collapse pfx delim (listedItems bulk pfx)).2.toList

/-- With a delimiter, objects have none after the prefix and common prefixes
have one, so no key is listed twice. -/
theorem keySorted_delimitedEntries {delim : String} (hdelim : delim ≠ "") :
    KeySorted Prod.fst (delimitedEntries bulk pfx delim) := by
  refine keySorted_interleavedEntries ?_ (OrdSet.nodup _) ?_
  · rw [collapse_fst]
    exact ((keySorted_listedItems bulk pfx).sublist List.filter_sublist).nodup
  · intro o ho hcp
    rw [collapse_fst, List.mem_filter, Option.isNone_iff_eq_none] at ho
    obtain ⟨item, hitem, hroll⟩ := mem_collapse_snd.mp hcp
    have hroll' := (collapsedPrefix_eq_some_iff hdelim ((mem_listedItems bulk pfx).mp hitem).2).mp hroll
    exact collapsedPrefix_eq_none_iff.mp ho.2 (infix_drop_of_rollsUpTo hroll')

theorem length_delimitedEntries_le (delim : String) : (delimitedEntries bulk pfx delim).length ≤ bulk.length := by
  rw [delimitedEntries, interleavedEntries, List.length_mergeSort, List.length_append, List.length_map,
    List.length_map]
  exact (length_collapse_le _).trans (length_listedItems_le bulk pfx)

variable (maxKeys : Nat)

/-- With a delimiter, a call answers the cursor page of the interleaved
entries, split into objects and common prefixes. -/
theorem listObjectsBulk_some (delim : String) (token : Option String) :
    listObjectsBulk bulk pfx (some delim) maxKeys token =
      { objects := (page Prod.fst maxKeys token (delimitedEntries bulk pfx delim)).filterMap (·.2.object?),
        commonPrefixes := (page Prod.fst maxKeys token (delimitedEntries bulk pfx delim)).filterMap
          (·.2.commonPrefix?),
        isTruncated := decide (maxKeys < (after Prod.fst token (delimitedEntries bulk pfx delim)).length),
        nextContinuationToken := next Prod.fst maxKeys token (delimitedEntries bulk pfx delim) } := by
  simp only [listObjectsBulk, interleaveAndPaginate_eq]
  rfl

/-- Without a delimiter, a call answers the cursor page of the listed items. -/
theorem listObjectsBulk_none (token : Option String) :
    listObjectsBulk bulk pfx none maxKeys token =
      { objects := page Prod.fst maxKeys token (listedItems bulk pfx), commonPrefixes := [],
        isTruncated := decide (maxKeys < (after Prod.fst token (listedItems bulk pfx)).length),
        nextContinuationToken := next Prod.fst maxKeys token (listedItems bulk pfx) } := by
  simp only [listObjectsBulk, paginateSorted_eq]

theorem listAll_some_eq (delim : String) (fuel : Nat) (token : Option String) :
    listAll (listObjectsBulk bulk pfx (some delim) maxKeys) fuel token =
      (cursors Prod.fst maxKeys (delimitedEntries bulk pfx delim) fuel token).map
        (·.map (listObjectsBulk bulk pfx (some delim) maxKeys)) :=
  follow_eq_cursors (fun t => by rw [listObjectsBulk_some]) (fun t => by rw [listObjectsBulk_some]) fuel token

theorem listAll_none_eq (fuel : Nat) (token : Option String) :
    listAll (listObjectsBulk bulk pfx none maxKeys) fuel token =
      (cursors Prod.fst maxKeys (listedItems bulk pfx) fuel token).map (·.map (listObjectsBulk bulk pfx none maxKeys)) :=
  follow_eq_cursors (fun t => by rw [listObjectsBulk_none]) (fun t => by rw [listObjectsBulk_none]) fuel token

end Listing

/-! ## A client reads the whole listing -/

/-- With a delimiter: every page is the split of a cursor page of the
interleaved entries, and the cursor pages put back together are those
entries. -/
theorem listAll_delimited (bulk : List (String × FileMetadata)) (pfx delim : String) (maxKeys : Nat)
    (hdelim : delim ≠ "") (hmax : 0 < maxKeys) :
    ∃ pages, listAll (listObjectsBulk bulk pfx (some delim) maxKeys) (bulk.length + 1) none = some pages ∧
      ListsExactly bulk pfx (some delim) maxKeys pages := by
  have hs := keySorted_delimitedEntries bulk pfx hdelim
  have hkey := pairwise_key_of_keySorted hs
  obtain ⟨ts, hts, hflat⟩ := cursors_flatten hs hmax (bulk.length + 1) none
    (Nat.lt_succ_of_le (length_delimitedEntries_le bulk pfx delim))
  rw [after_none] at hflat
  refine ⟨ts.map (listObjectsBulk bulk pfx (some delim) maxKeys), by rw [listAll_some_eq, hts]; rfl, ?_⟩
  have hpage := listObjectsBulk_some bulk pfx maxKeys delim
  -- across the pages, the objects and the common prefixes are those of the entries
  have hobjects : (ts.map (listObjectsBulk bulk pfx (some delim) maxKeys)).flatMap (·.objects) =
      (delimitedEntries bulk pfx delim).filterMap (·.2.object?) := by
    rw [← hflat, List.filterMap_flatten, List.flatMap_map, List.flatMap_def, List.map_map]
    simp only [hpage]
    rfl
  have hprefixes : (ts.map (listObjectsBulk bulk pfx (some delim) maxKeys)).flatMap (·.commonPrefixes) =
      (delimitedEntries bulk pfx delim).filterMap (·.2.commonPrefix?) := by
    rw [← hflat, List.filterMap_flatten, List.flatMap_map, List.flatMap_def, List.map_map]
    simp only [hpage]
    rfl
  -- a key a page lists is the key of one of its cursor page's entries
  have hkeys : ∀ t, ∀ a ∈ (listObjectsBulk bulk pfx (some delim) maxKeys t).keys,
      ∃ e ∈ page Prod.fst maxKeys t (delimitedEntries bulk pfx delim), e.2.key = a := by
    intro t a ha
    rw [hpage, ListObjectsPage.keys, List.mem_append, List.mem_map] at ha
    rcases ha with ⟨item, hitem, rfl⟩ | hcp
    · obtain ⟨e, he, hobj⟩ := List.mem_filterMap.mp hitem
      exact ⟨e, he, (key_eq_of_object? hobj).symm⟩
    · obtain ⟨e, he, hcp'⟩ := List.mem_filterMap.mp hcp
      exact ⟨e, he, (key_eq_of_commonPrefix? hcp').symm⟩
  refine ⟨?_, ?_, ?_, ?_, ?_, ?_⟩
  · intro p hp
    obtain ⟨t, -, rfl⟩ := List.mem_map.mp hp
    rw [hpage]
    dsimp only
    rw [length_filterMap_split]
    exact length_page_le
  · have hord : (ts.map fun t => page Prod.fst maxKeys t (delimitedEntries bulk pfx delim)).Pairwise
        fun p q => ∀ a ∈ p, ∀ b ∈ q, a.2.key < b.2.key :=
      pages_ordered (by rw [hflat]; exact hkey)
    rw [List.pairwise_map] at hord ⊢
    refine hord.imp fun h a ha b hb => ?_
    obtain ⟨e, he, rfl⟩ := hkeys _ a ha
    obtain ⟨e', he', rfl⟩ := hkeys _ b hb
    exact h e he e' he'
  · rw [hobjects]
    exact hkey.filterMap _ fun a a' h b hb b' hb' => by
      rw [key_eq_of_object? hb, key_eq_of_object? hb']
      exact h
  · intro item
    rw [hobjects, delimitedEntries, mem_filterMap_object?, collapse_fst, List.mem_filter, mem_listedItems,
      Option.isNone_iff_eq_none, collapsedPrefix_eq_none_iff]
    simp [IsObjectKey, and_assoc]
  · rw [hprefixes]
    exact hkey.filterMap _ fun a a' h b hb b' hb' => by
      rw [key_eq_of_commonPrefix? hb, key_eq_of_commonPrefix? hb']
      exact h
  · intro cp
    rw [hprefixes, delimitedEntries, mem_filterMap_commonPrefix?, mem_collapse_snd]
    constructor
    · rintro ⟨item, hitem, hroll⟩
      have hmem := (mem_listedItems bulk pfx).mp hitem
      exact ⟨delim, rfl, item, hmem.1, (collapsedPrefix_eq_some_iff hdelim hmem.2).mp hroll⟩
    · rintro ⟨d, hd, item, hitem, hroll⟩
      obtain rfl : d = delim := (Option.some_inj.mp (Option.mem_def.mp hd)).symm
      exact ⟨item, (mem_listedItems bulk pfx).mpr ⟨hitem, hroll.under⟩,
        (collapsedPrefix_eq_some_iff hdelim hroll.under).mpr hroll⟩

/-- Without a delimiter: every page is a cursor page of the listed items. -/
theorem listAll_undelimited (bulk : List (String × FileMetadata)) (pfx : String) (maxKeys : Nat)
    (hmax : 0 < maxKeys) :
    ∃ pages, listAll (listObjectsBulk bulk pfx none maxKeys) (bulk.length + 1) none = some pages ∧
      ListsExactly bulk pfx none maxKeys pages := by
  have hs := keySorted_listedItems bulk pfx
  obtain ⟨ts, hts, hflat⟩ := cursors_flatten hs hmax (bulk.length + 1) none
    (Nat.lt_succ_of_le (length_listedItems_le bulk pfx))
  rw [after_none] at hflat
  refine ⟨ts.map (listObjectsBulk bulk pfx none maxKeys), by rw [listAll_none_eq, hts]; rfl, ?_⟩
  have hpage := listObjectsBulk_none bulk pfx maxKeys
  have hobjects : (ts.map (listObjectsBulk bulk pfx none maxKeys)).flatMap (·.objects) = listedItems bulk pfx := by
    rw [← hflat, List.flatMap_map, List.flatMap_def]
    simp only [hpage]
  have hprefixes : (ts.map (listObjectsBulk bulk pfx none maxKeys)).flatMap (·.commonPrefixes) = [] := by
    simp [hpage]
  refine ⟨?_, ?_, ?_, ?_, ?_, ?_⟩
  · intro p hp
    obtain ⟨t, -, rfl⟩ := List.mem_map.mp hp
    rw [hpage]
    simpa using length_page_le
  · have hord : (ts.map fun t => page Prod.fst maxKeys t (listedItems bulk pfx)).Pairwise
        fun p q => ∀ a ∈ p, ∀ b ∈ q, a.1 < b.1 :=
      pages_ordered (by rw [hflat]; exact hs)
    rw [List.pairwise_map] at hord ⊢
    refine hord.imp fun h a ha b hb => ?_
    rw [hpage, ListObjectsPage.keys, List.append_nil, List.mem_map] at ha hb
    obtain ⟨x, hx, rfl⟩ := ha
    obtain ⟨y, hy, rfl⟩ := hb
    exact h x hx y hy
  · rw [hobjects]
    exact hs
  · intro item
    rw [hobjects, mem_listedItems]
    simp [IsObjectKey]
  · rw [hprefixes]
    exact List.Pairwise.nil
  · intro cp
    rw [hprefixes]
    simp

end DeltaGlider.Engine
