import DeltaGlider.Storage.S3Listing
import DeltaGlider.Engine.ListObjects

/-!
# The delegated listing of the S3 backend

The end of `list_objects_delegated` of `src/storage/s3.rs`: the raw objects
that the upstream pages and the late-key probes returned are classified
(`Storage.S3Listing`), given lite metadata by `resolve_classified_lite`, and
paginated with the common prefixes by `interleave_and_paginate`, the helper
the bulk listing pages with too (`Engine.ListObjects`).  `list_objects`
returns this page as it is.

The upstream request carries the user's prefix, so every raw key starts with
it; the listing names each object by its user key, the raw key with the
`.delta` suffix cut.  `list_objects_bulk` keeps only the user keys that start
with the prefix; the delegated path keeps every classified key:

    delegated_lists_delta_key       a key stored as a delta is listed under its full key
                                    whenever its storage key is read, and that key is
                                    outside the request prefix exactly when the prefix
                                    ends inside the `.delta` suffix

so a LIST of "docs/v1.zip.d" over the stored delta "docs/v1.zip.delta"
returns "docs/v1.zip", which the bulk listing never returns
(`delegated_lists_delta_key_docs`).
-/

namespace DeltaGlider

open RustStd

namespace StorageInfo

/-- `StorageInfo::delta_stub`: a delta of which the listing knows the size
alone. -/
def deltaStub (deltaSize : Nat) : StorageInfo := .delta "" "" deltaSize ""

end StorageInfo

namespace S3Backend

/-! ## Algorithm -/

/-- `fallback_metadata_from_listing`, with the `Utc::now()` it reads: the
listing's size, etag and time, under the user key's last segment. -/
def fallbackMetadataFromListing (now : Int) (obj : S3ListedObject) (userKey : String)
    (storageInfo : StorageInfo) : FileMetadata :=
  FileMetadata.fallback (String.ofList (splitKey userKey.toList).2) obj.size (obj.etag.getD "")
    (obj.lastModified.getD now) none storageInfo

/-- `resolve_classified_lite`: the seeds (the directory markers) and the
classified entries with lite metadata, one per user key. -/
def resolveClassifiedLite (now : Int) (classified : List ClassifiedObject)
    (seedResults : List (String × FileMetadata)) : List (String × FileMetadata) :=
  let classifiedPairs := classified.map fun entry =>
    let storageInfo :=
      if deltaSuffix <:+ entry.s3Key.toList then StorageInfo.deltaStub entry.listingMeta.size
      else .passthrough
    (entry.userKey, fallbackMetadataFromListing now entry.listingMeta entry.userKey storageInfo)
  Engine.dedupKeepLatest (seedResults ++ classifiedPairs)

/-- The objects the delegated listing pages, from the raw objects it read. -/
def delegatedObjects (now : Int) (rawObjects : List S3ListedObject) : List (String × FileMetadata) :=
  let classified := classifyListedObjects now rawObjects
  resolveClassifiedLite now classified.1 classified.2

/-- The page `list_objects_delegated` answers once its reads are done: the
objects with the common prefixes it kept, paginated as one sorted list. -/
def listObjectsDelegatedPage (now : Int) (rawObjects : List S3ListedObject)
    (allCommonPrefixes : List String) (maxKeys : Nat) (continuationToken : Option String) :
    Engine.InterleavedPage FileMetadata :=
  Engine.interleaveAndPaginate (delegatedObjects now rawObjects) allCommonPrefixes maxKeys
    continuationToken

/-! ## Lemmas -/

section Objects

variable {now : Int} {raw : List S3ListedObject}

/-- `classify_listed_objects` sends each raw object to at most one vector. -/
theorem length_classifyListedObjects_le (now : Int) (raw : List S3ListedObject) :
    (classifyListedObjects now raw).1.length + (classifyListedObjects now raw).2.length ≤ raw.length := by
  induction raw with
  | nil => simp [classifyListedObjects]
  | cons obj raw ih =>
    simp only [classifyListedObjects, List.filterMap_cons] at ih ⊢
    by_cases hmarker : isDirectoryMarker obj = true
    · simp only [hmarker, if_true, List.length_cons]
      omega
    · simp only [hmarker, Bool.false_eq_true, if_false, List.length_cons]
      cases classifiedOf obj <;> simp <;> omega

theorem length_delegatedObjects_le (now : Int) (raw : List S3ListedObject) :
    (delegatedObjects now raw).length ≤ raw.length := by
  have hclassify := length_classifyListedObjects_le now raw
  refine Engine.length_dedupKeepLatest_le.trans ?_
  rw [List.length_append, List.length_map]
  omega

/-- An object no directory marker, that the classifier keeps, is classified. -/
theorem mem_classifyListedObjects_fst {obj : S3ListedObject} {c : ClassifiedObject} (hobj : obj ∈ raw)
    (hmarker : isDirectoryMarker obj = false) (hc : classifiedOf obj = some c) :
    c ∈ (classifyListedObjects now raw).1 :=
  List.mem_filterMap.mpr ⟨obj, hobj, by rw [hmarker, if_neg Bool.false_ne_true, hc]⟩

/-- The delegated listing names the seeds' keys and the classified user
keys, and no others. -/
theorem fst_mem_resolveClassifiedLite {classified : List ClassifiedObject}
    {seeds : List (String × FileMetadata)} {k : String} :
    k ∈ (resolveClassifiedLite now classified seeds).map Prod.fst ↔
      k ∈ seeds.map Prod.fst ∨ k ∈ classified.map (·.userKey) := by
  rw [resolveClassifiedLite, Engine.fst_mem_dedupKeepLatest, List.map_append, List.mem_append,
    List.map_map]
  rfl

/-- A page with room for every entry, read from the start, lists every
object. -/
theorem mem_interleaveAndPaginate_objects {O : Type*} {objects : List (String × O)}
    {commonPrefixes : List String} {maxKeys : Nat} (hroom : objects.length + commonPrefixes.length ≤ maxKeys)
    {item : String × O} :
    item ∈ (Engine.interleaveAndPaginate objects commonPrefixes maxKeys none).objects ↔ item ∈ objects := by
  have hlen : (Engine.interleavedEntries objects commonPrefixes).length ≤ maxKeys := by
    rw [Engine.interleavedEntries, List.length_mergeSort, List.length_append, List.length_map,
      List.length_map]
    exact hroom
  rw [Engine.interleaveAndPaginate_eq]
  show item ∈ ((Engine.interleavedEntries objects commonPrefixes).take maxKeys).filterMap _ ↔ _
  rw [List.take_of_length_le hlen]
  exact Engine.mem_filterMap_object?

end Objects

section Prefix

variable {now : Int}

/-- **A delta's user key may fall outside the request prefix.**  For every
key `validate_object` accepts and is stored as a delta, and every raw
listing that holds its storage key (what an upstream LIST of any prefix of
that key returns), the delegated listing lists the key's full key; and that
full key is outside the request prefix exactly when the prefix ends inside
the `.delta` suffix. -/
theorem delegated_lists_delta_key {o : ObjectKey} (ho : o.validateObject = .ok ())
    {obj : S3ListedObject} (hkey : obj.key = deltaKey o.prefixPath o.filename)
    {raw : List S3ListedObject} (hobj : obj ∈ raw) {pfx : String} (hpfx : pfx.toList <+: obj.key.toList) :
    o.fullKey ∈ (delegatedObjects now raw).map Prod.fst ∧
      (¬ pfx.toList <+: o.fullKey.toList ↔
        ∃ i, 0 < i ∧ i ≤ deltaSuffix.length ∧ pfx.toList = o.fullKey.toList ++ deltaSuffix.take i) := by
  obtain ⟨hmarker, hc⟩ := classifiedOf_deltaKey ho hkey
  refine ⟨?_, ?_⟩
  · -- the classifier keeps the object under the full key
    rw [delegatedObjects, fst_mem_resolveClassifiedLite]
    exact .inr (List.mem_map.mpr ⟨_, mem_classifyListedObjects_fst hobj hmarker hc, rfl⟩)
  · -- the storage key is the full key with the suffix
    rw [hkey, toList_deltaKey] at hpfx
    exact not_prefix_iff_of_prefix_append hpfx

/-- `docs/v1.zip`, stored as a delta, read by a LIST of `docs/v1.zip.d`:
the delegated page lists `docs/v1.zip`, outside the prefix, which the bulk
listing never returns whatever the storage's listing holds. -/
theorem delegated_lists_delta_key_docs :
    (ObjectKey.mk "docs" "v1.zip").validateObject = .ok () ∧
      (⟨"docs/v1.zip.delta", 10, none, none⟩ : S3ListedObject).key = deltaKey "docs" "v1.zip" ∧
      "docs/v1.zip.d".toList <+: "docs/v1.zip.delta".toList ∧
      ((ObjectKey.mk "docs" "v1.zip").fullKey ∈
          (delegatedObjects 0 [⟨"docs/v1.zip.delta", 10, none, none⟩]).map Prod.fst ∧
        (¬ "docs/v1.zip.d".toList <+: (ObjectKey.mk "docs" "v1.zip").fullKey.toList ↔
          ∃ i, 0 < i ∧ i ≤ deltaSuffix.length ∧
            "docs/v1.zip.d".toList = (ObjectKey.mk "docs" "v1.zip").fullKey.toList ++ deltaSuffix.take i)) ∧
      "docs/v1.zip" ∈
        (listObjectsDelegatedPage 0 [⟨"docs/v1.zip.delta", 10, none, none⟩] [] 1000 none).objects.map
          Prod.fst ∧
      ∀ bulk, "docs/v1.zip" ∉ (Engine.listedItems bulk "docs/v1.zip.d").map Prod.fst := by
  have ho : (ObjectKey.mk "docs" "v1.zip").validateObject = .ok () := by decide
  have hkey : (⟨"docs/v1.zip.delta", 10, none, none⟩ : S3ListedObject).key = deltaKey "docs" "v1.zip" := by
    decide
  have hpfx : "docs/v1.zip.d".toList <+: "docs/v1.zip.delta".toList := by decide
  have hlists := @delegated_lists_delta_key 0 _ ho _ hkey [⟨"docs/v1.zip.delta", 10, none, none⟩]
    List.mem_cons_self _ hpfx
  refine ⟨ho, hkey, hpfx, hlists, ?_, ?_⟩
  · -- one raw object, so the page has room for all of it
    have hroom : (delegatedObjects 0 [⟨"docs/v1.zip.delta", 10, none, none⟩]).length +
        ([] : List String).length ≤ 1000 :=
      (length_delegatedObjects_le 0 _).trans (by decide)
    obtain ⟨item, hitem, hk⟩ := List.mem_map.mp hlists.1
    exact List.mem_map.mpr ⟨item, (mem_interleaveAndPaginate_objects hroom).mpr hitem, hk⟩
  · -- every key the bulk listing keeps starts with the prefix
    intro bulk hmem
    obtain ⟨item, hitem, hk⟩ := List.mem_map.mp hmem
    have hunder := ((Engine.mem_listedItems bulk _).mp hitem).2
    rw [hk] at hunder
    exact absurd hunder (by decide)

end Prefix

end S3Backend

end DeltaGlider
