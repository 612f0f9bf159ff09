import DeltaGlider.Types
import DeltaGlider.Lib.RustStd
import DeltaGlider.Lib.CivilTime

/-!
# The S3 header codec of object metadata

`FileMetadata::to_bare_metadata_map` of `src/types.rs` writes one flat map:
the `dg-*` fields, `content-type`, and every user entry under `user-{key}`.
`S3Backend::headers_to_metadata` of `src/storage/s3.rs` reads it back: each
field is looked up under its canonical key and then its legacy aliases,
empty values are skipped, and the storage variant is inferred from
`dg-note` and from whether a ref path is present.  `created_at`, an instant
in nanoseconds that may lie before 1970, goes through `chrono` (`format`,
then `resolve_created_at`), taken here as a parameter; `Chrono.reference` is
`chrono` as `CivilTime` computes it.

    headersToMetadata c (toBareMetadataMap c m) fallback = .ok (m.readBack ts m.storageInfo)
      when the three required fields are non-empty, the size is a u64, the storage
      fields are non-empty (`StorageInfo.Encodable`) and chrono reads the timestamp
      back as ts                                       (headersToMetadata_toBareMetadataMap)
    user entries, the MD5 and the sizes come back exactly; an empty content type or
    multipart ETag comes back as none
    a reference with an empty source name reads back with the original name, a delta
    with an empty ref path fails with "Missing dg-ref-path", for every chrono
                                                       (storage_fields_lost_of_empty)
-/

namespace DeltaGlider

/-- The `chrono` calls of the codec, on instants in nanoseconds from the
Unix epoch: `DateTime::format`, `DateTime::parse_from_rfc3339` (then
converted to UTC) and `NaiveDateTime::parse_from_str` (read as UTC). -/
structure Chrono where
  format : Int → String → String
  parseFromRfc3339 : String → Option Int
  naiveParseFromStr : String → String → Option Int

/-- The `dg-created-at` format of `to_bare_metadata_map`. -/
def createdAtFormat : String := "%Y-%m-%dT%H:%M:%S%.6fZ"

namespace MetaKeys

/-! `meta_keys`: the bare keys of the `x-amz-meta-*` headers. -/

def tool : String := "dg-tool"
def originalName : String := "dg-original-name"
def fileSha256 : String := "dg-file-sha256"
def fileSize : String := "dg-file-size"
def md5 : String := "dg-md5"
def createdAt : String := "dg-created-at"
def note : String := "dg-note"
def sourceName : String := "dg-source-name"
def refPath : String := "dg-ref-path"
def refKey : String := "dg-ref-key"
def refSha256 : String := "dg-ref-sha256"
def deltaSize : String := "dg-delta-size"
def deltaCmd : String := "dg-delta-cmd"

end MetaKeys

/-! ## Algorithm -/

namespace FileMetadata

/-- `if let Some(v) = .. { map.insert(key, v) }`. -/
def insertSome (map : UserMeta) (key : String) : Option String → UserMeta
  | some v => map.insert key v
  | none => map

/-- The fields `to_bare_metadata_map` writes before the storage variant. -/
def commonFieldsMap (c : Chrono) (m : FileMetadata) : UserMeta :=
  let map := UserMeta.empty.insert MetaKeys.tool m.tool
  let map := map.insert MetaKeys.originalName m.originalName
  let map := map.insert MetaKeys.fileSha256 m.fileSha256
  let map := map.insert MetaKeys.fileSize (toString m.fileSize)
  let map := map.insert MetaKeys.md5 m.md5
  let map := insertSome map "dg-multipart-etag" m.multipartEtag
  let map := insertSome map "content-type" m.contentType
  map.insert MetaKeys.createdAt (c.format m.createdAt createdAtFormat)

/-- The `match &self.storage_info` arm of `to_bare_metadata_map`. -/
def insertStorageInfo (map : UserMeta) : StorageInfo → UserMeta
  | .reference sourceName =>
    (map.insert MetaKeys.note "reference").insert MetaKeys.sourceName sourceName
  | .delta refPath refSha256 deltaSize deltaCmd =>
    let map := map.insert MetaKeys.note "delta"
    let map := map.insert MetaKeys.refPath refPath
    let map := map.insert MetaKeys.refSha256 refSha256
    let map := map.insert MetaKeys.deltaSize (toString deltaSize)
    map.insert MetaKeys.deltaCmd deltaCmd
  | .passthrough => map.insert MetaKeys.note "passthrough"

/-- The closing loop `for (key, value) in &self.user_metadata`: every user
entry lands under `user-{key}`, over whatever the map held there. -/
def insertUserMetadata (map userMetadata : UserMeta) : UserMeta := fun k =>
  if RustStd.startsWith k "user-" then (userMetadata (String.ofList (k.toList.drop 5))).or (map k)
  else map k

/-- `FileMetadata::to_bare_metadata_map`. -/
def toBareMetadataMap (c : Chrono) (m : FileMetadata) : UserMeta :=
  insertUserMetadata (insertStorageInfo (commonFieldsMap c m) m.storageInfo) m.userMetadata

end FileMetadata

namespace S3Backend

/-- The `get_value` closure: the first non-empty value under the keys, in order. -/
def getValue (headers : UserMeta) : List String → Option String
  | [] => none
  | key :: keys =>
    match headers key with
    | some v => if v.isEmpty then getValue headers keys else some v
    | none => getValue headers keys

/-- `.ok_or_else(|| StorageError::Other(format!("Missing {}", key)))?`. -/
def requireValue (value : Option String) (key : String) : Except StorageError String :=
  match value with
  | some v => .ok v
  | none => .error (.other ("Missing " ++ key))

/-- `s.parse::<u64>()`, failing with the message followed by the text. -/
def parseU64 (s msg : String) : Except StorageError Nat :=
  match RustStd.fromStrRadix 10 RustStd.u64Max s.toList with
  | some n => .ok n
  | none => .error (.other (msg ++ s))

/-- The parse chain of `resolve_created_at` on the trimmed value: RFC 3339
first, then the two naive shapes. -/
def parseCreatedAt (c : Chrono) (raw : String) : Option Int :=
  let raw := String.ofList (RustStd.trim raw.toList)
  (c.parseFromRfc3339 raw).or
    ((c.naiveParseFromStr raw "%Y-%m-%dT%H:%M:%S%.fZ").or
      (c.naiveParseFromStr raw "%Y-%m-%dT%H:%M:%S%.f"))

/-- `resolve_created_at`: the stored timestamp, or the fallback when it is
absent or unreadable. -/
def resolveCreatedAt (c : Chrono) (metaValue : Option String) (fallback : Int) : Int :=
  match metaValue with
  | none => fallback
  | some raw => (parseCreatedAt c raw).getD fallback

/-- The legacy-path normalisation: an absolute ref path keeps what follows
its last `/` (`rsplit('/').next()`). -/
def normalizeRefPath (raw : String) : String :=
  if '/' ∈ raw.toList then
    match RustStd.rsplitOnce '/' raw.toList with
    | some parts => String.ofList parts.2
    | none => raw
  else raw

/-- The storage-variant part of `headers_to_metadata`: a `reference` note
wins, then a ref path or a `delta` / `zero-diff*` note, else passthrough. -/
def decodeStorageInfo (headers : UserMeta) (originalName : String) :
    Except StorageError StorageInfo := do
  let note := getValue headers [MetaKeys.note, "note"]
  let refPathOpt := getValue headers [MetaKeys.refPath, MetaKeys.refKey, "ref-path", "ref-key"]
  let isReference := note == some "reference"
  let isDelta := refPathOpt.isSome ||
    (note.map fun n => n == "delta" || RustStd.startsWith n "zero-diff").getD false
  if isReference then
    pure (.reference ((getValue headers [MetaKeys.sourceName, "source-name"]).getD originalName))
  else if isDelta then
    let rawRefPath ← requireValue refPathOpt MetaKeys.refPath
    let refSha256 ← requireValue (getValue headers [MetaKeys.refSha256, "ref-sha256"])
      MetaKeys.refSha256
    let deltaSize ← parseU64 ((getValue headers [MetaKeys.deltaSize, "delta-size"]).getD "0")
      "Invalid delta size: "
    let deltaCmd := (getValue headers [MetaKeys.deltaCmd, "delta-cmd"]).getD ""
    pure (.delta (normalizeRefPath rawRefPath) refSha256 deltaSize deltaCmd)
  else pure .passthrough

/-- `S3Backend::headers_to_metadata`.  The user metadata is the `filter_map`
over the headers by `strip_prefix("user-")`, collected: under each stripped
key, the value of its prefixed header. -/
def headersToMetadata (c : Chrono) (headers : UserMeta) (createdAtFallback : Int) :
    Except StorageError FileMetadata := do
  let tool ← requireValue (getValue headers [MetaKeys.tool, "tool"]) MetaKeys.tool
  let originalName ← requireValue (getValue headers
    [MetaKeys.originalName, "original-name", MetaKeys.sourceName, "source-name"])
    MetaKeys.originalName
  let fileSha256 ← requireValue (getValue headers [MetaKeys.fileSha256, "file-sha256"])
    MetaKeys.fileSha256
  let fileSize ← parseU64 ((getValue headers [MetaKeys.fileSize, "file-size"]).getD "0")
    "Invalid file size: "
  let createdAt := resolveCreatedAt c (getValue headers [MetaKeys.createdAt, "created-at"])
    createdAtFallback
  let storageInfo ← decodeStorageInfo headers originalName
  pure { tool, originalName, fileSha256, fileSize,
         md5 := (headers MetaKeys.md5).getD "",
         multipartEtag := getValue headers ["dg-multipart-etag"],
         createdAt,
         contentType := getValue headers ["content-type"],
         userMetadata := fun key => headers ("user-" ++ key),
         storageInfo }

end S3Backend

/-! ## What survives the codec -/

namespace FileMetadata

/-- What the header decoder rebuilds from `m`'s map: `created_at` as
`chrono` reads it back, the storage variant it decoded, and an empty content
type or multipart ETag dropped (`get_value` skips empty values). -/
def readBack (m : FileMetadata) (createdAt : Int) (storageInfo : StorageInfo) : FileMetadata :=
  { m with createdAt, storageInfo,
           contentType := m.contentType.filter fun v => !v.isEmpty,
           multipartEtag := m.multipartEtag.filter fun v => !v.isEmpty }

/-- The plain fields the decoder requires: non-empty tool, original name and
file hash, and a size that is a `u64`. -/
structure FieldsEncodable (m : FileMetadata) : Prop where
  tool_ne : m.tool ≠ ""
  originalName_ne : m.originalName ≠ ""
  fileSha256_ne : m.fileSha256 ≠ ""
  fileSize_le : m.fileSize ≤ RustStd.u64Max

end FileMetadata

/-- What the codec needs of `chrono` at one timestamp: the formatted text is
non-empty and the parse chain of `resolve_created_at` reads it back as `ts`
(for `chrono` itself, `t` truncated to whole microseconds). -/
structure Chrono.ReadsBack (c : Chrono) (t ts : Int) : Prop where
  format_ne : c.format t createdAtFormat ≠ ""
  parse_format : S3Backend.parseCreatedAt c (c.format t createdAtFormat) = some ts

/-- The storage fields the decoder reads back as they were: a non-empty
source name; a non-empty ref path with no `/`, a non-empty ref hash and a
`u64` delta size. -/
def StorageInfo.Encodable : StorageInfo → Prop
  | .reference sourceName => sourceName ≠ ""
  | .delta refPath refSha256 deltaSize _ =>
    refPath ≠ "" ∧ '/' ∉ refPath.toList ∧ refSha256 ≠ "" ∧ deltaSize ≤ RustStd.u64Max
  | .passthrough => True

/-! ## Lemmas -/

namespace S3Backend

open FileMetadata

theorem getValue_cons (headers : UserMeta) (key : String) (keys : List String) :
    getValue headers (key :: keys) =
      ((headers key).filter fun v => !v.isEmpty).or (getValue headers keys) := by
  cases h : headers key with
  | none => simp [getValue, h]
  | some v =>
    by_cases hv : v.isEmpty
    · simp [getValue, h, hv, Option.filter]
    · simp [getValue, h, hv, Option.filter]

@[simp] theorem getValue_nil (headers : UserMeta) : getValue headers [] = none := rfl

theorem filter_nonEmpty {v : String} (hv : v ≠ "") :
    (some v).filter (fun v => !v.isEmpty) = some v := by
  simp [hv]

/-- A `u64` printed by `to_string` parses back (stated on `Nat.repr`, the
form `simp` gives `toString`). -/
theorem parseU64_repr {n : Nat} (h : n ≤ RustStd.u64Max) (msg : String) :
    parseU64 n.repr msg = .ok n := by
  rw [parseU64, ← Nat.toString_eq_repr, RustStd.fromStrRadix_toString h]

theorem repr_ne_empty (n : Nat) : n.repr ≠ "" := by
  intro h
  have hlen := congrArg String.length h
  simp [Nat.repr, Nat.toDigits_ne_nil] at hlen

/-- An optional text read back with an empty default is the text itself. -/
theorem getD_ite_empty (v : String) : (if v = "" then none else some v).getD "" = v := by
  by_cases h : v = "" <;> simp [h]

theorem normalizeRefPath_of_not_mem {raw : String} (h : '/' ∉ raw.toList) :
    normalizeRefPath raw = raw := by
  simp [normalizeRefPath, h]

theorem getValue_cons_of_nonEmpty {headers : UserMeta} {key v : String} (keys : List String)
    (h : headers key = some v) (hv : v ≠ "") : getValue headers (key :: keys) = some v := by
  rw [getValue_cons, h, filter_nonEmpty hv, Option.some_or]

theorem getValue_congr {f g : UserMeta} {keys : List String} (h : ∀ k ∈ keys, f k = g k) :
    getValue f keys = getValue g keys := by
  induction keys with
  | nil => rfl
  | cons key keys ih =>
    rw [getValue_cons, getValue_cons, h key List.mem_cons_self,
      ih fun k hk => h k (List.mem_cons_of_mem _ hk)]

/-! ### The encoded map at each key -/

/-- The keys the common fields are written under. -/
def commonFieldKeys : List String :=
  [MetaKeys.tool, MetaKeys.originalName, MetaKeys.fileSha256, MetaKeys.fileSize, MetaKeys.md5,
    "dg-multipart-etag", "content-type", MetaKeys.createdAt]

/-- The keys the storage arm is written under. -/
def storageInfoKeys : List String :=
  [MetaKeys.note, MetaKeys.sourceName, MetaKeys.refPath, MetaKeys.refSha256, MetaKeys.deltaSize,
    MetaKeys.deltaCmd]

/-- The keys `decodeStorageInfo` reads, legacy aliases included. -/
def storageReadKeys : List String :=
  [MetaKeys.note, "note", MetaKeys.refPath, MetaKeys.refKey, "ref-path", "ref-key",
    MetaKeys.sourceName, "source-name", MetaKeys.refSha256, "ref-sha256", MetaKeys.deltaSize,
    "delta-size", MetaKeys.deltaCmd, "delta-cmd"]

theorem insertSome_apply (map : UserMeta) (key : String) (v : Option String) (k : String) :
    insertSome map key v k = if k = key then v.or (map k) else map k := by
  cases v with
  | none => by_cases h : k = key <;> simp [insertSome, h]
  | some v => by_cases h : k = key <;> simp [insertSome, UserMeta.insert, h]

theorem commonFieldsMap_of_not_mem (c : Chrono) (m : FileMetadata) {k : String}
    (h : k ∉ commonFieldKeys) : commonFieldsMap c m k = none := by
  simp only [commonFieldKeys, List.mem_cons, List.not_mem_nil, or_false, not_or] at h
  obtain ⟨h1, h2, h3, h4, h5, h6, h7, h8⟩ := h
  simp [commonFieldsMap, insertSome_apply, UserMeta.insert, UserMeta.empty, h1, h2, h3, h4, h5, h6,
    h7, h8]

theorem insertStorageInfo_of_not_mem (map : UserMeta) (info : StorageInfo) {k : String}
    (h : k ∉ storageInfoKeys) : insertStorageInfo map info k = map k := by
  simp only [storageInfoKeys, List.mem_cons, List.not_mem_nil, or_false, not_or] at h
  obtain ⟨h1, h2, h3, h4, h5, h6⟩ := h
  cases info <;> simp [insertStorageInfo, UserMeta.insert, h1, h2, h3, h4, h5, h6]

theorem insertStorageInfo_congr {map map' : UserMeta} (info : StorageInfo) {k : String}
    (h : map k = map' k) : insertStorageInfo map info k = insertStorageInfo map' info k := by
  cases info <;> simp [insertStorageInfo, UserMeta.insert, Function.update_apply, h]

theorem startsWith_user (s : String) : RustStd.startsWith ("user-" ++ s) "user-" = true := by
  simp [RustStd.startsWith]

theorem insertUserMetadata_user (map userMetadata : UserMeta) (s : String) :
    insertUserMetadata map userMetadata ("user-" ++ s) =
      (userMetadata s).or (map ("user-" ++ s)) := by
  simp [insertUserMetadata, startsWith_user]

theorem insertUserMetadata_of_not_user (map userMetadata : UserMeta) {k : String}
    (h : RustStd.startsWith k "user-" = false) : insertUserMetadata map userMetadata k = map k := by
  simp [insertUserMetadata, h]

/-- No key the encoder writes itself starts with `user-`. -/
theorem user_not_mem_keys (s : String) :
    "user-" ++ s ∉ commonFieldKeys ∧ "user-" ++ s ∉ storageInfoKeys := by
  have hhead : ∀ k ∈ commonFieldKeys ++ storageInfoKeys, k.toList.head? ≠ some 'u' := by
    decide
  have huser : ("user-" ++ s).toList.head? = some 'u' := by simp
  constructor
  · intro h
    exact hhead _ (List.mem_append_left _ h) huser
  · intro h
    exact hhead _ (List.mem_append_right _ h) huser

/-- Every user entry is read back exactly under its prefixed key. -/
theorem toBareMetadataMap_user (c : Chrono) (m : FileMetadata) (s : String) :
    toBareMetadataMap c m ("user-" ++ s) = m.userMetadata s := by
  obtain ⟨hcommon, hstorage⟩ := user_not_mem_keys s
  rw [toBareMetadataMap, insertUserMetadata_user, insertStorageInfo_of_not_mem _ _ hstorage,
    commonFieldsMap_of_not_mem c m hcommon, Option.or_none]

/-- Off the user and storage keys, the encoded map holds the common fields. -/
theorem toBareMetadataMap_of_common (c : Chrono) (m : FileMetadata) {k : String}
    (huser : RustStd.startsWith k "user-" = false) (h : k ∉ storageInfoKeys) :
    toBareMetadataMap c m k = commonFieldsMap c m k := by
  rw [toBareMetadataMap, insertUserMetadata_of_not_user _ _ huser,
    insertStorageInfo_of_not_mem _ _ h]

/-- Off the user and common keys, the encoded map holds the storage arm alone. -/
theorem toBareMetadataMap_of_storage (c : Chrono) (m : FileMetadata) {k : String}
    (huser : RustStd.startsWith k "user-" = false) (h : k ∉ commonFieldKeys) :
    toBareMetadataMap c m k = insertStorageInfo UserMeta.empty m.storageInfo k := by
  rw [toBareMetadataMap, insertUserMetadata_of_not_user _ _ huser]
  exact insertStorageInfo_congr _ (commonFieldsMap_of_not_mem c m h)

/-! ### Decoding the storage variant -/

theorem storageReadKeys_apart :
    ∀ k ∈ storageReadKeys, RustStd.startsWith k "user-" = false ∧ k ∉ commonFieldKeys := by
  decide

/-- `decodeStorageInfo` reads nothing but `storageReadKeys`. -/
theorem decodeStorageInfo_congr {f g : UserMeta} (name : String)
    (h : ∀ k ∈ storageReadKeys, f k = g k) :
    decodeStorageInfo f name = decodeStorageInfo g name := by
  have hv : ∀ keys, keys ⊆ storageReadKeys → getValue f keys = getValue g keys :=
    fun keys hsub => getValue_congr fun k hk => h k (hsub hk)
  simp only [decodeStorageInfo, hv [MetaKeys.note, "note"] (by decide),
    hv [MetaKeys.refPath, MetaKeys.refKey, "ref-path", "ref-key"] (by decide),
    hv [MetaKeys.sourceName, "source-name"] (by decide),
    hv [MetaKeys.refSha256, "ref-sha256"] (by decide),
    hv [MetaKeys.deltaSize, "delta-size"] (by decide),
    hv [MetaKeys.deltaCmd, "delta-cmd"] (by decide)]

theorem decodeStorageInfo_toBareMetadataMap (c : Chrono) (m : FileMetadata) (name : String) :
    decodeStorageInfo (toBareMetadataMap c m) name =
      decodeStorageInfo (insertStorageInfo UserMeta.empty m.storageInfo) name := by
  apply decodeStorageInfo_congr
  intro k hk
  obtain ⟨huser, hcommon⟩ := storageReadKeys_apart k hk
  exact toBareMetadataMap_of_storage c m huser hcommon

theorem decodeStorageInfo_reference (sourceName name : String) :
    decodeStorageInfo (insertStorageInfo UserMeta.empty (.reference sourceName)) name =
      .ok (.reference (if sourceName.isEmpty then name else sourceName)) := by
  by_cases hs : sourceName.isEmpty <;>
    simp [decodeStorageInfo, getValue_cons, insertStorageInfo, UserMeta.insert, UserMeta.empty,
      MetaKeys.note, MetaKeys.sourceName, hs, Option.filter, pure, Except.pure]

theorem decodeStorageInfo_delta {refPath refSha256 : String} {deltaSize : Nat}
    (deltaCmd name : String) (h : (StorageInfo.delta refPath refSha256 deltaSize deltaCmd).Encodable) :
    decodeStorageInfo
        (insertStorageInfo UserMeta.empty (.delta refPath refSha256 deltaSize deltaCmd)) name =
      .ok (.delta refPath refSha256 deltaSize deltaCmd) := by
  obtain ⟨hpath, hslash, hsha, hsize⟩ := h
  simp [decodeStorageInfo, getValue_cons, insertStorageInfo, UserMeta.insert, UserMeta.empty,
    MetaKeys.note, MetaKeys.refPath, MetaKeys.refKey, MetaKeys.refSha256, MetaKeys.deltaSize,
    MetaKeys.deltaCmd, requireValue, Option.filter, bind, Except.bind, hpath, hsha,
    parseU64_repr hsize, normalizeRefPath_of_not_mem hslash, getD_ite_empty, pure, Except.pure]

theorem decodeStorageInfo_delta_missing (refSha256 : String) (deltaSize : Nat)
    (deltaCmd name : String) :
    decodeStorageInfo (insertStorageInfo UserMeta.empty (.delta "" refSha256 deltaSize deltaCmd))
        name =
      .error (.other "Missing dg-ref-path") := by
  simp [decodeStorageInfo, getValue_cons, insertStorageInfo, UserMeta.insert, UserMeta.empty,
    MetaKeys.note, MetaKeys.refPath, MetaKeys.refKey, MetaKeys.refSha256, MetaKeys.deltaSize,
    MetaKeys.deltaCmd, requireValue, Option.filter, bind, Except.bind]

theorem decodeStorageInfo_passthrough (name : String) :
    decodeStorageInfo (insertStorageInfo UserMeta.empty .passthrough) name = .ok .passthrough := by
  simp [decodeStorageInfo, getValue_cons, insertStorageInfo, UserMeta.insert, UserMeta.empty,
    MetaKeys.note, MetaKeys.refPath, MetaKeys.refKey, Option.filter, RustStd.startsWith, pure,
    Except.pure]


theorem decodeStorageInfo_encodable (name : String) {info : StorageInfo} (h : info.Encodable) :
    decodeStorageInfo (insertStorageInfo UserMeta.empty info) name = .ok info := by
  cases info with
  | reference sourceName =>
    have hs : sourceName.isEmpty = false := by simpa [StorageInfo.Encodable] using h
    rw [decodeStorageInfo_reference, hs]
    rfl
  | delta refPath refSha256 deltaSize deltaCmd => exact decodeStorageInfo_delta deltaCmd name h
  | passthrough => exact decodeStorageInfo_passthrough name

/-! ### The whole decoder -/

/-- What the decoder reads from the common fields: each field under its
canonical key, with `get_value`'s empty-skipping, and the MD5 raw. -/
theorem commonFieldsMap_reads (c : Chrono) (m : FileMetadata) :
    getValue (commonFieldsMap c m) [MetaKeys.tool, "tool"] =
        (some m.tool).filter (fun v => !v.isEmpty) ∧
      commonFieldsMap c m MetaKeys.originalName = some m.originalName ∧
      getValue (commonFieldsMap c m) [MetaKeys.fileSha256, "file-sha256"] =
        (some m.fileSha256).filter (fun v => !v.isEmpty) ∧
      getValue (commonFieldsMap c m) [MetaKeys.fileSize, "file-size"] =
        (some (toString m.fileSize)).filter (fun v => !v.isEmpty) ∧
      getValue (commonFieldsMap c m) [MetaKeys.createdAt, "created-at"] =
        (some (c.format m.createdAt createdAtFormat)).filter (fun v => !v.isEmpty) ∧
      getValue (commonFieldsMap c m) ["dg-multipart-etag"] =
        m.multipartEtag.filter (fun v => !v.isEmpty) ∧
      getValue (commonFieldsMap c m) ["content-type"] =
        m.contentType.filter (fun v => !v.isEmpty) ∧
      commonFieldsMap c m MetaKeys.md5 = some m.md5 := by
  refine ⟨?_, ?_, ?_, ?_, ?_, ?_, ?_, ?_⟩ <;>
    simp [getValue_cons, commonFieldsMap, insertSome_apply, UserMeta.insert, UserMeta.empty,
      MetaKeys.tool, MetaKeys.originalName, MetaKeys.fileSha256,
      MetaKeys.fileSize, MetaKeys.md5, MetaKeys.createdAt]

/-- With the plain fields encodable, the decoder rebuilds every field but
the storage variant from the encoded map, and takes the variant from the
storage arm alone. -/
theorem headersToMetadata_toBareMetadataMap_eq (c : Chrono) (m : FileMetadata) (fallback : Int)
    (hm : m.FieldsEncodable) :
    headersToMetadata c (toBareMetadataMap c m) fallback =
      (decodeStorageInfo (insertStorageInfo UserMeta.empty m.storageInfo) m.originalName).map
        (m.readBack (resolveCreatedAt c
          ((some (c.format m.createdAt createdAtFormat)).filter fun v => !v.isEmpty)
          fallback)) := by
  -- every key the plain fields are read under lies outside the user and storage keys
  have hcommon : ∀ keys,
      (∀ k ∈ keys, RustStd.startsWith k "user-" = false ∧ k ∉ storageInfoKeys) →
      getValue (toBareMetadataMap c m) keys = getValue (commonFieldsMap c m) keys :=
    fun keys h => getValue_congr fun k hk => toBareMetadataMap_of_common c m (h k hk).1 (h k hk).2
  obtain ⟨htool, hname, hsha, hsize, hcreated, hetag, hct, hmd5⟩ := commonFieldsMap_reads c m
  have hmd5' : toBareMetadataMap c m MetaKeys.md5 = some m.md5 := by
    rw [toBareMetadataMap_of_common c m (by decide) (by decide), hmd5]
  -- the original name is found under its canonical key, before the aliases that
  -- include the storage arm's `dg-source-name`
  have hname' : getValue (toBareMetadataMap c m)
      [MetaKeys.originalName, "original-name", MetaKeys.sourceName, "source-name"] =
        some m.originalName := by
    apply getValue_cons_of_nonEmpty _ _ hm.originalName_ne
    rw [toBareMetadataMap_of_common c m (by decide) (by decide), hname]
  have huser : (fun key => toBareMetadataMap c m ("user-" ++ key)) = m.userMetadata :=
    funext (toBareMetadataMap_user c m)
  simp only [headersToMetadata, hcommon [MetaKeys.tool, "tool"] (by decide),
    hcommon [MetaKeys.fileSha256, "file-sha256"] (by decide),
    hcommon [MetaKeys.fileSize, "file-size"] (by decide),
    hcommon [MetaKeys.createdAt, "created-at"] (by decide),
    hcommon ["dg-multipart-etag"] (by decide), hcommon ["content-type"] (by decide),
    htool, hname', hsha, hsize, hcreated, hetag, hct, hmd5', huser,
    filter_nonEmpty hm.tool_ne,
    filter_nonEmpty hm.fileSha256_ne, filter_nonEmpty (repr_ne_empty m.fileSize),
    requireValue, Option.getD_some, Nat.toString_eq_repr, parseU64_repr hm.fileSize_le,
    decodeStorageInfo_toBareMetadataMap]
  cases hd : decodeStorageInfo (insertStorageInfo UserMeta.empty m.storageInfo) m.originalName <;>
    simp [bind, Except.bind, hd, Except.map, readBack, pure, Except.pure]

/-- The round trip: with the plain and storage fields encodable and `chrono`
reading its own text back as `ts`, the decoder returns `m` with that
timestamp, an empty content type or multipart ETag dropped, for every
fallback; the variant, sizes, MD5, delta fields and user entries come back
exactly. -/
theorem headersToMetadata_toBareMetadataMap (c : Chrono) (m : FileMetadata) (fallback ts : Int)
    (hm : m.FieldsEncodable) (hinfo : m.storageInfo.Encodable) (hts : c.ReadsBack m.createdAt ts) :
    headersToMetadata c (toBareMetadataMap c m) fallback = .ok (m.readBack ts m.storageInfo) := by
  have hcreated : resolveCreatedAt c
      ((some (c.format m.createdAt createdAtFormat)).filter fun v => !v.isEmpty) fallback = ts := by
    rw [filter_nonEmpty hts.format_ne, resolveCreatedAt, hts.parse_format, Option.getD_some]
  rw [headersToMetadata_toBareMetadataMap_eq c m fallback hm, decodeStorageInfo_encodable _ hinfo,
    hcreated]
  rfl

/-- `chrono` as `CivilTime` computes it. -/
def Chrono.reference : Chrono :=
  ⟨CivilTime.format, CivilTime.parseFromRfc3339, CivilTime.naiveParseFromStr⟩

/-- Before 1970 too: the last nanosecond of 1969 is written
`1969-12-31T23:59:59.999999Z` and read back a microsecond floor below. -/
example : Chrono.reference.ReadsBack (-1) (-1000) := ⟨by decide, by decide⟩

/-- A reference object stamped 2026-01-01T12:34:56.123456789Z, with an empty
content type: it reads back with the time cut to the microsecond and no
content type. -/
theorem headersToMetadata_toBareMetadataMap_micros :
    (FileMetadata.newReference "a.zip" "a.zip" "ab" "cd" 1 (some "") 1767270896123456789).FieldsEncodable ∧
      (FileMetadata.newReference "a.zip" "a.zip" "ab" "cd" 1 (some "")
        1767270896123456789).storageInfo.Encodable ∧
      Chrono.reference.ReadsBack 1767270896123456789 1767270896123456000 ∧
      headersToMetadata Chrono.reference (toBareMetadataMap Chrono.reference
          (FileMetadata.newReference "a.zip" "a.zip" "ab" "cd" 1 (some "") 1767270896123456789)) 0 =
        .ok ((FileMetadata.newReference "a.zip" "a.zip" "ab" "cd" 1 (some "")
          1767270896123456789).readBack 1767270896123456000 (.reference "a.zip")) := by
  have hm :
      (FileMetadata.newReference "a.zip" "a.zip" "ab" "cd" 1 (some "") 1767270896123456789).FieldsEncodable :=
    ⟨by decide, by decide, by decide, by decide⟩
  have hinfo : (FileMetadata.newReference "a.zip" "a.zip" "ab" "cd" 1 (some "")
      1767270896123456789).storageInfo.Encodable := by
    simp [FileMetadata.newReference, StorageInfo.Encodable]
  -- chrono writes 2026-01-01T12:34:56.123456Z and RFC 3339 reads it back
  have hts : Chrono.reference.ReadsBack 1767270896123456789 1767270896123456000 :=
    ⟨by decide, by decide⟩
  exact ⟨hm, hinfo, hts, headersToMetadata_toBareMetadataMap _ _ 0 _ hm hinfo hts⟩

/-- Two empty storage fields do not survive the codec, whatever `chrono`
does: a reference whose source name is empty reads back naming the original
name, and a delta whose ref path is empty fails the whole decode. -/
theorem storage_fields_lost_of_empty (c : Chrono) (fallback : Int) :
    (headersToMetadata c (toBareMetadataMap c
        (FileMetadata.newReference "a.zip" "" "ab" "cd" 1 none 0)) fallback).map (·.storageInfo) =
      .ok (.reference "a.zip") ∧
    headersToMetadata c (toBareMetadataMap c
        (FileMetadata.newDelta "a.zip" "ab" "cd" 1 "" "ef" 1 none 0)) fallback =
      .error (.other "Missing dg-ref-path") := by
  have href : (FileMetadata.newReference "a.zip" "" "ab" "cd" 1 none 0).FieldsEncodable :=
    ⟨by decide, by decide, by decide, by decide⟩
  have hdelta : (FileMetadata.newDelta "a.zip" "ab" "cd" 1 "" "ef" 1 none 0).FieldsEncodable :=
    ⟨by decide, by decide, by decide, by decide⟩
  constructor
  · rw [headersToMetadata_toBareMetadataMap_eq c _ fallback href]
    show Except.map _ (Except.map _
      (decodeStorageInfo (insertStorageInfo UserMeta.empty (.reference "")) "a.zip")) = _
    rw [decodeStorageInfo_reference]
    rfl
  · rw [headersToMetadata_toBareMetadataMap_eq c _ fallback hdelta]
    show Except.map _
      (decodeStorageInfo (insertStorageInfo UserMeta.empty (.delta "" "ef" 1 _)) "a.zip") = _
    rw [decodeStorageInfo_delta_missing]
    rfl

/-- The two losses at `chrono` itself and fallback 0. -/
theorem empty_storage_fields_lost :
    (headersToMetadata Chrono.reference (toBareMetadataMap Chrono.reference
        (FileMetadata.newReference "a.zip" "" "ab" "cd" 1 none 0)) 0).map (·.storageInfo) =
      .ok (.reference "a.zip") ∧
    headersToMetadata Chrono.reference (toBareMetadataMap Chrono.reference
        (FileMetadata.newDelta "a.zip" "ab" "cd" 1 "" "ef" 1 none 0)) 0 =
      .error (.other "Missing dg-ref-path") :=
  storage_fields_lost_of_empty Chrono.reference 0

end S3Backend

end DeltaGlider
