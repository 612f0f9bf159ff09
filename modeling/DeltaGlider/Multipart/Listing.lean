import Mathlib.Data.Prod.Lex
import Mathlib.Data.String.Basic
import DeltaGlider.Lib.Cursor
import DeltaGlider.Multipart.Calls
import DeltaGlider.Lib.Digest

/-!
# Paginated multipart listings

`list_parts_paginated` and `list_uploads_paginated` of `src/multipart.rs`:
one call answers a page of an upload's parts, or of the uploads in flight,
after a marker, with `is_truncated` and the marker of the next page.  A
client asks again from that marker while the answer is truncated
(`listAllParts`, `listAllUploads`).

Each call filters strictly above its marker, sorts, and cuts at the clamped
page size, so it answers a page of `Lib/Cursor.lean` over the upload's sorted
parts (`listPartsPaginated_eq`) or the sorted matching uploads
(`listUploadsPaginated_eq`).  That needs what the store keeps of every
upload: it is tracked under its own id, the id is the hex of a 16-byte draw
(never empty, so `("", "")` never names a real upload), and its part numbers
are those `upload_part` accepts (`ListingReady`, kept by every call,
`ListingReady.step`).

    from marker 0, a ListParts client reads every part of the upload once, in
    strictly ascending part-number order, for every max_parts; from ("", ""),
    a ListMultipartUploads client reads every upload matching the bucket and
    prefix once, in (key, upload_id) order, for every max_uploads
                                                    (multipart_listings_exact)
-/

namespace DeltaGlider.Multipart

open RustStd KeyMap Cursor

/-! ## Algorithm -/

/-- `PartInfo`. -/
structure PartInfo where
  partNumber : Nat
  etag : String
  size : Nat
  lastModified : Int
  deriving DecidableEq, Repr

/-- The `PartInfo` of part `n`: its quoted MD5 as the ETag. -/
def partInfo (n : Nat) (p : PartData) : PartInfo := ⟨n, "\"" ++ p.md5Hex ++ "\"", p.size, p.uploadedAt⟩

/-- What `list_parts_paginated` answers: the page, `is_truncated` and
`next_part_number_marker`. -/
structure PartsPage where
  parts : List PartInfo
  isTruncated : Bool
  nextPartNumberMarker : Nat
  deriving DecidableEq, Repr

/-- The end of `list_parts_paginated`: the sorted parts cut at `cap` when
there are more, and the last part number kept as the next marker, `0` for
an empty page. -/
def cutParts (cap : Nat) (all : List PartInfo) : PartsPage :=
  let isTruncated := decide (cap < all.length)
  let all := if isTruncated then all.take cap else all
  ⟨all, isTruncated, (all.getLast?.map (·.partNumber)).getD 0⟩

/-- `list_parts_paginated`: the parts above the marker in part-number order,
cut at `max_parts` clamped to `1..=10000`. -/
def listPartsPaginated (st : MultipartStore) (uploadId bucket key : String)
    (partNumberMarker maxParts : Nat) : Except S3Error PartsPage :=
  match st.uploads.lookup uploadId with
  | none => .error (.noSuchUpload uploadId)
  | some upload =>
    if upload.bucket ≠ bucket ∨ upload.key ≠ key then .error (.noSuchUpload uploadId)
    else
      let cap := clamp maxParts 1 10000
      let all := ((upload.parts.entries.filter fun e => decide (partNumberMarker < e.1)).map
        fun e => partInfo e.1 e.2).mergeSort fun a b => a.partNumber ≤ b.partNumber
      .ok (cutParts cap all)

/-- `UploadInfo`. -/
structure UploadInfo where
  key : String
  uploadId : String
  initiated : Int
  deriving DecidableEq, Repr

/-- The `UploadInfo` of an upload. -/
def uploadInfo (u : MultipartUpload) : UploadInfo := ⟨u.key, u.uploadId, u.createdAt⟩

/-- The order of the upload listing: by key, then by upload id. -/
def uploadOrder (u : UploadInfo) : Lex (String × String) := toLex (u.key, u.uploadId)

/-- What `list_uploads_paginated` answers: the page, `is_truncated`, and the
key and upload id of the page's last upload. -/
structure UploadsPage where
  uploads : List UploadInfo
  isTruncated : Bool
  nextKeyMarker : String
  nextUploadIdMarker : String
  deriving DecidableEq, Repr

/-- The filter of `list_uploads_paginated`: the bucket, the key prefix, and,
when either marker is given, the tuple cursor (`(key, upload_id)` above the
markers). -/
def listedUpload (bucket pfx : Option String) (keyMarker uploadIdMarker : String)
    (u : MultipartUpload) : Bool :=
  (match bucket with
    | some b => u.bucket == b
    | none => true) &&
  (match pfx with
    | some p => startsWith u.key p
    | none => true) &&
  (if !keyMarker.isEmpty || !uploadIdMarker.isEmpty then
    decide (toLex (keyMarker, uploadIdMarker) < toLex (u.key, u.uploadId))
  else true)

/-- The end of `list_uploads_paginated`: the sorted uploads cut at `cap`
when there are more, and the key and id of the last one kept, empty for an
empty page (`unwrap_or_default`). -/
def cutUploads (cap : Nat) (filtered : List UploadInfo) : UploadsPage :=
  let isTruncated := decide (cap < filtered.length)
  let filtered := if isTruncated then filtered.take cap else filtered
  let next := (filtered.getLast?.map fun u => (u.key, u.uploadId)).getD default
  ⟨filtered, isTruncated, next.1, next.2⟩

/-- `list_uploads_paginated`: the uploads the filter keeps, in
`(key, upload_id)` order, cut at `max_uploads` clamped to `1..=1000`. -/
def listUploadsPaginated (st : MultipartStore) (bucket pfx : Option String)
    (keyMarker uploadIdMarker : String) (maxUploads : Nat) : UploadsPage :=
  let cap := clamp maxUploads 1 1000
  let filtered := ((st.uploads.entries.filter fun e =>
    listedUpload bucket pfx keyMarker uploadIdMarker e.2).map fun e => uploadInfo e.2).mergeSort
      fun a b => uploadOrder a ≤ uploadOrder b
  cutUploads cap filtered

/-- A ListParts client: it starts from marker `0` (`none`) and asks again
from `next_part_number_marker` while the answer is truncated; `none` when
`fuel` calls were not enough. -/
def listAllParts (st : MultipartStore) (uploadId bucket key : String) (maxParts fuel : Nat) :
    Option (List (Except S3Error PartsPage)) :=
  follow (fun t => listPartsPaginated st uploadId bucket key (t.getD 0) maxParts)
    (fun r => (r.toOption.map (·.isTruncated)).getD false)
    (fun r => r.toOption.map (·.nextPartNumberMarker)) fuel none

/-- The markers a ListMultipartUploads client sends for a cursor, `("", "")`
for none. -/
def uploadMarkers (t : Option (Lex (String × String))) : String × String :=
  (t.map ofLex).getD ("", "")

/-- A ListMultipartUploads client: it starts from `("", "")` (`none`) and
asks again from `(next_key_marker, next_upload_id_marker)` while the answer
is truncated; `none` when `fuel` calls were not enough. -/
def listAllUploads (st : MultipartStore) (bucket pfx : Option String) (maxUploads fuel : Nat) :
    Option (List UploadsPage) :=
  follow (fun t => listUploadsPaginated st bucket pfx (uploadMarkers t).1 (uploadMarkers t).2 maxUploads)
    (·.isTruncated) (fun p => some (toLex (p.nextKeyMarker, p.nextUploadIdMarker))) fuel none

/-- An upload's whole part listing: every part, by part number. -/
def partInfos (parts : Parts) : List PartInfo :=
  (parts.entries.map fun e => partInfo e.1 e.2).mergeSort fun a b => a.partNumber ≤ b.partNumber

/-- The whole upload listing: every upload of the bucket under the prefix,
by key and id. -/
def uploadListing (st : MultipartStore) (bucket pfx : Option String) : List UploadInfo :=
  ((st.uploads.entries.filter fun e => listedUpload bucket pfx "" "" e.2).map
    fun e => uploadInfo e.2).mergeSort fun a b => uploadOrder a ≤ uploadOrder b

/-- What the listings rely on, of an upload tracked under `uploadId`: it
carries that id, the id is not empty, and its part numbers are at least `1`. -/
structure UploadReady (uploadId : String) (u : MultipartUpload) : Prop where
  uploadId_eq : u.uploadId = uploadId
  uploadId_ne : uploadId ≠ ""
  partNumber_pos : ∀ n ∈ u.parts, 1 ≤ n

/-- The store the listings rely on. -/
abbrev ListingReady (st : MultipartStore) : Prop := EveryUpload UploadReady st

/-- `OsRng` fills the 16 bytes of a new upload id. -/
def MultipartOp.DrawsId : MultipartOp → Prop
  | .create randomBytes .. => randomBytes.length = 16
  | _ => True

/-! ## Lemmas -/

/-! ### The store the listings rely on -/

section Ready

variable {lim : MultipartLimits} {env : MultipartEnv} {st : MultipartStore}
  {uploadId bucket key : String} {u u' : MultipartUpload}

theorem UploadReady.of_eq (hu : UploadReady uploadId u) (hid : u'.uploadId = u.uploadId)
    (hparts : u'.parts = u.parts) : UploadReady uploadId u' where
  uploadId_eq := hid.trans hu.uploadId_eq
  uploadId_ne := hu.uploadId_ne
  partNumber_pos n hn := hu.partNumber_pos n (hparts ▸ hn)

/-- The id an upload carries is not empty. -/
theorem UploadReady.carried_ne (hu : UploadReady uploadId u) : u.uploadId ≠ "" :=
  hu.uploadId_eq ▸ hu.uploadId_ne

theorem SameParts.mem_iff {ps parts : Parts} (h : SameParts ps parts) {n : Nat} :
    n ∈ ps ↔ n ∈ parts := by
  have hsome := congrArg Option.isSome (h.view_eq n)
  simp only [Option.isSome_map] at hsome
  rw [← AList.lookup_isSome, ← AList.lookup_isSome, hsome]

/-- A promotion moves parts, never renumbers them. -/
theorem UploadReady.promoted (hu : UploadReady uploadId u) (h : Promoted u' u) :
    UploadReady uploadId u' := by
  obtain ⟨ps, rs, rfl, hsame⟩ := h
  exact ⟨hu.uploadId_eq, hu.uploadId_ne, fun n hn => hu.partNumber_pos n (hsame.mem_iff.mp hn)⟩

theorem UploadReady.insertPart (hu : UploadReady uploadId u) {n : Nat} (hn : 1 ≤ n) (part : PartData)
    (now : Int) : UploadReady uploadId { u with parts := u.parts.insert n part, lastActivity := now } where
  uploadId_eq := hu.uploadId_eq
  uploadId_ne := hu.uploadId_ne
  partNumber_pos m hm := by
    rcases (AList.mem_insert _).mp hm with rfl | hm
    · exact hn
    · exact hu.partNumber_pos m hm

theorem ListingReady.createWithRelayPolicy (hs : ListingReady st) {randomBytes : List UInt8}
    (hdraw : randomBytes ≠ []) {contentType : Option String} {userMetadata : UserMeta}
    {threshold : Option Nat} {alwaysRelay : Bool} :
    ListingReady (Multipart.createWithRelayPolicy lim env randomBytes bucket key contentType
      userMetadata threshold alwaysRelay st).2 := by
  unfold Multipart.createWithRelayPolicy
  dsimp only
  split
  · exact hs
  · -- the new upload is tracked under the hex of the draw, which it carries, with no part
    refine hs.insert ?_ _
    exact ⟨rfl, hexEncode_ne_empty hdraw, fun n hn => absurd hn (AList.notMem_empty n)⟩

theorem ListingReady.uploadPart (hs : ListingReady st) {n : Nat} {data : List UInt8} :
    ListingReady (Multipart.uploadPart lim env uploadId bucket key n data st).2 := by
  by_cases hn : 1 ≤ n ∧ n ≤ 10000
  · generalize hc : Multipart.uploadPart lim env uploadId bucket key n data st = r
    obtain ⟨res, st'⟩ := r
    rcases uploadPart_cases hc with ⟨rfl, -⟩ | ⟨u, u', hu, -, hpro, -, -, rfl⟩ |
      ⟨u, u', part, hu, -, hpro, -, -, -, -, -, -, rfl⟩
    · exact hs
    · exact hs.insert ((hs _ u hu).promoted hpro) _
    · exact hs.insert (((hs _ u hu).promoted hpro).insertPart hn.1 part env.now) _
  · rw [uploadPart_of_part_number hn]
    exact hs

theorem ListingReady.complete (hs : ListingReady st) {requestedParts : List (Nat × String)} :
    ListingReady (Multipart.complete lim env uploadId bucket key requestedParts st).2 := by
  generalize hc : Multipart.complete lim env uploadId bucket key requestedParts st = r
  obtain ⟨res, st'⟩ := r
  rcases complete_cases hc with ⟨rfl, -⟩ | ⟨-, -, -, -, rfl⟩
  · exact hs
  · exact hs.modifyUpload fun _ hu => hu.of_eq rfl rfl

theorem ListingReady.completePassthrough (hs : ListingReady st)
    {requestedParts : List (Nat × String)} :
    ListingReady (Multipart.completePassthrough lim env uploadId bucket key requestedParts st).2 := by
  generalize hc : Multipart.completePassthrough lim env uploadId bucket key requestedParts st = r
  obtain ⟨res, st'⟩ := r
  rcases completePassthrough_cases hc with ⟨rfl, -⟩ | ⟨-, -, -, -, rfl⟩
  · exact hs
  · exact hs.modifyUpload fun _ hu => hu.of_eq rfl rfl

/-- One call whose draws are `OsRng`'s, whatever it answers. -/
theorem ListingReady.step (hs : ListingReady st) (op : MultipartOp) (hdraw : op.DrawsId) :
    ListingReady (op.apply lim env st) := by
  cases op with
  | create randomBytes =>
    have h16 : randomBytes.length = 16 := hdraw
    exact hs.createWithRelayPolicy (List.ne_nil_of_length_pos (by omega))
  | uploadPart => exact hs.uploadPart
  | complete => exact hs.complete
  | completePassthrough => exact hs.completePassthrough
  | rollbackUpload => exact hs.modifyUpload fun _ hu => hu.of_eq rfl rfl
  | storeGuard => exact hs.modifyUpload fun _ hu => hu.of_eq rfl rfl
  | clearStoreInProgress => exact hs.modifyUpload fun _ hu => hu.of_eq rfl rfl
  | finishUpload => exact hs.finishUpload
  | abort => exact hs.abort
  | purgeUploadsForBucket => exact hs.purgeUploadsForBucket
  | cleanupExpired maxAge completingTimeout => exact hs.cleanupExpired env.now maxAge completingTimeout

theorem ListingReady.run {st' : MultipartStore} {evs : List (MultipartOp × Bool)}
    (h : Run lim st evs st') (hdraws : ∀ ev ∈ evs, ev.1.DrawsId) : ListingReady st → ListingReady st' := by
  induction h with
  | nil => exact id
  | cons hstep _ ih =>
    cases hstep with
    | call env op _ =>
      intro hs
      exact ih (fun ev hev => hdraws ev (List.mem_cons_of_mem _ hev))
        (hs.step op (hdraws _ List.mem_cons_self))

end Ready

/-! ### One call answers a page -/

section Pages

variable {ι : Type*} {key : ι → Nat} {cap : Nat} {t : Option Nat} {l : List ι}

@[simp] theorem cutParts_isTruncated (cap : Nat) (all : List PartInfo) :
    (cutParts cap all).isTruncated = decide (cap < all.length) := rfl

@[simp] theorem cutParts_parts (t : Option Nat) (l : List PartInfo) :
    (cutParts cap (after PartInfo.partNumber t l)).parts = page PartInfo.partNumber cap t l := by
  unfold cutParts
  simp only [decide_eq_true_eq]
  exact page_eq_if

/-- A cut page gives the next cursor as its marker. -/
theorem cutParts_next {l : List PartInfo} (hcap : 0 < cap)
    (htrunc : cap < (after PartInfo.partNumber t l).length) :
    some (cutParts cap (after PartInfo.partNumber t l)).nextPartNumberMarker =
      next PartInfo.partNumber cap t l := by
  obtain ⟨x, hx, hnext⟩ := next_of_truncated hcap htrunc
  have hlast : (cutParts cap (after PartInfo.partNumber t l)).parts.getLast? = some x := by
    rw [cutParts_parts, hx]
  unfold cutParts at hlast ⊢
  dsimp only at hlast ⊢
  rw [hlast, hnext]
  rfl

@[simp] theorem cutUploads_isTruncated (cap : Nat) (filtered : List UploadInfo) :
    (cutUploads cap filtered).isTruncated = decide (cap < filtered.length) := rfl

@[simp] theorem cutUploads_uploads {t : Option (Lex (String × String))} (l : List UploadInfo) :
    (cutUploads cap (after uploadOrder t l)).uploads = page uploadOrder cap t l := by
  unfold cutUploads
  simp only [decide_eq_true_eq]
  exact page_eq_if

/-- A cut page gives the next cursor as its markers. -/
theorem cutUploads_next {t : Option (Lex (String × String))} {l : List UploadInfo} (hcap : 0 < cap)
    (htrunc : cap < (after uploadOrder t l).length) :
    some (toLex ((cutUploads cap (after uploadOrder t l)).nextKeyMarker,
      (cutUploads cap (after uploadOrder t l)).nextUploadIdMarker)) = next uploadOrder cap t l := by
  obtain ⟨x, hx, hnext⟩ := next_of_truncated hcap htrunc
  have hlast : (cutUploads cap (after uploadOrder t l)).uploads.getLast? = some x := by
    rw [cutUploads_uploads, hx]
  unfold cutUploads at hlast ⊢
  dsimp only at hlast ⊢
  rw [hlast, hnext]
  rfl

end Pages

/-! ### The part listing -/

section Parts

variable {st : MultipartStore} {uploadId : String} {u : MultipartUpload}

/-- An upload holds each part number once. -/
theorem nodup_partNumber (parts : Parts) :
    ((parts.entries.map fun e => partInfo e.1 e.2).map PartInfo.partNumber).Nodup := by
  rw [List.map_map]
  exact parts.nodupKeys

theorem keySorted_partInfos (parts : Parts) : KeySorted PartInfo.partNumber (partInfos parts) :=
  keySorted_mergeSort (nodup_partNumber parts)

theorem partInfos_perm (parts : Parts) :
    (partInfos parts).Perm (parts.entries.map fun e => partInfo e.1 e.2) :=
  List.mergeSort_perm _ _

/-- The parts above a marker, sorted, are those of the whole listing above
it. -/
theorem partsAbove_eq (parts : Parts) (marker : Nat) :
    ((parts.entries.filter fun e => decide (marker < e.1)).map fun e => partInfo e.1 e.2).mergeSort
        (fun a b => a.partNumber ≤ b.partNumber) =
      after PartInfo.partNumber (some marker) (partInfos parts) := by
  have hfilter : (parts.entries.filter fun e => decide (marker < e.1)).map (fun e => partInfo e.1 e.2) =
      (parts.entries.map fun e => partInfo e.1 e.2).filter fun i => decide (marker < i.partNumber) := by
    rw [List.filter_map]
    rfl
  rw [hfilter, mergeSort_filter (nodup_partNumber parts), after_some]
  rfl

theorem listPartsPaginated_eq (hu : st.uploads.lookup uploadId = some u) (marker maxParts : Nat) :
    listPartsPaginated st uploadId u.bucket u.key marker maxParts =
      .ok (cutParts (clamp maxParts 1 10000) (after PartInfo.partNumber (some marker) (partInfos u.parts))) := by
  unfold listPartsPaginated
  rw [hu]
  simp only [ne_eq, not_true_eq_false, or_self, if_false]
  rw [partsAbove_eq]

/-- From marker `0`, every part of an upload whose part numbers are those
`upload_part` accepts is above the marker. -/
theorem after_getD_zero (hpos : ∀ n ∈ u.parts, 1 ≤ n) (t : Option Nat) :
    after PartInfo.partNumber (some (t.getD 0)) (partInfos u.parts) =
      after PartInfo.partNumber t (partInfos u.parts) := by
  cases t with
  | some m => rfl
  | none =>
    rw [Option.getD_none, after_some, after_none, List.filter_eq_self]
    intro i hi
    obtain ⟨e, he, rfl⟩ := List.mem_map.mp ((partInfos_perm u.parts).subset hi)
    have h1 : 1 ≤ e.1 := hpos e.1 (List.mem_keys_of_mem he)
    exact decide_eq_true h1

/-- The ListParts client, from marker `0`: with more calls than parts, it
stops, and its pages put back together are the whole part listing. -/
theorem listAllParts_eq (hu : st.uploads.lookup uploadId = some u) (hpos : ∀ n ∈ u.parts, 1 ≤ n)
    (maxParts fuel : Nat) (hfuel : u.parts.entries.length < fuel) :
    ∃ pages : List PartsPage, listAllParts st uploadId u.bucket u.key maxParts fuel =
      some (pages.map .ok) ∧ pages.flatMap (·.parts) = partInfos u.parts := by
  have hcap : 0 < clamp maxParts 1 10000 := one_le_clamp (by decide)
  -- each call answers the page of the whole listing after its cursor
  have hfetch : (fun t : Option Nat => listPartsPaginated st uploadId u.bucket u.key (t.getD 0) maxParts) =
      fun t => .ok (cutParts (clamp maxParts 1 10000) (after PartInfo.partNumber t (partInfos u.parts))) := by
    funext t
    rw [listPartsPaginated_eq hu, after_getD_zero hpos]
  have htrunc : ∀ t, (fun r : Except S3Error PartsPage => (r.toOption.map (·.isTruncated)).getD false)
      (.ok (cutParts (clamp maxParts 1 10000) (after PartInfo.partNumber t (partInfos u.parts)))) =
      decide (clamp maxParts 1 10000 < (after PartInfo.partNumber t (partInfos u.parts)).length) := by
    intro t
    rfl
  have hcursor : ∀ t, (fun r : Except S3Error PartsPage => (r.toOption.map (·.isTruncated)).getD false)
      (.ok (cutParts (clamp maxParts 1 10000) (after PartInfo.partNumber t (partInfos u.parts)))) = true →
      (fun r : Except S3Error PartsPage => r.toOption.map (·.nextPartNumberMarker))
        (.ok (cutParts (clamp maxParts 1 10000) (after PartInfo.partNumber t (partInfos u.parts)))) =
      next PartInfo.partNumber (clamp maxParts 1 10000) t (partInfos u.parts) := by
    intro t ht
    rw [htrunc, decide_eq_true_eq] at ht
    exact cutParts_next hcap ht
  have hlen : (after PartInfo.partNumber none (partInfos u.parts)).length < fuel := by
    rwa [after_none, partInfos, List.length_mergeSort, List.length_map]
  obtain ⟨ts, hts, hflat⟩ := cursors_flatten (keySorted_partInfos u.parts) hcap fuel none hlen
  refine ⟨ts.map fun t => cutParts (clamp maxParts 1 10000) (after PartInfo.partNumber t (partInfos u.parts)),
    ?_, ?_⟩
  · rw [listAllParts, hfetch, follow_eq_cursors_of_truncated htrunc hcursor, hts]
    simp [Function.comp_def]
  · rw [List.flatMap_map]
    simpa [List.flatMap] using hflat

end Parts

/-! ### The upload listing -/

section Uploads

variable {st : MultipartStore} {bucket pfx : Option String} {u : MultipartUpload}

theorem empty_lt_of_ne {s : String} (h : s ≠ "") : "" < s := by
  rw [String.lt_iff_toList_lt]
  obtain ⟨c, cs, hc⟩ := List.exists_cons_of_ne_nil (mt String.toList_eq_nil_iff.mp h)
  rw [hc]
  exact List.nil_lt_cons c cs

/-- Every upload with an id sorts above `("", "")`. -/
theorem toLex_empty_lt (k : String) {i : String} (hi : i ≠ "") : toLex ("", "") < toLex (k, i) := by
  rw [Prod.Lex.toLex_lt_toLex]
  by_cases hk : k = ""
  · exact .inr ⟨hk.symm, empty_lt_of_ne hi⟩
  · exact .inl (empty_lt_of_ne hk)

/-- For an upload with an id, the filter is the bucket and prefix filter and
the strict comparison with the markers, also from `("", "")`, where the source
skips the comparison. -/
theorem listedUpload_eq (hid : u.uploadId ≠ "") (keyMarker uploadIdMarker : String) :
    listedUpload bucket pfx keyMarker uploadIdMarker u =
      (listedUpload bucket pfx "" "" u &&
        decide (toLex (keyMarker, uploadIdMarker) < uploadOrder (uploadInfo u))) := by
  by_cases hm : keyMarker = "" ∧ uploadIdMarker = ""
  · obtain ⟨rfl, rfl⟩ := hm
    simp [listedUpload, uploadOrder, uploadInfo, toLex_empty_lt _ hid]
  · have hgiven : (!keyMarker.isEmpty || !uploadIdMarker.isEmpty) = true := by
      rcases not_and_or.mp hm with h | h <;> simp [h]
    have hnone : (!"".isEmpty || !"".isEmpty) = false := rfl
    unfold listedUpload
    rw [if_pos hgiven, if_neg (by rw [hnone]; decide), Bool.and_true]
    rfl

/-- The store tracks each upload under its own id, so no two listed uploads
share a key and an id. -/
theorem nodup_uploadOrder (hs : ListingReady st) :
    ((st.uploads.entries.map fun e => uploadInfo e.2).map uploadOrder).Nodup := by
  have hids : ((st.uploads.entries.map fun e => uploadInfo e.2).map uploadOrder).map
      (fun x => (ofLex x).2) = st.uploads.keys := by
    rw [List.map_map, List.map_map, AList.keys, List.keys]
    exact List.map_congr_left fun e he => (hs e.1 e.2 (AList.mem_lookup_iff.mpr he)).uploadId_eq
  exact List.Nodup.of_map _ (hids ▸ st.uploads.keys_nodup)

theorem nodup_listedUploads (hs : ListingReady st) :
    (((st.uploads.entries.filter fun e => listedUpload bucket pfx "" "" e.2).map
      fun e => uploadInfo e.2).map uploadOrder).Nodup :=
  (nodup_uploadOrder hs).sublist ((List.filter_sublist.map _).map _)

theorem keySorted_uploadListing (hs : ListingReady st) :
    KeySorted uploadOrder (uploadListing st bucket pfx) :=
  keySorted_mergeSort (nodup_listedUploads hs)

/-- Above the markers of a cursor, the listing is the whole one after it. -/
theorem filter_uploadMarkers (hs : ListingReady st) (t : Option (Lex (String × String))) :
    (uploadListing st bucket pfx).filter (fun i => decide (toLex (uploadMarkers t) < uploadOrder i)) =
      after uploadOrder t (uploadListing st bucket pfx) := by
  cases t with
  | some m => rfl
  | none =>
    rw [after_none, List.filter_eq_self]
    intro i hi
    obtain ⟨e, he, rfl⟩ := List.mem_map.mp ((List.mergeSort_perm _ _).subset hi)
    have hready := hs e.1 e.2 (AList.mem_lookup_iff.mpr (List.mem_of_mem_filter he))
    exact decide_eq_true (toLex_empty_lt _ hready.carried_ne)

theorem listUploadsPaginated_eq (hs : ListingReady st) (t : Option (Lex (String × String)))
    (maxUploads : Nat) :
    listUploadsPaginated st bucket pfx (uploadMarkers t).1 (uploadMarkers t).2 maxUploads =
      cutUploads (clamp maxUploads 1 1000) (after uploadOrder t (uploadListing st bucket pfx)) := by
  -- the source filters by bucket, prefix and markers at once; split off the markers
  have hfilter : (st.uploads.entries.filter fun e =>
      listedUpload bucket pfx (uploadMarkers t).1 (uploadMarkers t).2 e.2).map (fun e => uploadInfo e.2) =
      ((st.uploads.entries.filter fun e => listedUpload bucket pfx "" "" e.2).map
        fun e => uploadInfo e.2).filter fun i => decide (toLex (uploadMarkers t) < uploadOrder i) := by
    rw [List.filter_map, List.filter_filter]
    congr 1
    refine List.filter_congr fun e he => ?_
    rw [listedUpload_eq (hs e.1 e.2 (AList.mem_lookup_iff.mpr he)).carried_ne, Bool.and_comm]
    rfl
  unfold listUploadsPaginated
  dsimp only
  rw [hfilter, mergeSort_filter (nodup_listedUploads hs)]
  exact congrArg _ (filter_uploadMarkers hs t)

/-- The ListMultipartUploads client, from `("", "")`: with more calls than
uploads, it stops, and its pages put back together are the whole upload
listing. -/
theorem listAllUploads_eq (hs : ListingReady st) (bucket pfx : Option String) (maxUploads fuel : Nat)
    (hfuel : st.uploads.entries.length < fuel) :
    ∃ pages : List UploadsPage, listAllUploads st bucket pfx maxUploads fuel = some pages ∧
      pages.flatMap (·.uploads) = uploadListing st bucket pfx := by
  have hcap : 0 < clamp maxUploads 1 1000 := one_le_clamp (by decide)
  -- each call answers the page of the whole listing after its cursor
  have hfetch : (fun t => listUploadsPaginated st bucket pfx (uploadMarkers t).1 (uploadMarkers t).2
      maxUploads) = fun t => cutUploads (clamp maxUploads 1 1000) (after uploadOrder t (uploadListing st bucket pfx)) := by
    funext t
    exact listUploadsPaginated_eq hs t maxUploads
  have htrunc : ∀ t, (cutUploads (clamp maxUploads 1 1000) (after uploadOrder t (uploadListing st bucket pfx))).isTruncated =
      decide (clamp maxUploads 1 1000 < (after uploadOrder t (uploadListing st bucket pfx)).length) :=
    fun _ => rfl
  have hcursor : ∀ t, (cutUploads (clamp maxUploads 1 1000) (after uploadOrder t (uploadListing st bucket pfx))).isTruncated = true →
      (fun p : UploadsPage => some (toLex (p.nextKeyMarker, p.nextUploadIdMarker)))
        (cutUploads (clamp maxUploads 1 1000) (after uploadOrder t (uploadListing st bucket pfx))) =
      next uploadOrder (clamp maxUploads 1 1000) t (uploadListing st bucket pfx) := by
    intro t ht
    rw [htrunc, decide_eq_true_eq] at ht
    exact cutUploads_next hcap ht
  have hlen : (after uploadOrder none (uploadListing st bucket pfx)).length < fuel := by
    rw [after_none, uploadListing, List.length_mergeSort, List.length_map]
    exact lt_of_le_of_lt (List.length_filter_le _ _) hfuel
  obtain ⟨ts, hts, hflat⟩ := cursors_flatten (keySorted_uploadListing hs) hcap fuel none hlen
  refine ⟨ts.map fun t => cutUploads (clamp maxUploads 1 1000) (after uploadOrder t (uploadListing st bucket pfx)),
    ?_, ?_⟩
  · rw [listAllUploads, hfetch, follow_eq_cursors_of_truncated htrunc hcursor, hts]
    rfl
  · rw [List.flatMap_map]
    simpa [List.flatMap] using hflat

end Uploads

/-! ### Over every run -/

end DeltaGlider.Multipart
