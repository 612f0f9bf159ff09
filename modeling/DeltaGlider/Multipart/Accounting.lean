import DeltaGlider.Multipart.Calls
import DeltaGlider.Lib.Digest

/-!
# Byte accounting of the multipart store

`in_flight_bytes` is kept equal to the bytes the parts of all tracked uploads
hold (`trackedBytes`), every upload's parts stay within `max_object_size`,
and the counter within `max_total_multipart_bytes`: `Accounted`.  It holds of
a new store and every call keeps it, whatever the call answers
(`Accounted.step`), so it holds of every store a run reaches
(`multipart_bytes_accounted`).

The call that moves the counter by a signed amount is `upload_part`: it adds
the new part's size less the size of the part it replaces, and the two caps
it checks first are exactly what keeps the bounds (`Accounted.insertPart`).
The five removal paths release what they remove: `finish_upload` and `abort`
one upload (`Accounted.removeUpload`), `purge_uploads_for_bucket` and the
sweeps of `cleanup_expired` every upload a predicate selects
(`Accounted.removeWhere`).
-/

namespace DeltaGlider.Multipart

open RustStd KeyMap

/-- The bytes the parts of all tracked uploads hold. -/
def trackedBytes (st : MultipartStore) : Nat := total (fun _ u => partsBytes u) st.uploads

/-- The accounting invariant of the store. -/
structure Accounted (lim : MultipartLimits) (st : MultipartStore) : Prop where
  inFlight_eq : st.inFlightBytes = trackedBytes st
  upload_le : ∀ uploadId u, st.uploads.lookup uploadId = some u → partsBytes u ≤ lim.maxObjectSize
  inFlight_le : st.inFlightBytes ≤ lim.maxTotalMultipartBytes

section Preservation

variable {lim : MultipartLimits} {st : MultipartStore} {uploadId : String} {u u' : MultipartUpload}

theorem Accounted.new : Accounted lim MultipartStore.new where
  inFlight_eq := rfl
  upload_le _ _ h := by cases h
  inFlight_le := by simp [MultipartStore.new]

/-- Putting an upload with as many bytes in place of a tracked one. -/
theorem Accounted.replace (ha : Accounted lim st) (hu : st.uploads.lookup uploadId = some u)
    (hb : partsBytes u' = partsBytes u) :
    Accounted lim ⟨st.uploads.insert uploadId u', st.inFlightBytes⟩ := by
  have hins := total_insert (fun _ u => partsBytes u) uploadId u' st.uploads
  rw [weightAt_of_lookup hu, hb] at hins
  refine ⟨?_, fun uploadId' v hv => ?_, ha.inFlight_le⟩
  · rw [ha.inFlight_eq]
    simp only [trackedBytes]
    omega
  · by_cases he : uploadId' = uploadId
    · subst he
      rw [AList.lookup_insert] at hv
      cases hv
      rw [hb]
      exact ha.upload_le _ _ hu
    · rw [AList.lookup_insert_ne he] at hv
      exact ha.upload_le _ _ hv

/-- A change of a tracked upload that keeps its parts' bytes. -/
theorem Accounted.modifyUpload (ha : Accounted lim st) {f : MultipartUpload → MultipartUpload}
    (hf : ∀ u, partsBytes (f u) = partsBytes u) : Accounted lim (st.modifyUpload uploadId f) := by
  unfold MultipartStore.modifyUpload
  cases hu : st.uploads.lookup uploadId with
  | none => exact ha
  | some u => exact ha.replace hu (hf u)

/-- A new upload under an id no tracked upload has, with no parts yet. -/
theorem Accounted.insertFresh (ha : Accounted lim st) (hfresh : uploadId ∉ st.uploads)
    (hempty : u.parts = ∅) : Accounted lim ⟨st.uploads.insert uploadId u, st.inFlightBytes⟩ := by
  have hnone : st.uploads.lookup uploadId = none := AList.lookup_eq_none.mpr hfresh
  have hzero : partsBytes u = 0 := by simp [partsBytes, hempty]
  have hins := total_insert (fun _ u => partsBytes u) uploadId u st.uploads
  rw [weightAt_of_lookup_none hnone, hzero] at hins
  refine ⟨?_, fun uploadId' v hv => ?_, ha.inFlight_le⟩
  · rw [ha.inFlight_eq]
    simp only [trackedBytes]
    omega
  · by_cases he : uploadId' = uploadId
    · subst he
      rw [AList.lookup_insert] at hv
      cases hv
      rw [hzero]
      exact Nat.zero_le _
    · rw [AList.lookup_insert_ne he] at hv
      exact ha.upload_le _ _ hv

/-- `finish_upload` and `abort`: the removed upload's bytes are released. -/
theorem Accounted.removeUpload (ha : Accounted lim st) (hu : st.uploads.lookup uploadId = some u) :
    Accounted lim (st.removeUpload uploadId u) := by
  have herase := total_erase (fun _ u => partsBytes u) uploadId st.uploads
  rw [weightAt_of_lookup hu] at herase
  have hle : (partsBytes u : Int) ≤ st.inFlightBytes := by
    rw [ha.inFlight_eq, trackedBytes]
    omega
  refine ⟨?_, fun uploadId' v hv => ?_, ?_⟩
  · show releaseBytes st.inFlightBytes u = trackedBytes ⟨st.uploads.erase uploadId, _⟩
    rw [releaseBytes_eq, ha.inFlight_eq]
    simp only [trackedBytes]
    omega
  · by_cases he : uploadId' = uploadId
    · subst he
      rw [lookup_removeUpload_self] at hv
      cases hv
    · rw [lookup_removeUpload_ne he] at hv
      exact ha.upload_le _ _ hv
  · show releaseBytes st.inFlightBytes u ≤ _
    rw [releaseBytes_eq]
    have := ha.inFlight_le
    omega

/-- `purge_uploads_for_bucket` and `cleanup_expired`: the bytes of every
removed upload are released. -/
theorem Accounted.removeWhere (ha : Accounted lim st) (p : MultipartUpload → Bool) :
    Accounted lim (st.removeWhere p) := by
  have hsplit := total_retain_add (fun _ u => partsBytes u) (fun _ u => p u) st.uploads
  refine ⟨?_, fun uploadId' v hv => ?_, ?_⟩
  · rw [inFlightBytes_removeWhere, ha.inFlight_eq]
    simp only [trackedBytes, MultipartStore.removeWhere] at hsplit ⊢
    omega
  · exact ha.upload_le _ _ (lookup_removeWhere_eq_some hv).1
  · rw [inFlightBytes_removeWhere]
    have := ha.inFlight_le
    omega

/-- The end of `upload_part`: the part inserted into the (perhaps promoted)
upload, the counter moved by the part's growth.  The per-upload cap bounds
the upload and the global cap, checked when the part grows the counter,
bounds the counter. -/
theorem Accounted.insertPart (ha : Accounted lim st) (hu : st.uploads.lookup uploadId = some u)
    (hpro : Promoted u' u) {n : Nat} {part : PartData} {size : Nat} (hsize : part.size = size)
    (hcap : partsBytes u - partSizeAt u n + size ≤ lim.maxObjectSize)
    (hglobal : ¬(0 < partGrowth u n size ∧
      (lim.maxTotalMultipartBytes : Int) < st.inFlightBytes + partGrowth u n size))
    (now : Int) :
    Accounted lim ⟨st.uploads.insert uploadId
      { u' with parts := u'.parts.insert n part, lastActivity := now },
      st.inFlightBytes + partGrowth u n size⟩ := by
  have hold : partSizeAt u n ≤ partsBytes u := weightAt_le_total _ _ _
  -- the new upload's bytes: the old ones, less the replaced part, plus the new part
  have hnew : partsBytes { u' with parts := u'.parts.insert n part, lastActivity := now } +
      partSizeAt u n = size + partsBytes u := by
    have hpart := total_insert (fun _ p => p.size) n part u'.parts
    rw [hpro.partSize_eq n, hsize] at hpart
    have hb := hpro.partsBytes_eq
    simp only [partsBytes, partSizeAt] at hb ⊢
    omega
  have htracked := total_insert (fun _ u => partsBytes u) uploadId
    { u' with parts := u'.parts.insert n part, lastActivity := now } st.uploads
  rw [weightAt_of_lookup hu] at htracked
  refine ⟨?_, fun uploadId' v hv => ?_, ?_⟩
  · rw [ha.inFlight_eq]
    simp only [trackedBytes, partGrowth] at htracked ⊢
    omega
  · by_cases he : uploadId' = uploadId
    · subst he
      rw [AList.lookup_insert] at hv
      cases hv
      omega
    · rw [AList.lookup_insert_ne he] at hv
      exact ha.upload_le _ _ hv
  · show st.inFlightBytes + partGrowth u n size ≤ _
    have hle := ha.inFlight_le
    by_cases hg : 0 < partGrowth u n size
    · exact not_lt.mp fun hlt => hglobal ⟨hg, hlt⟩
    · omega

end Preservation

/-! ## Every call keeps the invariant -/

section Calls

variable {lim : MultipartLimits} {env : MultipartEnv} {st st' : MultipartStore}
  {uploadId bucket key : String} {requestedParts : List (Nat × String)}

theorem Accounted.createWithRelayPolicy (ha : Accounted lim st) {randomBytes : List UInt8}
    (hfresh : hexEncode randomBytes ∉ st.uploads) {contentType : Option String}
    {userMetadata : UserMeta} {threshold : Option Nat} {alwaysRelay : Bool} :
    Accounted lim (Multipart.createWithRelayPolicy lim env randomBytes bucket key contentType userMetadata
      threshold alwaysRelay st).2 := by
  generalize hc : Multipart.createWithRelayPolicy lim env randomBytes bucket key contentType userMetadata
    threshold alwaysRelay st = r
  obtain ⟨res, st'⟩ := r
  rcases createWithRelayPolicy_cases hc with ⟨rfl, -⟩ | ⟨u, hempty, -, -, rfl⟩
  · exact ha
  · exact ha.insertFresh hfresh hempty

theorem Accounted.uploadPart (ha : Accounted lim st) {n : Nat} {data : List UInt8} :
    Accounted lim (Multipart.uploadPart lim env uploadId bucket key n data st).2 := by
  generalize hc : Multipart.uploadPart lim env uploadId bucket key n data st = r
  obtain ⟨res, st'⟩ := r
  rcases uploadPart_cases hc with ⟨rfl, -⟩ | ⟨u, u', hu, -, hpro, -, -, rfl⟩ |
    ⟨u, u', part, hu, -, hpro, -, hsize, -, hcap, hglobal, -, rfl⟩
  · exact ha
  · -- a promotion that failed half-way moved payloads, not bytes
    exact ha.replace hu hpro.partsBytes_eq
  · exact ha.insertPart hu hpro hsize hcap hglobal env.now

theorem Accounted.complete (ha : Accounted lim st) :
    Accounted lim (Multipart.complete lim env uploadId bucket key requestedParts st).2 := by
  generalize hc : Multipart.complete lim env uploadId bucket key requestedParts st = r
  obtain ⟨res, st'⟩ := r
  rcases complete_cases hc with ⟨rfl, -⟩ | ⟨u, -, -, -, rfl⟩
  · exact ha
  · exact ha.modifyUpload fun _ => rfl

theorem Accounted.completePassthrough (ha : Accounted lim st) :
    Accounted lim (Multipart.completePassthrough lim env uploadId bucket key requestedParts st).2 := by
  generalize hc : Multipart.completePassthrough lim env uploadId bucket key requestedParts st = r
  obtain ⟨res, st'⟩ := r
  rcases completePassthrough_cases hc with ⟨rfl, -⟩ | ⟨u, -, -, -, rfl⟩
  · exact ha
  · exact ha.modifyUpload fun _ => rfl

theorem Accounted.finishUpload (ha : Accounted lim st) :
    Accounted lim (Multipart.finishUpload uploadId st) := by
  rcases finishUpload_cases uploadId st with ⟨h, -⟩ | ⟨u, hu, h⟩
  · rw [h]
    exact ha
  · rw [h]
    exact ha.removeUpload hu

theorem Accounted.abort (ha : Accounted lim st) :
    Accounted lim (Multipart.abort uploadId bucket key st).2 := by
  generalize hc : Multipart.abort uploadId bucket key st = r
  obtain ⟨res, st'⟩ := r
  rcases abort_cases hc with ⟨rfl, -⟩ | ⟨u, hu, -, -, rfl⟩
  · exact ha
  · exact ha.removeUpload hu

theorem Accounted.purgeUploadsForBucket (ha : Accounted lim st) :
    Accounted lim (Multipart.purgeUploadsForBucket bucket st).2 := by
  generalize hc : Multipart.purgeUploadsForBucket bucket st = r
  obtain ⟨res, st'⟩ := r
  rcases purgeUploadsForBucket_cases hc with ⟨rfl, -⟩ | ⟨-, rfl, -⟩
  · exact ha
  · exact ha.removeWhere _

theorem Accounted.cleanupExpired (ha : Accounted lim st) (now maxAge completingTimeout : Int) :
    Accounted lim (Multipart.cleanupExpired lim now maxAge completingTimeout st).2 := by
  obtain ⟨cutoff, completingCutoff, h⟩ := cleanupExpired_snd lim st now maxAge completingTimeout
  rw [h]
  exact ha.removeWhere _

/-- One call, whatever it answers. -/
theorem Accounted.step (ha : Accounted lim st) (op : MultipartOp) (hfresh : op.Fresh st) :
    Accounted lim (op.apply lim env st) := by
  cases op with
  | create => exact ha.createWithRelayPolicy hfresh
  | uploadPart => exact ha.uploadPart
  | complete => exact ha.complete
  | completePassthrough => exact ha.completePassthrough
  | rollbackUpload => exact ha.modifyUpload fun _ => rfl
  | storeGuard => exact ha.modifyUpload fun _ => rfl
  | clearStoreInProgress => exact ha.modifyUpload fun _ => rfl
  | finishUpload => exact ha.finishUpload
  | abort => exact ha.abort
  | purgeUploadsForBucket => exact ha.purgeUploadsForBucket
  | cleanupExpired => exact ha.cleanupExpired _ _ _

theorem Accounted.run {evs : List (MultipartOp × Bool)} (h : Run lim st evs st') :
    Accounted lim st → Accounted lim st' := by
  induction h with
  | nil => exact id
  | cons hstep _ ih =>
    cases hstep with
    | call env _ hfresh => exact fun ha => ih (ha.step _ hfresh)

end Calls

/-- Over every run of the store from a new one, whichever calls succeed or
fail: `in_flight_bytes` is the bytes of all tracked parts (so it never goes
below zero), no upload holds more than `max_object_size`, and the counter
stays within `max_total_multipart_bytes`. -/
theorem multipart_bytes_accounted {lim : MultipartLimits} {st : MultipartStore}
    (h : Reachable lim st) :
    st.inFlightBytes = trackedBytes st ∧ 0 ≤ st.inFlightBytes ∧
      (∀ uploadId u, st.uploads.lookup uploadId = some u → partsBytes u ≤ lim.maxObjectSize) ∧
      st.inFlightBytes ≤ lim.maxTotalMultipartBytes := by
  obtain ⟨ops, hrun⟩ := h
  have ha := Accounted.run hrun Accounted.new
  refine ⟨ha.inFlight_eq, ?_, ha.upload_le, ha.inFlight_le⟩
  rw [ha.inFlight_eq]
  exact Int.natCast_nonneg _

/-- A create, its id drawn from sixteen random bytes, and a two-byte part,
with MD5 as the part hash. -/
theorem multipart_bytes_accounted_create_upload :
    let lim : MultipartLimits := ⟨100, 10, 1000, 3600⟩
    let env : MultipartEnv := ⟨0, "relay", Digest.Md5.digest, RelayFs.healthy⟩
    let st := (MultipartOp.uploadPart (hexEncode (List.replicate 16 1)) "b" "k" 1 [7, 7]).apply lim env
      ((MultipartOp.create (List.replicate 16 1) "b" "k" none UserMeta.empty none false).apply lim env
        MultipartStore.new)
    st.inFlightBytes = trackedBytes st ∧ 0 ≤ st.inFlightBytes ∧
      (∀ uploadId u, st.uploads.lookup uploadId = some u → partsBytes u ≤ lim.maxObjectSize) ∧
      st.inFlightBytes ≤ lim.maxTotalMultipartBytes :=
  multipart_bytes_accounted ⟨_, .cons (.call ⟨0, "relay", Digest.Md5.digest, RelayFs.healthy⟩
    (.create (List.replicate 16 1) "b" "k" none UserMeta.empty none false) (AList.notMem_empty _))
      (.cons (.call ⟨0, "relay", Digest.Md5.digest, RelayFs.healthy⟩
        (.uploadPart (hexEncode (List.replicate 16 1)) "b" "k" 1 [7, 7]) trivial) (.nil _))⟩

end DeltaGlider.Multipart
