import DeltaGlider.Multipart.Store

/-!
# What each call of the multipart store can leave

One lemma per call states every store it can leave, with what holds of the
upload it touched; the invariants of the store are then case analyses over
these lemmas and never unfold a call.

* The map operations: lookups after `modifyUpload`, `removeUpload` and
  `removeWhere`, and the counter after a release (`releaseBytes_eq`,
  `releaseAll_eq`).
* A promotion, finished or not, keeps an upload's parts apart from where
  their bytes are (`promoteUploadToRelay_promoted`, `Promoted`).
* `uploadPart_cases`: unchanged with an error; or an error after a promotion
  rewrote the upload; or the part inserted, with the payload the upload's
  strategy gives it, and the counter moved by the part's growth, with both
  caps met.
* `complete_cases`, `completePassthrough_cases`: unchanged with an error, or
  an `Open` upload flipped to `Completing`.
* `abort_cases`, `purgeUploadsForBucket_cases`, `finishUpload_cases`,
  `createWithRelayPolicy_cases`, `cleanupExpired_snd`.
* `EveryUpload P`: every tracked upload satisfies `P`; how the map operations
  and the calls that only remove uploads keep it.
-/

namespace DeltaGlider.Multipart

open RustStd KeyMap

/-! ## Map operations -/

section MapOps

variable {st : MultipartStore} {uploadId uploadId' : String}
  {f : MultipartUpload → MultipartUpload} {u : MultipartUpload} {p : MultipartUpload → Bool}

@[simp] theorem lookup_modifyUpload_self :
    (st.modifyUpload uploadId f).uploads.lookup uploadId = (st.uploads.lookup uploadId).map f := by
  unfold MultipartStore.modifyUpload
  cases h : st.uploads.lookup uploadId with
  | none => simp [h]
  | some u => simp

theorem lookup_modifyUpload_ne (h : uploadId' ≠ uploadId) :
    (st.modifyUpload uploadId f).uploads.lookup uploadId' = st.uploads.lookup uploadId' := by
  unfold MultipartStore.modifyUpload
  cases st.uploads.lookup uploadId with
  | none => rfl
  | some u => exact AList.lookup_insert_ne h

@[simp] theorem inFlightBytes_modifyUpload :
    (st.modifyUpload uploadId f).inFlightBytes = st.inFlightBytes := by
  unfold MultipartStore.modifyUpload
  cases st.uploads.lookup uploadId <;> rfl

@[simp] theorem lookup_removeUpload_self :
    (st.removeUpload uploadId u).uploads.lookup uploadId = none :=
  AList.lookup_erase _ _

theorem lookup_removeUpload_ne (h : uploadId' ≠ uploadId) :
    (st.removeUpload uploadId u).uploads.lookup uploadId' = st.uploads.lookup uploadId' :=
  AList.lookup_erase_ne h

theorem lookup_removeWhere :
    (st.removeWhere p).uploads.lookup uploadId =
      (st.uploads.lookup uploadId).filter fun u => !p u :=
  lookup_retain _ _ _

/-- An upload that `p` spares stays where it was. -/
theorem lookup_removeWhere_of_not (hu : st.uploads.lookup uploadId = some u) (hp : p u = false) :
    (st.removeWhere p).uploads.lookup uploadId = some u := by
  rw [lookup_removeWhere, hu, Option.filter_some, hp]
  rfl

/-- What a lookup after `removeWhere` finds was there and spared. -/
theorem lookup_removeWhere_eq_some (h : (st.removeWhere p).uploads.lookup uploadId = some u) :
    st.uploads.lookup uploadId = some u ∧ p u = false := by
  rw [lookup_removeWhere, Option.filter_eq_some_iff] at h
  exact ⟨h.1, by simpa using h.2⟩

@[simp] theorem releaseBytes_eq (x : Int) (u : MultipartUpload) :
    releaseBytes x u = x - partsBytes u := by
  unfold releaseBytes
  split_ifs with h
  · rfl
  · have hz : partsBytes u = 0 := by omega
    simp [hz]

theorem releaseAll_eq (x : Int) (us : List MultipartUpload) :
    releaseAll x us = x - (us.map partsBytes).sum := by
  induction us generalizing x with
  | nil => simp [releaseAll]
  | cons u us ih =>
    show releaseAll (releaseBytes x u) us = _
    rw [ih, releaseBytes_eq, List.map_cons, List.sum_cons]
    push_cast
    ring

theorem sum_selectUploads (p : MultipartUpload → Bool) (st : MultipartStore) :
    ((selectUploads p st).map partsBytes).sum =
      total (fun _ u => partsBytes u) (retain (fun _ u => p u) st.uploads) := by
  simp only [selectUploads, total, List.map_map]
  rfl

theorem inFlightBytes_removeWhere :
    (st.removeWhere p).inFlightBytes =
      st.inFlightBytes - total (fun _ u => partsBytes u) (retain (fun _ u => p u) st.uploads) := by
  rw [MultipartStore.removeWhere, releaseAll_eq, sum_selectUploads]

end MapOps

/-! ## Promotion -/

/-- `ps` holds the parts of `parts`, some of them now kept elsewhere. -/
structure SameParts (ps parts : Parts) : Prop where
  view_eq : ∀ n, (ps.lookup n).map PartData.view = (parts.lookup n).map PartData.view
  bytes_eq : total (fun _ p => p.size) ps = total (fun _ p => p.size) parts

/-- `u'` is `u` after a promotion, finished or not: the same parts, some
moved to relay files, and perhaps the relayed strategy. -/
def Promoted (u' u : MultipartUpload) : Prop :=
  ∃ ps rs, u' = { u with parts := ps, relayStrategy := rs } ∧ SameParts ps u.parts

theorem Promoted.refl (u : MultipartUpload) : Promoted u u :=
  ⟨u.parts, u.relayStrategy, rfl, fun _ => rfl, rfl⟩

section Promoted

variable {u u' : MultipartUpload}

theorem Promoted.partView (h : Promoted u' u) : u'.partView = u.partView := by
  obtain ⟨ps, rs, rfl, hs⟩ := h
  funext n
  exact hs.view_eq n

theorem Promoted.partsBytes_eq (h : Promoted u' u) : partsBytes u' = partsBytes u := by
  obtain ⟨ps, rs, rfl, hs⟩ := h
  exact hs.bytes_eq

/-- The old size of every part number, which `upload_part` subtracts, is the
same after a promotion. -/
theorem Promoted.partSize_eq (h : Promoted u' u) (n : Nat) :
    weightAt (fun _ p => p.size) n u'.parts = weightAt (fun _ p => p.size) n u.parts := by
  have hv := congrArg (Option.map PartView.size) (congrFun h.partView n)
  simp only [MultipartUpload.partView, Option.map_map] at hv
  exact congrArg (·.getD 0) hv

theorem Promoted.state_eq (h : Promoted u' u) : u'.state = u.state := by
  obtain ⟨ps, rs, rfl, -⟩ := h
  rfl

theorem Promoted.bucket_eq (h : Promoted u' u) : u'.bucket = u.bucket := by
  obtain ⟨ps, rs, rfl, -⟩ := h
  rfl

end Promoted

theorem relayPart_view {fs : RelayFs} {relayDir : String} {n : Nat} {p p' : PartData}
    (h : relayPart fs relayDir n p = .ok p') : p'.view = p.view := by
  unfold relayPart at h
  split at h
  · cases hw : writePartFile fs relayDir n _ with
    | error e => rw [hw] at h; cases h
    | ok _ => rw [hw] at h; cases h; rfl
  · cases h
    rfl

theorem sameParts_updateEach_relayPart (fs : RelayFs) (relayDir : String) (parts : Parts) :
    SameParts (updateEach (relayPart fs relayDir) parts).1 parts :=
  ⟨fun n => lookup_updateEach_map (relayPart fs relayDir) (fun _ p => p.view)
      (fun _ _ _ h => relayPart_view h) n parts,
    total_updateEach _ (fun _ _ _ h => congrArg PartView.size (relayPart_view h)) _⟩

theorem promoteUploadToRelay_promoted (env : MultipartEnv) (u : MultipartUpload) :
    Promoted (promoteUploadToRelay env u).1 u := by
  unfold promoteUploadToRelay
  dsimp only
  split
  · exact Promoted.refl u
  · have hs := sameParts_updateEach_relayPart env.fs (relayDirForUpload env.relayRoot u.uploadId)
      u.parts
    split <;> rename_i heq <;> rw [heq] at hs
    · exact ⟨_, _, rfl, hs⟩
    · exact ⟨_, _, rfl, hs⟩

/-! ## The calls -/

section Calls

variable {lim : MultipartLimits} {env : MultipartEnv} {st st' onError : MultipartStore}
  {uploadId bucket key : String} {u : MultipartUpload}

/-- The size of part `n` of an upload, zero if it has none. -/
def partSizeAt (u : MultipartUpload) (n : Nat) : Nat := weightAt (fun _ p => p.size) n u.parts

/-- How much a new part of `size` bytes at `n` grows the upload. -/
def partGrowth (u : MultipartUpload) (n size : Nat) : Int := (size : Int) - partSizeAt u n

theorem createWithRelayPolicy_cases {randomBytes : List UInt8} {contentType : Option String}
    {userMetadata : UserMeta} {threshold : Option Nat} {alwaysRelay : Bool}
    {res : Except S3Error String}
    (h : createWithRelayPolicy lim env randomBytes bucket key contentType userMetadata threshold
      alwaysRelay st = (res, st')) :
    (st' = st ∧ ∃ e, res = .error e) ∨
    ∃ u, u.parts = ∅ ∧ u.state = .open ∧ res = .ok (hexEncode randomBytes) ∧
      st' = ⟨st.uploads.insert (hexEncode randomBytes) u, st.inFlightBytes⟩ := by
  unfold createWithRelayPolicy at h
  dsimp only at h
  split at h
  · cases h
    exact .inl ⟨rfl, _, rfl⟩
  · cases h
    exact .inr ⟨_, rfl, rfl, rfl, rfl⟩

theorem insertPart_cases {n : Nat} {data : List UInt8} {delta : Int} {res : Except S3Error String}
    (h : insertPart env st onError uploadId u n data delta = (res, st')) :
    (st' = onError ∧ ∃ e, res = .error e) ∨
    ∃ part : PartData, part.size = data.length ∧
      partPayload env.fs u.relayStrategy n data = .ok part.payload ∧ (∃ etag, res = .ok etag) ∧
      st' = ⟨st.uploads.insert uploadId
        { u with parts := u.parts.insert n part, lastActivity := env.now }, st.inFlightBytes + delta⟩ := by
  unfold insertPart at h
  split at h
  · cases h
    exact .inl ⟨rfl, _, rfl⟩
  · rename_i payload hpayload
    cases h
    exact .inr ⟨_, rfl, hpayload, ⟨_, rfl⟩, rfl⟩

/-- Everything `upload_part` can leave. -/
theorem uploadPart_cases {n : Nat} {data : List UInt8} {res : Except S3Error String}
    (h : uploadPart lim env uploadId bucket key n data st = (res, st')) :
    (st' = st ∧ ∃ e, res = .error e) ∨
    (∃ u u', st.uploads.lookup uploadId = some u ∧ u.state = .open ∧ Promoted u' u ∧
      (promoteUploadToRelay env u).1 = u' ∧
      (∃ e, res = .error e) ∧ st' = ⟨st.uploads.insert uploadId u', st.inFlightBytes⟩) ∨
    (∃ u u' part, st.uploads.lookup uploadId = some u ∧ u.state = .open ∧ Promoted u' u ∧
      (u' = u ∨ promoteUploadToRelay env u = (u', .ok ())) ∧
      part.size = data.length ∧ partPayload env.fs u'.relayStrategy n data = .ok part.payload ∧
      partsBytes u - partSizeAt u n + data.length ≤ lim.maxObjectSize ∧
      ¬(0 < partGrowth u n data.length ∧
        (lim.maxTotalMultipartBytes : Int) < st.inFlightBytes + partGrowth u n data.length) ∧
      (∃ etag, res = .ok etag) ∧
      st' = ⟨st.uploads.insert uploadId
        { u' with parts := u'.parts.insert n part, lastActivity := env.now },
        st.inFlightBytes + partGrowth u n data.length⟩) := by
  unfold uploadPart at h
  -- the refusals before anything is touched
  split at h
  · cases h
    exact .inl ⟨rfl, _, rfl⟩
  split at h
  · cases h
    exact .inl ⟨rfl, _, rfl⟩
  rename_i upload hu
  split at h
  · cases h
    exact .inl ⟨rfl, _, rfl⟩
  split at h
  · cases h
    exact .inl ⟨rfl, _, rfl⟩
  rename_i hopen
  have hopen : upload.state = .open := not_not.mp hopen
  dsimp only at h
  split at h
  · cases h
    exact .inl ⟨rfl, _, rfl⟩
  rename_i hcap
  split at h
  · cases h
    exact .inl ⟨rfl, _, rfl⟩
  rename_i hglobal
  split at h
  · -- the promotion ran: its rewrites stay whatever follows
    have hpro := promoteUploadToRelay_promoted env upload
    rcases hp : promoteUploadToRelay env upload with ⟨promoted, _ | _⟩ <;>
      rw [hp] at h hpro <;> dsimp only at h hpro
    · cases h
      exact .inr (.inl ⟨upload, promoted, hu, hopen, hpro, by rw [hp], ⟨_, rfl⟩, rfl⟩)
    · rcases insertPart_cases h with ⟨rfl, e, rfl⟩ | ⟨part, hsize, hpayload, hres, rfl⟩
      · exact .inr (.inl ⟨upload, promoted, hu, hopen, hpro, by rw [hp], ⟨e, rfl⟩, rfl⟩)
      · exact .inr (.inr ⟨upload, promoted, part, hu, hopen, hpro, .inr hp, hsize, hpayload,
          not_lt.mp hcap, hglobal, hres, rfl⟩)
  · rcases insertPart_cases h with ⟨rfl, e, rfl⟩ | ⟨part, hsize, hpayload, hres, rfl⟩
    · exact .inl ⟨rfl, e, rfl⟩
    · exact .inr (.inr ⟨upload, upload, part, hu, hopen, Promoted.refl upload, .inl rfl, hsize,
        hpayload, not_lt.mp hcap, hglobal, hres, rfl⟩)

/-- On a `Completing` upload `upload_part` is refused and touches nothing. -/
theorem uploadPart_of_completing {n : Nat} {data : List UInt8}
    (hu : st.uploads.lookup uploadId = some u) (hc : u.state = .completing) :
    ∃ e, uploadPart lim env uploadId bucket key n data st = (.error e, st) := by
  unfold uploadPart
  split
  · exact ⟨_, rfl⟩
  rw [hu]
  dsimp only
  split
  · exact ⟨_, rfl⟩
  rw [if_pos (by rw [hc]; decide)]
  exact ⟨_, rfl⟩

/-- A part number outside `1..=10000` is refused before anything is read. -/
theorem uploadPart_of_part_number {n : Nat} {data : List UInt8} (hn : ¬(1 ≤ n ∧ n ≤ 10000)) :
    uploadPart lim env uploadId bucket key n data st =
      (.error (.invalidArgument "Part number must be between 1 and 10000"), st) := by
  rw [uploadPart, if_pos hn]

theorem validateParts_lookup {uploads : AList (fun _ : String => MultipartUpload)}
    {requestedParts : List (Nat × String)} {hydrate : Bool} {v : ValidatedParts}
    (h : validateParts lim env uploads uploadId bucket key requestedParts hydrate = .ok (v, u)) :
    uploads.lookup uploadId = some u := by
  unfold validateParts at h
  split at h
  · cases h
  rename_i upload hu
  split at h
  · cases h
  split at h
  · cases h
  split at h
  · cases h
  cases hl : validateLoop lim env upload.parts hydrate 0 [] [] requestedParts with
  | error e => rw [hl] at h; cases h
  | ok r => rw [hl] at h; cases h; exact hu

theorem isCompleting_false (h : isCompleting st uploadId = false)
    (hu : st.uploads.lookup uploadId = some u) : u.state = .open := by
  unfold isCompleting at h
  rw [hu] at h
  dsimp only at h
  cases hs : u.state with
  | «open» => rfl
  | completing => simp [hs] at h

/-- Everything `complete` can leave. -/
theorem complete_cases {requestedParts : List (Nat × String)} {res : Except S3Error CompletedUpload}
    (h : complete lim env uploadId bucket key requestedParts st = (res, st')) :
    (st' = st ∧ ∃ e, res = .error e) ∨
    ∃ u, st.uploads.lookup uploadId = some u ∧ u.state = .open ∧ (∃ c, res = .ok c) ∧
      st' = st.modifyUpload uploadId (beginCompleting env.now) := by
  unfold complete at h
  split at h
  · cases h
    exact .inl ⟨rfl, _, rfl⟩
  rename_i hnc
  split at h
  · cases h
    exact .inl ⟨rfl, _, rfl⟩
  rename_i v upload hv
  cases h
  have hu := validateParts_lookup hv
  exact .inr ⟨upload, hu, isCompleting_false (Bool.eq_false_iff.mpr hnc) hu, ⟨_, rfl⟩, rfl⟩

/-- Everything `complete_passthrough` can leave. -/
theorem completePassthrough_cases {requestedParts : List (Nat × String)}
    {res : Except S3Error CompletedPassthrough}
    (h : completePassthrough lim env uploadId bucket key requestedParts st = (res, st')) :
    (st' = st ∧ ∃ e, res = .error e) ∨
    ∃ u, st.uploads.lookup uploadId = some u ∧ u.state = .open ∧ (∃ c, res = .ok c) ∧
      st' = st.modifyUpload uploadId (beginCompleting env.now) := by
  unfold completePassthrough at h
  split at h
  · cases h
    exact .inl ⟨rfl, _, rfl⟩
  rename_i hnc
  split at h
  · cases h
    exact .inl ⟨rfl, _, rfl⟩
  split at h
  · cases h
    exact .inl ⟨rfl, _, rfl⟩
  rename_i v upload hv
  split at h
  · cases h
    exact .inl ⟨rfl, _, rfl⟩
  cases h
  have hu := validateParts_lookup hv
  exact .inr ⟨upload, hu, isCompleting_false (Bool.eq_false_iff.mpr hnc) hu, ⟨_, rfl⟩, rfl⟩

/-- Everything `abort` can leave. -/
theorem abort_cases {res : Except S3Error Unit} (h : abort uploadId bucket key st = (res, st')) :
    (st' = st ∧ ∃ e, res = .error e) ∨
    ∃ u, st.uploads.lookup uploadId = some u ∧ u.state = .open ∧ res = .ok () ∧
      st' = st.removeUpload uploadId u := by
  unfold abort at h
  split at h
  · cases h
    exact .inl ⟨rfl, _, rfl⟩
  rename_i upload hu
  split at h
  · cases h
    exact .inl ⟨rfl, _, rfl⟩
  split at h
  · cases h
    exact .inl ⟨rfl, _, rfl⟩
  rename_i hnc
  cases h
  refine .inr ⟨upload, hu, ?_, rfl, rfl⟩
  cases hs : upload.state with
  | «open» => rfl
  | completing => exact absurd hs hnc

theorem finishUpload_cases (uploadId : String) (st : MultipartStore) :
    (finishUpload uploadId st = st ∧ st.uploads.lookup uploadId = none) ∨
    ∃ u, st.uploads.lookup uploadId = some u ∧ finishUpload uploadId st = st.removeUpload uploadId u := by
  unfold finishUpload
  cases h : st.uploads.lookup uploadId with
  | none => exact .inl ⟨rfl, rfl⟩
  | some u => exact .inr ⟨u, rfl, rfl⟩

/-- A `Completing` upload of the bucket, found among the map's entries. -/
theorem exists_completing_of_count {bucket : String}
    (h : 0 < (st.uploads.entries.filter fun e =>
      e.2.bucket == bucket && e.2.state == .completing).length) :
    ∃ uploadId u, st.uploads.lookup uploadId = some u ∧ u.bucket = bucket ∧ u.state = .completing := by
  obtain ⟨e, he⟩ := List.exists_mem_of_length_pos h
  obtain ⟨hmem, hp⟩ := List.mem_filter.mp he
  simp only [Bool.and_eq_true, beq_iff_eq] at hp
  exact ⟨e.1, e.2, AList.mem_lookup_iff.mpr hmem, hp.1, hp.2⟩

/-- No `Completing` upload of the bucket when the count is zero. -/
theorem open_of_count_zero {bucket : String}
    (h : ¬0 < (st.uploads.entries.filter fun e =>
      e.2.bucket == bucket && e.2.state == .completing).length)
    (hu : st.uploads.lookup uploadId = some u) (hb : u.bucket = bucket) : u.state = .open := by
  have hmem : (⟨uploadId, u⟩ : Sigma fun _ : String => MultipartUpload) ∈ st.uploads.entries :=
    AList.mem_lookup_iff.mp hu
  cases hs : u.state with
  | «open» => rfl
  | completing =>
    refine absurd (List.length_pos_of_mem (List.mem_filter.mpr ⟨hmem, ?_⟩)) h
    simp [hb, hs]

/-- Everything `purge_uploads_for_bucket` can leave: nothing, refused because
an upload of the bucket is `Completing`; or all of the bucket's uploads gone,
none of which was `Completing`. -/
theorem purgeUploadsForBucket_cases {res : Except Nat Nat}
    (h : purgeUploadsForBucket bucket st = (res, st')) :
    (st' = st ∧ (∃ c, 0 < c ∧ res = .error c) ∧
      ∃ uploadId u, st.uploads.lookup uploadId = some u ∧ u.bucket = bucket ∧ u.state = .completing) ∨
    ((∃ n, res = .ok n) ∧ st' = st.removeWhere (fun u => u.bucket == bucket) ∧
      ∀ uploadId u, st.uploads.lookup uploadId = some u → u.bucket = bucket → u.state = .open) := by
  unfold purgeUploadsForBucket at h
  dsimp only at h
  split at h
  · rename_i hc
    cases h
    exact .inl ⟨rfl, ⟨_, hc, rfl⟩, exists_completing_of_count hc⟩
  · rename_i hc
    cases h
    exact .inr ⟨⟨_, rfl⟩, rfl, fun _ _ hu hb => open_of_count_zero hc hu hb⟩

theorem cleanupExpired_snd (lim : MultipartLimits) (st : MultipartStore)
    (now maxAge completingTimeout : Int) :
    ∃ cutoff completingCutoff,
      (cleanupExpired lim now maxAge completingTimeout st).2 =
        st.removeWhere (expiredUpload cutoff completingCutoff) :=
  ⟨_, _, rfl⟩

end Calls

/-! ## Invariants of every upload -/

/-- Every upload the store tracks satisfies `P`, given the id it is tracked
under. -/
def EveryUpload (P : String → MultipartUpload → Prop) (st : MultipartStore) : Prop :=
  ∀ uploadId u, st.uploads.lookup uploadId = some u → P uploadId u

section EveryUpload

variable {P : String → MultipartUpload → Prop} {lim : MultipartLimits} {st : MultipartStore}
  {uploadId bucket key : String}

theorem EveryUpload.new : EveryUpload P MultipartStore.new := fun _ _ h => by cases h

/-- A store whose uploads are the old ones or satisfy `P`. -/
theorem EveryUpload.of_lookup (hs : EveryUpload P st) {st' : MultipartStore}
    (h : ∀ uploadId u, st'.uploads.lookup uploadId = some u →
      st.uploads.lookup uploadId = some u ∨ P uploadId u) : EveryUpload P st' := by
  intro uploadId u hu
  rcases h uploadId u hu with hold | hnew
  · exact hs uploadId u hold
  · exact hnew

theorem EveryUpload.insert (hs : EveryUpload P st) {u : MultipartUpload} (hu : P uploadId u)
    (inFlightBytes : Int) : EveryUpload P ⟨st.uploads.insert uploadId u, inFlightBytes⟩ := by
  refine hs.of_lookup fun uploadId' u' hu' => ?_
  by_cases hid : uploadId' = uploadId
  · subst hid
    rw [AList.lookup_insert, Option.some_inj] at hu'
    exact .inr (hu' ▸ hu)
  · exact .inl (by rwa [AList.lookup_insert_ne hid] at hu')

theorem EveryUpload.modifyUpload (hs : EveryUpload P st) {f : MultipartUpload → MultipartUpload}
    (hf : ∀ u, P uploadId u → P uploadId (f u)) : EveryUpload P (st.modifyUpload uploadId f) := by
  refine hs.of_lookup fun uploadId' u' hu' => ?_
  by_cases hid : uploadId' = uploadId
  · subst hid
    rw [lookup_modifyUpload_self, Option.map_eq_some_iff] at hu'
    obtain ⟨u, hu, rfl⟩ := hu'
    exact .inr (hf u (hs _ u hu))
  · exact .inl (by rwa [lookup_modifyUpload_ne hid] at hu')

theorem EveryUpload.removeUpload (hs : EveryUpload P st) (u : MultipartUpload) :
    EveryUpload P (st.removeUpload uploadId u) := by
  refine hs.of_lookup fun uploadId' u' hu' => ?_
  by_cases hid : uploadId' = uploadId
  · subst hid
    rw [lookup_removeUpload_self] at hu'
    cases hu'
  · exact .inl (by rwa [lookup_removeUpload_ne hid] at hu')

theorem EveryUpload.removeWhere (hs : EveryUpload P st) (p : MultipartUpload → Bool) :
    EveryUpload P (st.removeWhere p) :=
  hs.of_lookup fun _ _ hu' => .inl (lookup_removeWhere_eq_some hu').1

/-! The calls that only remove uploads keep every such invariant. -/

theorem EveryUpload.finishUpload (hs : EveryUpload P st) :
    EveryUpload P (Multipart.finishUpload uploadId st) := by
  rcases finishUpload_cases uploadId st with ⟨h, -⟩ | ⟨u, -, h⟩ <;> rw [h]
  · exact hs
  · exact hs.removeUpload u

theorem EveryUpload.abort (hs : EveryUpload P st) :
    EveryUpload P (Multipart.abort uploadId bucket key st).2 := by
  generalize hc : Multipart.abort uploadId bucket key st = r
  obtain ⟨res, st'⟩ := r
  rcases abort_cases hc with ⟨rfl, -⟩ | ⟨u, -, -, -, rfl⟩
  · exact hs
  · exact hs.removeUpload u

theorem EveryUpload.purgeUploadsForBucket (hs : EveryUpload P st) :
    EveryUpload P (Multipart.purgeUploadsForBucket bucket st).2 := by
  generalize hc : Multipart.purgeUploadsForBucket bucket st = r
  obtain ⟨res, st'⟩ := r
  rcases purgeUploadsForBucket_cases hc with ⟨rfl, -⟩ | ⟨-, rfl, -⟩
  · exact hs
  · exact hs.removeWhere _

theorem EveryUpload.cleanupExpired (hs : EveryUpload P st) (now maxAge completingTimeout : Int) :
    EveryUpload P (Multipart.cleanupExpired lim now maxAge completingTimeout st).2 := by
  obtain ⟨cutoff, completingCutoff, h⟩ := cleanupExpired_snd lim st now maxAge completingTimeout
  rw [h]
  exact hs.removeWhere _

end EveryUpload

end DeltaGlider.Multipart
