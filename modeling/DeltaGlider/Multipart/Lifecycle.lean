import DeltaGlider.Multipart.Calls
import DeltaGlider.Lib.Digest

/-!
# The lifecycle of a multipart upload

The state machine of `MultipartState` over whole runs of the store.

* A successful `complete` or `complete_passthrough` leaves the upload
  `Completing` with the parts it validated (`completingWith_of_complete`).
* While an upload is `Completing` every call but its rollback and its
  finish keeps it `Completing` with the same parts map, refuses any
  `UploadPart` or abort of it and changes nothing doing so, unless a sweep
  removes it (`completingWith_step`); over a run this is
  `completingWith_run`, and from the successful complete on,
  `completed_upload_frozen`.
* `purge_uploads_for_bucket` removes all of a bucket's uploads or, when one is
  `Completing`, none (`purgeUploadsForBucket_all_or_none`); `cleanup_expired`
  spares a `Completing` upload whose store is running
  (`cleanupExpired_spares_store_in_progress`); and a failing complete,
  `UploadPart` or abort leaves the upload's state, its parts apart from where
  their bytes are, and the counter as they were (`failed_calls_change_nothing`).

`multipart_lifecycle` collects these.
-/

namespace DeltaGlider.Multipart

open RustStd KeyMap

/-- The upload `uploadId` is `Completing` and holds `parts`. -/
def CompletingWith (st : MultipartStore) (uploadId : String) (parts : Parts) : Prop :=
  ∃ u, st.uploads.lookup uploadId = some u ∧ u.state = .completing ∧ u.parts = parts

/-- The calls that end a completion: the rollback after a failed store and
the removal after a stored one. -/
def MultipartOp.Releases (uploadId : String) : MultipartOp → Prop
  | .rollbackUpload id => id = uploadId
  | .finishUpload id => id = uploadId
  | _ => False

/-- The calls that begin one. -/
def MultipartOp.Completes (uploadId : String) : MultipartOp → Prop
  | .complete id .. => id = uploadId
  | .completePassthrough id .. => id = uploadId
  | _ => False

/-- An `UploadPart` or an abort of `uploadId` in the event failed. -/
def RefusedOn (uploadId : String) : MultipartOp × Bool → Prop
  | (.uploadPart id .., ok) => id = uploadId → ok = false
  | (.abort id .., ok) => id = uploadId → ok = false
  | _ => True

section Refusals

variable {lim : MultipartLimits} {env : MultipartEnv} {st : MultipartStore}
  {uploadId bucket key : String} {u : MultipartUpload} {requestedParts : List (Nat × String)}

theorem isCompleting_of (hu : st.uploads.lookup uploadId = some u) (hc : u.state = .completing) :
    isCompleting st uploadId = true := by
  simp [isCompleting, hu, hc]

theorem complete_of_completing (hu : st.uploads.lookup uploadId = some u)
    (hc : u.state = .completing) :
    ∃ e, complete lim env uploadId bucket key requestedParts st = (.error e, st) := by
  unfold complete
  rw [if_pos (isCompleting_of hu hc)]
  exact ⟨_, rfl⟩

theorem completePassthrough_of_completing (hu : st.uploads.lookup uploadId = some u)
    (hc : u.state = .completing) :
    ∃ e, completePassthrough lim env uploadId bucket key requestedParts st = (.error e, st) := by
  unfold completePassthrough
  rw [if_pos (isCompleting_of hu hc)]
  exact ⟨_, rfl⟩

theorem abort_of_completing (hu : st.uploads.lookup uploadId = some u)
    (hc : u.state = .completing) : ∃ e, abort uploadId bucket key st = (.error e, st) := by
  unfold abort
  rw [hu]
  dsimp only
  split
  · exact ⟨_, rfl⟩
  · exact ⟨_, rfl⟩

end Refusals

/-! ## One call on a `Completing` upload -/

section Frozen

variable {lim : MultipartLimits} {env : MultipartEnv} {st st' : MultipartStore}
  {uploadId : String} {parts : Parts}

theorem CompletingWith.of_lookup (h : CompletingWith st uploadId parts)
    (heq : st'.uploads.lookup uploadId = st.uploads.lookup uploadId) :
    CompletingWith st' uploadId parts := by
  obtain ⟨u, hu, hc, hp⟩ := h
  exact ⟨u, heq.trans hu, hc, hp⟩

theorem CompletingWith.mem (h : CompletingWith st uploadId parts) : uploadId ∈ st.uploads := by
  obtain ⟨u, hu, -, -⟩ := h
  exact AList.lookup_isSome.mp (by rw [hu]; rfl)

/-- A change of another upload. -/
theorem CompletingWith.modifyUpload_ne (h : CompletingWith st uploadId parts) {uploadId' : String}
    (hne : uploadId' ≠ uploadId) {f : MultipartUpload → MultipartUpload} :
    CompletingWith (st.modifyUpload uploadId' f) uploadId parts :=
  h.of_lookup (lookup_modifyUpload_ne (Ne.symm hne))

/-- A change of the upload itself that keeps its state and parts. -/
theorem CompletingWith.modifyUpload_self (h : CompletingWith st uploadId parts)
    {f : MultipartUpload → MultipartUpload} (hf : ∀ u, (f u).state = u.state ∧ (f u).parts = u.parts) :
    CompletingWith (st.modifyUpload uploadId f) uploadId parts := by
  obtain ⟨u, hu, hc, hp⟩ := h
  refine ⟨f u, by rw [lookup_modifyUpload_self, hu]; rfl, ?_, ?_⟩
  · rw [(hf u).1, hc]
  · rw [(hf u).2, hp]

theorem CompletingWith.create (h : CompletingWith st uploadId parts) {randomBytes : List UInt8}
    (hfresh : hexEncode randomBytes ∉ st.uploads) {bucket key : String}
    {contentType : Option String} {userMetadata : UserMeta} {threshold : Option Nat}
    {alwaysRelay : Bool} :
    CompletingWith (Multipart.createWithRelayPolicy lim env randomBytes bucket key contentType userMetadata
      threshold alwaysRelay st).2 uploadId parts := by
  generalize hc : Multipart.createWithRelayPolicy lim env randomBytes bucket key contentType userMetadata
    threshold alwaysRelay st = r
  obtain ⟨res, st'⟩ := r
  rcases createWithRelayPolicy_cases hc with ⟨rfl, -⟩ | ⟨u, -, -, -, rfl⟩
  · exact h
  · -- the drawn id is not the tracked one
    have hne : uploadId ≠ hexEncode randomBytes := fun he => hfresh (he ▸ h.mem)
    exact h.of_lookup (AList.lookup_insert_ne hne)

/-- `UploadPart` on the `Completing` upload fails and changes nothing; on
another upload it does not touch this one. -/
theorem CompletingWith.uploadPart (h : CompletingWith st uploadId parts) {uploadId' bucket key : String}
    {n : Nat} {data : List UInt8} :
    CompletingWith (Multipart.uploadPart lim env uploadId' bucket key n data st).2 uploadId parts ∧
      (uploadId' = uploadId → (Multipart.uploadPart lim env uploadId' bucket key n data st).1.isOk = false) := by
  by_cases hid : uploadId' = uploadId
  · subst hid
    obtain ⟨u, hu, hc, hp⟩ := h
    obtain ⟨e, he⟩ : ∃ e, Multipart.uploadPart lim env uploadId' bucket key n data st =
        (.error e, st) := uploadPart_of_completing hu hc
    rw [he]
    exact ⟨⟨u, hu, hc, hp⟩, fun _ => rfl⟩
  · refine ⟨?_, fun he => absurd he hid⟩
    generalize hc : Multipart.uploadPart lim env uploadId' bucket key n data st = r
    obtain ⟨res, st'⟩ := r
    rcases uploadPart_cases hc with ⟨rfl, -⟩ | ⟨-, -, -, -, -, -, -, rfl⟩ |
      ⟨-, -, -, -, -, -, -, -, -, -, -, -, rfl⟩
    · exact h
    · exact h.of_lookup (AList.lookup_insert_ne (Ne.symm hid))
    · exact h.of_lookup (AList.lookup_insert_ne (Ne.symm hid))

theorem CompletingWith.complete (h : CompletingWith st uploadId parts) {uploadId' bucket key : String}
    {requestedParts : List (Nat × String)} :
    CompletingWith (Multipart.complete lim env uploadId' bucket key requestedParts st).2 uploadId parts := by
  by_cases hid : uploadId' = uploadId
  · subst hid
    obtain ⟨u, hu, hc, hp⟩ := h
    obtain ⟨e, he⟩ : ∃ e, Multipart.complete lim env uploadId' bucket key requestedParts st =
        (.error e, st) := complete_of_completing hu hc
    rw [he]
    exact ⟨u, hu, hc, hp⟩
  · generalize hc : Multipart.complete lim env uploadId' bucket key requestedParts st = r
    obtain ⟨res, st'⟩ := r
    rcases complete_cases hc with ⟨rfl, -⟩ | ⟨-, -, -, -, rfl⟩
    · exact h
    · exact h.modifyUpload_ne hid

theorem CompletingWith.completePassthrough (h : CompletingWith st uploadId parts)
    {uploadId' bucket key : String} {requestedParts : List (Nat × String)} :
    CompletingWith (Multipart.completePassthrough lim env uploadId' bucket key requestedParts st).2 uploadId
      parts := by
  by_cases hid : uploadId' = uploadId
  · subst hid
    obtain ⟨u, hu, hc, hp⟩ := h
    obtain ⟨e, he⟩ : ∃ e, Multipart.completePassthrough lim env uploadId' bucket key requestedParts
        st = (.error e, st) := completePassthrough_of_completing hu hc
    rw [he]
    exact ⟨u, hu, hc, hp⟩
  · generalize hc : Multipart.completePassthrough lim env uploadId' bucket key requestedParts st = r
    obtain ⟨res, st'⟩ := r
    rcases completePassthrough_cases hc with ⟨rfl, -⟩ | ⟨-, -, -, -, rfl⟩
    · exact h
    · exact h.modifyUpload_ne hid

theorem CompletingWith.finishUpload (h : CompletingWith st uploadId parts) {uploadId' : String}
    (hne : uploadId' ≠ uploadId) : CompletingWith (Multipart.finishUpload uploadId' st) uploadId parts := by
  rcases finishUpload_cases uploadId' st with ⟨he, -⟩ | ⟨u, -, he⟩
  · rw [he]
    exact h
  · rw [he]
    exact h.of_lookup (lookup_removeUpload_ne (Ne.symm hne))

/-- An abort of the `Completing` upload fails and changes nothing; one of
another upload does not touch it. -/
theorem CompletingWith.abort (h : CompletingWith st uploadId parts) {uploadId' bucket key : String} :
    CompletingWith (Multipart.abort uploadId' bucket key st).2 uploadId parts ∧
      (uploadId' = uploadId → (Multipart.abort uploadId' bucket key st).1.isOk = false) := by
  by_cases hid : uploadId' = uploadId
  · subst hid
    obtain ⟨u, hu, hc, hp⟩ := h
    obtain ⟨e, he⟩ : ∃ e, Multipart.abort uploadId' bucket key st = (.error e, st) :=
      abort_of_completing hu hc
    rw [he]
    exact ⟨⟨u, hu, hc, hp⟩, fun _ => rfl⟩
  · refine ⟨?_, fun he => absurd he hid⟩
    generalize hc : Multipart.abort uploadId' bucket key st = r
    obtain ⟨res, st'⟩ := r
    rcases abort_cases hc with ⟨rfl, -⟩ | ⟨-, -, -, -, rfl⟩
    · exact h
    · exact h.of_lookup (lookup_removeUpload_ne (Ne.symm hid))

/-- A purge never removes a `Completing` upload: it refuses while its bucket
has one. -/
theorem CompletingWith.purgeUploadsForBucket (h : CompletingWith st uploadId parts) {bucket : String} :
    CompletingWith (Multipart.purgeUploadsForBucket bucket st).2 uploadId parts := by
  generalize hc : Multipart.purgeUploadsForBucket bucket st = r
  obtain ⟨res, st'⟩ := r
  rcases purgeUploadsForBucket_cases hc with ⟨rfl, -⟩ | ⟨-, rfl, hopen⟩
  · exact h
  · obtain ⟨u, hu, hcomp, hp⟩ := h
    have hb : (u.bucket == bucket) = false := by
      cases hbk : u.bucket == bucket
      · rfl
      · rw [hopen _ _ hu (beq_iff_eq.mp hbk)] at hcomp
        cases hcomp
    exact ⟨u, lookup_removeWhere_of_not hu hb, hcomp, hp⟩

/-- A sweep either spares the upload, untouched, or removes it. -/
theorem CompletingWith.cleanupExpired (h : CompletingWith st uploadId parts)
    (now maxAge completingTimeout : Int) :
    CompletingWith (Multipart.cleanupExpired lim now maxAge completingTimeout st).2 uploadId parts ∨
      (Multipart.cleanupExpired lim now maxAge completingTimeout st).2.uploads.lookup uploadId = none := by
  obtain ⟨cutoff, completingCutoff, hst⟩ := cleanupExpired_snd lim st now maxAge completingTimeout
  rw [hst]
  obtain ⟨u, hu, hc, hp⟩ := h
  cases hexp : expiredUpload cutoff completingCutoff u
  · exact .inl ⟨u, lookup_removeWhere_of_not hu hexp, hc, hp⟩
  · right
    rw [lookup_removeWhere, hu, Option.filter_some, hexp]
    rfl

/-- One call while the upload is `Completing`, other than its rollback or
finish: it stays `Completing` with the same parts and any `UploadPart` or
abort of it failed, or the call was a sweep that removed it. -/
theorem completingWith_step (h : CompletingWith st uploadId parts) {ev : MultipartOp × Bool}
    (hstep : Step lim st ev st') (hrel : ¬ev.1.Releases uploadId) :
    (CompletingWith st' uploadId parts ∧ RefusedOn uploadId ev) ∨
      ((∃ maxAge completingTimeout, ev.1 = .cleanupExpired maxAge completingTimeout) ∧
        st'.uploads.lookup uploadId = none) := by
  cases hstep with
  | call env op hfresh =>
  cases op with
  | create => exact .inl ⟨h.create hfresh, trivial⟩
  | uploadPart => exact .inl h.uploadPart
  | complete => exact .inl ⟨h.complete, trivial⟩
  | completePassthrough => exact .inl ⟨h.completePassthrough, trivial⟩
  | rollbackUpload uploadId' => exact .inl ⟨h.modifyUpload_ne hrel, trivial⟩
  | storeGuard uploadId' =>
    by_cases hid : uploadId' = uploadId
    · subst hid
      exact .inl ⟨h.modifyUpload_self fun _ => ⟨rfl, rfl⟩, trivial⟩
    · exact .inl ⟨h.modifyUpload_ne hid, trivial⟩
  | clearStoreInProgress uploadId' =>
    by_cases hid : uploadId' = uploadId
    · subst hid
      exact .inl ⟨h.modifyUpload_self fun _ => ⟨rfl, rfl⟩, trivial⟩
    · exact .inl ⟨h.modifyUpload_ne hid, trivial⟩
  | finishUpload uploadId' => exact .inl ⟨h.finishUpload hrel, trivial⟩
  | abort => exact .inl h.abort
  | purgeUploadsForBucket => exact .inl ⟨h.purgeUploadsForBucket, trivial⟩
  | cleanupExpired maxAge completingTimeout =>
    rcases h.cleanupExpired env.now maxAge completingTimeout with h' | hnone
    · exact .inl ⟨h', trivial⟩
    · exact .inr ⟨⟨maxAge, completingTimeout, rfl⟩, hnone⟩

end Frozen

/-! ## Over a run -/

section Runs

variable {lim : MultipartLimits} {uploadId : String} {parts : Parts}

/-- A run splits at any point into the runs before and after it. -/
theorem Run.split {st st' : MultipartStore} {evs₁ evs₂ : List (MultipartOp × Bool)}
    (h : Run lim st (evs₁ ++ evs₂) st') : ∃ st₁, Run lim st evs₁ st₁ ∧ Run lim st₁ evs₂ st' := by
  induction evs₁ generalizing st with
  | nil => exact ⟨st, .nil _, h⟩
  | cons ev evs ih =>
    cases h with
    | cons hstep hrest =>
      obtain ⟨st₁, h₁, h₂⟩ := ih hrest
      exact ⟨st₁, .cons hstep h₁, h₂⟩

/-- Along the events `evs` from `st` to `st'` the upload stays `Completing`
with `parts` and every `UploadPart` or abort of it fails, up to the end of
the run or up to a sweep that removes it. -/
def FrozenAlong (lim : MultipartLimits) (uploadId : String) (parts : Parts) (st : MultipartStore)
    (evs : List (MultipartOp × Bool)) (st' : MultipartStore) : Prop :=
  (CompletingWith st' uploadId parts ∧ ∀ ev ∈ evs, RefusedOn uploadId ev) ∨
  ∃ evs₁ evs₂ st₁ st₂ maxAge completingTimeout ok,
    evs = evs₁ ++ (.cleanupExpired maxAge completingTimeout, ok) :: evs₂ ∧
    Run lim st evs₁ st₁ ∧ CompletingWith st₁ uploadId parts ∧ (∀ ev ∈ evs₁, RefusedOn uploadId ev) ∧
    Step lim st₁ (.cleanupExpired maxAge completingTimeout, ok) st₂ ∧
    st₂.uploads.lookup uploadId = none

/-- The run lemma: by induction over the run, with `completingWith_step`
as the step. -/
theorem completingWith_run {st st' : MultipartStore} {evs : List (MultipartOp × Bool)}
    (hrun : Run lim st evs st') :
    CompletingWith st uploadId parts → (∀ ev ∈ evs, ¬ev.1.Releases uploadId) →
      FrozenAlong lim uploadId parts st evs st' := by
  induction hrun with
  | nil st => exact fun h _ => .inl ⟨h, fun _ hev => absurd hev List.not_mem_nil⟩
  | @cons st st₁ st' ev evs hstep hrest ih =>
    intro h hrel
    rcases completingWith_step h hstep (hrel ev (List.mem_cons.mpr (.inl rfl))) with
      ⟨h₁, href⟩ | ⟨⟨maxAge, completingTimeout, hev⟩, hnone⟩
    · rcases ih h₁ (fun e he => hrel e (List.mem_cons_of_mem _ he)) with ⟨h', hall⟩ |
        ⟨evs₁, evs₂, s₁, s₂, m, c, ok, rfl, hr, hc, hall, hs, hn⟩
      · exact .inl ⟨h', List.forall_mem_cons.mpr ⟨href, hall⟩⟩
      · exact .inr ⟨ev :: evs₁, evs₂, s₁, s₂, m, c, ok, rfl, .cons hstep hr, hc,
          List.forall_mem_cons.mpr ⟨href, hall⟩, hs, hn⟩
    · -- the sweep removed it: the run is cut here
      obtain ⟨op, ok⟩ := ev
      dsimp only at hev
      subst hev
      exact .inr ⟨[], evs, st, st₁, maxAge, completingTimeout, ok, rfl, .nil _, h,
        fun _ he => absurd he List.not_mem_nil, hstep, hnone⟩

/-- A successful `complete` or `complete_passthrough` leaves the upload
`Completing` with the parts it had. -/
theorem completingWith_of_complete {st st' : MultipartStore} {ev : MultipartOp × Bool}
    (hstep : Step lim st ev st') (hok : ev.2 = true) (hop : ev.1.Completes uploadId) :
    ∃ u, st.uploads.lookup uploadId = some u ∧ CompletingWith st' uploadId u.parts := by
  cases hstep with
  | call env op hfresh =>
  cases op <;> simp only [MultipartOp.Completes] at hop
  case complete uploadId' bucket key requestedParts =>
    subst hop
    simp only [MultipartOp.succeeded] at hok
    simp only [MultipartOp.apply]
    generalize hc : Multipart.complete lim env uploadId' bucket key requestedParts st = r at hok ⊢
    obtain ⟨res, st'⟩ := r
    rcases complete_cases hc with ⟨-, e, rfl⟩ | ⟨u, hu, -, -, rfl⟩
    · cases hok
    · exact ⟨u, hu, beginCompleting env.now u, by rw [lookup_modifyUpload_self, hu]; rfl, rfl, rfl⟩
  case completePassthrough uploadId' bucket key requestedParts =>
    subst hop
    simp only [MultipartOp.succeeded] at hok
    simp only [MultipartOp.apply]
    generalize hc : Multipart.completePassthrough lim env uploadId' bucket key requestedParts st = r
      at hok ⊢
    obtain ⟨res, st'⟩ := r
    rcases completePassthrough_cases hc with ⟨-, e, rfl⟩ | ⟨u, hu, -, -, rfl⟩
    · cases hok
    · exact ⟨u, hu, beginCompleting env.now u, by rw [lookup_modifyUpload_self, hu]; rfl, rfl, rfl⟩

/-- From a successful complete of an upload on, until its rollback or its
finish: the upload stays `Completing` with the parts the complete saw, and
every `UploadPart` or abort of it fails, up to the end of the run or up to a
sweep that removes it. -/
theorem completed_upload_frozen {st st' : MultipartStore} {pre post : List (MultipartOp × Bool)}
    {op : MultipartOp} (hrun : Run lim st (pre ++ (op, true) :: post) st')
    (hop : op.Completes uploadId) (hrel : ∀ ev ∈ post, ¬ev.1.Releases uploadId) :
    ∃ st₁ st₂ u, Run lim st pre st₁ ∧ st₁.uploads.lookup uploadId = some u ∧
      Step lim st₁ (op, true) st₂ ∧ FrozenAlong lim uploadId u.parts st₂ post st' := by
  obtain ⟨st₁, hpre, hrest⟩ := Run.split hrun
  cases hrest with
  | cons hstep hpost =>
    rename_i st₂
    obtain ⟨u, hu, hfrozen⟩ := completingWith_of_complete hstep rfl hop
    exact ⟨st₁, st₂, u, hpre, hu, hstep, completingWith_run hpost hfrozen hrel⟩

end Runs

/-! ## Purges, sweeps and failed calls -/

section Calls

variable {lim : MultipartLimits} {env : MultipartEnv} {st st' : MultipartStore}
  {uploadId bucket key : String} {u : MultipartUpload} {requestedParts : List (Nat × String)}

/-- `purge_uploads_for_bucket` removes every upload of the bucket and keeps
every other one, or, refusing because one of the bucket's uploads is
`Completing`, removes none. -/
theorem purgeUploadsForBucket_all_or_none {res : Except Nat Nat}
    (h : purgeUploadsForBucket bucket st = (res, st')) :
    ((∃ n, res = .ok n) ∧
      (∀ uploadId u, st'.uploads.lookup uploadId = some u → u.bucket ≠ bucket) ∧
      ∀ uploadId u, st.uploads.lookup uploadId = some u → u.bucket ≠ bucket →
        st'.uploads.lookup uploadId = some u) ∨
    ((∃ c, 0 < c ∧ res = .error c) ∧ st' = st ∧
      ∃ uploadId u, st.uploads.lookup uploadId = some u ∧ u.bucket = bucket ∧
        u.state = .completing) := by
  rcases purgeUploadsForBucket_cases h with ⟨rfl, hres, hc⟩ | ⟨hres, rfl, -⟩
  · exact .inr ⟨hres, rfl, hc⟩
  · refine .inl ⟨hres, fun uploadId u hu => ?_, fun uploadId u hu hb => ?_⟩
    · have := (lookup_removeWhere_eq_some hu).2
      simpa using this
    · exact lookup_removeWhere_of_not hu (by simpa using hb)

/-- The sweeper never removes a `Completing` upload whose store is running. -/
theorem cleanupExpired_spares_store_in_progress (hu : st.uploads.lookup uploadId = some u)
    (hc : u.state = .completing) (hs : u.storeInProgress = true) (now maxAge completingTimeout : Int) :
    (cleanupExpired lim now maxAge completingTimeout st).2.uploads.lookup uploadId = some u := by
  obtain ⟨cutoff, completingCutoff, hst⟩ := cleanupExpired_snd lim st now maxAge completingTimeout
  rw [hst]
  exact lookup_removeWhere_of_not hu (by simp [expiredUpload, hc, hs])

/-- The upload's state, its parts apart from where their bytes are, and the
counter are as they were. -/
def UploadUnchanged (st' st : MultipartStore) (uploadId : String) : Prop :=
  (st'.uploads.lookup uploadId).map (·.state) = (st.uploads.lookup uploadId).map (·.state) ∧
  (st'.uploads.lookup uploadId).map (·.partView) = (st.uploads.lookup uploadId).map (·.partView) ∧
  st'.inFlightBytes = st.inFlightBytes

theorem complete_error_eq {e : S3Error}
    (h : complete lim env uploadId bucket key requestedParts st = (.error e, st')) : st' = st := by
  rcases complete_cases h with ⟨rfl, -⟩ | ⟨-, -, -, ⟨c, hc⟩, -⟩
  · rfl
  · cases hc

theorem completePassthrough_error_eq {e : S3Error}
    (h : completePassthrough lim env uploadId bucket key requestedParts st = (.error e, st')) :
    st' = st := by
  rcases completePassthrough_cases h with ⟨rfl, -⟩ | ⟨-, -, -, ⟨c, hc⟩, -⟩
  · rfl
  · cases hc

theorem abort_error_eq {e : S3Error} (h : abort uploadId bucket key st = (.error e, st')) :
    st' = st := by
  rcases abort_cases h with ⟨rfl, -⟩ | ⟨-, -, -, hc, -⟩
  · rfl
  · cases hc

/-- A failed `UploadPart` leaves the upload's state, its parts and the
counter as they were, even when a promotion had already moved some parts
to relay files. -/
theorem uploadPart_error_unchanged {n : Nat} {data : List UInt8} {e : S3Error}
    (h : uploadPart lim env uploadId bucket key n data st = (.error e, st')) :
    UploadUnchanged st' st uploadId := by
  rcases uploadPart_cases h with ⟨rfl, -⟩ | ⟨u, u', hu, -, hpro, -, -, rfl⟩ |
    ⟨-, -, -, -, -, -, -, -, -, -, -, ⟨etag, hetag⟩, -⟩
  · exact ⟨rfl, rfl, rfl⟩
  · refine ⟨?_, ?_, rfl⟩ <;> simp only [AList.lookup_insert, hu, Option.map_some]
    · rw [hpro.state_eq]
    · rw [hpro.partView]
  · cases hetag

end Calls

/-- The lifecycle guarantees of the multipart store. -/
structure MultipartLifecycle (lim : MultipartLimits) : Prop where
  /-- After a successful complete, until the upload's rollback or finish. -/
  frozen : ∀ {st st' : MultipartStore} {pre post : List (MultipartOp × Bool)} {op : MultipartOp}
    {uploadId : String}, Run lim st (pre ++ (op, true) :: post) st' → op.Completes uploadId →
      (∀ ev ∈ post, ¬ev.1.Releases uploadId) →
      ∃ st₁ st₂ u, Run lim st pre st₁ ∧ st₁.uploads.lookup uploadId = some u ∧
        Step lim st₁ (op, true) st₂ ∧ FrozenAlong lim uploadId u.parts st₂ post st'
  /-- A purge is all or nothing. -/
  purge : ∀ {bucket : String} {st st' : MultipartStore} {res : Except Nat Nat},
    purgeUploadsForBucket bucket st = (res, st') →
      ((∃ n, res = .ok n) ∧
        (∀ uploadId u, st'.uploads.lookup uploadId = some u → u.bucket ≠ bucket) ∧
        ∀ uploadId u, st.uploads.lookup uploadId = some u → u.bucket ≠ bucket →
          st'.uploads.lookup uploadId = some u) ∨
      ((∃ c, 0 < c ∧ res = .error c) ∧ st' = st ∧
        ∃ uploadId u, st.uploads.lookup uploadId = some u ∧ u.bucket = bucket ∧
          u.state = .completing)
  /-- The sweeper spares a running store. -/
  sweep : ∀ {st : MultipartStore} {uploadId : String} {u : MultipartUpload},
    st.uploads.lookup uploadId = some u → u.state = .completing → u.storeInProgress = true →
      ∀ now maxAge completingTimeout,
        (cleanupExpired lim now maxAge completingTimeout st).2.uploads.lookup uploadId = some u
  /-- Failed calls change nothing of the upload. -/
  completeFails : ∀ {env : MultipartEnv} {uploadId bucket key : String}
    {requestedParts : List (Nat × String)} {st st' : MultipartStore} {e : S3Error},
    complete lim env uploadId bucket key requestedParts st = (.error e, st') → st' = st
  completePassthroughFails : ∀ {env : MultipartEnv} {uploadId bucket key : String}
    {requestedParts : List (Nat × String)} {st st' : MultipartStore} {e : S3Error},
    completePassthrough lim env uploadId bucket key requestedParts st = (.error e, st') → st' = st
  abortFails : ∀ {uploadId bucket key : String} {st st' : MultipartStore} {e : S3Error},
    abort uploadId bucket key st = (.error e, st') → st' = st
  uploadPartFails : ∀ {env : MultipartEnv} {uploadId bucket key : String} {n : Nat}
    {data : List UInt8} {st st' : MultipartStore} {e : S3Error},
    uploadPart lim env uploadId bucket key n data st = (.error e, st') → UploadUnchanged st' st uploadId

theorem multipart_lifecycle (lim : MultipartLimits) : MultipartLifecycle lim where
  frozen := completed_upload_frozen
  purge := purgeUploadsForBucket_all_or_none
  sweep := cleanupExpired_spares_store_in_progress
  completeFails := complete_error_eq
  completePassthroughFails := completePassthrough_error_eq
  abortFails := abort_error_eq
  uploadPartFails := uploadPart_error_unchanged

/-- A create, a part and a successful complete of it, then a late
`UploadPart` of the completing upload: the run's complete freezes the upload,
and the late part is refused with the parts left as the complete validated
them. -/
theorem multipart_lifecycle_late_part_refused :
    let lim : MultipartLimits := ⟨100, 10, 1000, 3600⟩
    let env : MultipartEnv := ⟨0, "relay", Digest.Md5.digest, RelayFs.healthy⟩
    let uploadId := hexEncode (List.replicate 16 1)
    let create := MultipartOp.create (List.replicate 16 1) "b" "k" none UserMeta.empty none false
    let part := MultipartOp.uploadPart uploadId "b" "k" 1 [7, 7]
    let done := MultipartOp.complete uploadId "b" "k" [(1, "d0ef81942a79596af5990216e3d17b4e")]
    let late := MultipartOp.uploadPart uploadId "b" "k" 2 [8]
    let st₁ := part.apply lim env (create.apply lim env MultipartStore.new)
    let st₂ := done.apply lim env st₁
    let st₃ := late.apply lim env st₂
    Run lim MultipartStore.new ([(create, true), (part, true)] ++ (done, true) :: [(late, false)]) st₃ ∧
      ∃ st₁ st₂ u, Run lim MultipartStore.new [(create, true), (part, true)] st₁ ∧
        st₁.uploads.lookup uploadId = some u ∧ Step lim st₁ (done, true) st₂ ∧
        FrozenAlong lim uploadId u.parts st₂ [(late, false)] st₃ := by
  intro lim env uploadId create part done late st₁ st₂ st₃
  -- each call answers as the run says: the complete succeeds, the late part fails
  have hcreate : create.succeeded lim env MultipartStore.new = true := by decide +kernel
  have hpart : part.succeeded lim env (create.apply lim env MultipartStore.new) = true := by
    decide +kernel
  have hdone : done.succeeded lim env st₁ = true := by decide +kernel
  have hlate : late.succeeded lim env st₂ = false := by decide +kernel
  have hrun : Run lim MultipartStore.new
      [(create, create.succeeded lim env MultipartStore.new),
        (part, part.succeeded lim env (create.apply lim env MultipartStore.new)),
        (done, done.succeeded lim env st₁), (late, late.succeeded lim env st₂)] st₃ :=
    .cons (.call env create (by exact AList.notMem_empty _)) (.cons (.call env part trivial)
      (.cons (.call env done trivial) (.cons (.call env late trivial) (.nil _))))
  rw [hcreate, hpart, hdone, hlate] at hrun
  exact ⟨hrun, @MultipartLifecycle.frozen lim (multipart_lifecycle lim) MultipartStore.new st₃
    [(create, true), (part, true)] [(late, false)] done uploadId hrun rfl
    (by simp [MultipartOp.Releases, late])⟩

end DeltaGlider.Multipart
